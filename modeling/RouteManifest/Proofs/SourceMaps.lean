import RouteManifest.Proofs.Encoding
import RouteManifest.Proofs.Isolation
import RouteManifest.Proofs.PathsBelow
import RouteManifest.Proofs.RecordingPens

/-!
# Source maps behind the text

A compiled text is the same with its map and without, and so is every error: the map only follows
the text, in base 64, and what it says is JSON again. It names the routes file by its path below the
project, where the project is above it component by component, and else by its whole path.
-/

namespace RouteManifest

open Script

namespace SourceMap

/-- A character that stands for itself between quotation marks. -/
def Plain (c : Char) : Prop := Json.escapeChar c = [c]

theorem plain_digit (n : Nat) : Plain (Text.Base64.digit n) := by
  have each : ∀ k < 64, Json.escapeChar (Text.Base64.digit k) = [Text.Base64.digit k] := by
    decide +kernel
  have reduced : Text.Base64.digit n = Text.Base64.digit (n % 64) := by
    rw [Text.Base64.digit, Text.Base64.digit, Nat.mod_mod]
  rw [Plain, reduced]
  exact each (n % 64) (Nat.mod_lt n (by decide))

theorem plain_difference (previousColumn : Nat) (previous s : Segment) :
    ∀ c ∈ difference previousColumn previous s, Plain c := by
  have number : ∀ i, ∀ c ∈ number i, Plain c := by
    intro i c member
    obtain ⟨n, -, rfl⟩ := List.mem_map.mp member
    exact plain_digit n
  intro c member
  simp only [difference, List.mem_append] at member
  rcases member with ((first | second) | third) | fourth
  · exact number _ c first
  · exact number _ c second
  · exact number _ c third
  · exact number _ c fourth

/-- Segments are parted by line breaks or by a comma. -/
theorem plain_lead {n : Nat} {c : Char}
    (h : c ∈ if (List.replicate n ';').isEmpty then [','] else List.replicate n ';') :
    Plain c := by
  split at h
  · rw [List.mem_singleton.mp h]
    rfl
  · rw [List.eq_of_mem_replicate h]
    rfl

theorem plain_mappingsAfter (previous : Segment) (segments : List Segment) :
    ∀ c ∈ mappingsAfter previous segments, Plain c := by
  induction segments generalizing previous with
  | nil => exact fun c member => absurd member List.not_mem_nil
  | cons s rest ih =>
    intro c member
    rw [mappingsAfter] at member
    split at member
    · exact ih previous c member
    · dsimp only at member
      rw [List.mem_append, List.mem_append] at member
      rcases member with (lead | own) | others
      · exact plain_lead lead
      · exact plain_difference _ _ _ c own
      · exact ih s c others

theorem plain_mappings (segments : List Segment) : ∀ c ∈ mappings segments, Plain c := by
  cases segments with
  | nil => exact fun c member => absurd member List.not_mem_nil
  | cons s rest =>
    intro c member
    rw [mappings, List.mem_append, List.mem_append] at member
    rcases member with (breaks | own) | others
    · rw [List.eq_of_mem_replicate breaks]
      rfl
    · exact plain_difference _ _ _ c own
    · exact plain_mappingsAfter s rest c others

theorem quoted_of_plain {cs : List Char} (plain : ∀ c ∈ cs, Plain c) :
    Json.quoted (String.ofList cs) = "\"" ++ String.ofList cs ++ "\"" := by
  have same : cs.flatMap Json.escapeChar = cs := by
    induction cs with
    | nil => rfl
    | cons c rest ih =>
      rw [List.flatMap_cons, plain c List.mem_cons_self,
        ih fun d member => plain d (List.mem_cons_of_mem c member)]
      rfl
  rw [Json.quoted, String.toList_ofList, same]
  rw [← String.toList_inj]
  simp

/-- What a map says, as a value. -/
def value (sources : List String) (mappings : String) : Json.Value :=
  .object [("version", .number 3), ("sources", .list (sources.map .text)), ("names", .list []),
    ("mappings", .text mappings)]

theorem ofItems_texts (texts : List String) :
    Json.Value.compact.ofItems (texts.map .text) = texts.map Json.quoted := by
  induction texts with
  | nil => rfl
  | cons s rest ih =>
    rw [List.map_cons, Json.Value.compact.ofItems, ih, Json.Value.compact]
    rfl

theorem compact_value (sources : List String) (mappings : String) :
    (value sources mappings).compact =
      "\x7b\"version\":3,\"sources\":[" ++ ",".intercalate (sources.map Json.quoted) ++
        "],\"names\":[],\"mappings\":" ++ Json.quoted mappings ++ "\x7d" := by
  have version : Json.quoted "version" = "\"version\"" := by decide +kernel
  have listed : Json.quoted "sources" = "\"sources\"" := by decide +kernel
  have names : Json.quoted "names" = "\"names\"" := by decide +kernel
  have mapped : Json.quoted "mappings" = "\"mappings\"" := by decide +kernel
  have three : toString 3 = "3" := by decide +kernel
  rw [value]
  simp only [Json.Value.compact, Json.Value.compact.ofMembers, Json.Value.compact.ofItems,
    ofItems_texts, version, listed, names, mapped, three]
  simp only [← String.toList_inj, String.toList_append, String.toList_intercalate, List.map_cons,
    List.map_nil, List.intercalate_cons_cons, List.intercalate_singleton, List.intercalate_nil]
  simp

/-- The text of a map is the value that it says, on one line. -/
theorem json_eq (file : String) (segments : List Segment) :
    json file segments =
      (value (if segments.isEmpty then [] else [file])
        (String.ofList (mappings segments))).compact := by
  have sources : ",".intercalate ((if segments.isEmpty then [] else [file]).map Json.quoted) =
      if segments.isEmpty then "" else Json.quoted file := by
    cases segments.isEmpty with
    | true => simp
    | false => simp
  have written := quoted_of_plain (plain_mappings segments)
  rw [compact_value, sources, written]
  unfold json
  simp only [← String.toList_inj, String.toList_append]
  simp

end SourceMap

namespace Script

/-- A text with slashes for backslashes. -/
def slashed (text : String) : String :=
  String.ofList (text.toList.map fun c => if c = '\\' then '/' else c)

/-- How a map names a file. Where the components of the root are those that the file begins with, the
name is the stretch of the path that has the other components, and else it is the whole path; only
the separators may differ. -/
def NamesSource (root file : Path) (name : String) : Prop :=
  ∃ text, name = slashed text ∧
    (root.components <+: file.components →
      root.components ++ (Path.mk text).components = file.components ∧
        text.toList <:+: file.text.toList) ∧
    (¬ root.components <+: file.components → text = file.text)

theorem namesSource_sourceName (file root : Path) :
    NamesSource root file (sourceName file root) := by
  cases below : file.below? root with
  | some text =>
    refine ⟨text, ?_, fun _ => Path.below?_eq_some below, fun apart => ?_⟩
    · rw [sourceName, below]
      rfl
    · rw [Path.below?_eq_none_iff.mpr apart] at below
      cases below
  | none =>
    refine ⟨file.text, ?_, fun led => ?_, fun _ => rfl⟩
    · rw [sourceName, below]
      rfl
    · exact absurd led (Path.below?_eq_none_iff.mp below)

/-- A directory whose name only begins alike is not the one above. -/
example : sourceName ⟨"/app2/x.ts"⟩ ⟨"/app"⟩ = "/app2/x.ts" ∧
    sourceName ⟨"/app//./a\\x.ts"⟩ ⟨"/app/"⟩ = "a/x.ts" := by
  decide +kernel

end Script

namespace Routes

/-- What a text is followed by: the map in base 64, in a comment of its own line. -/
theorem print_withMap (f : RoutesFile) (root : Path) (m : Module) :
    ∃ segments, f.print root true m =
      SourceMap.attach (f.print root false m) (sourceName f.path root) segments := by
  refine ⟨segments f.text (Printer.pen true m m.comments).marks, ?_⟩
  simp only [RoutesFile.print, Module.printWithMap, Module.print, if_true, Bool.false_eq_true,
    if_false, Printer.text_pen true m m.comments]

/-- With a map and without, compiling fails alike, or the one text is the other with a map. -/
theorem compile_withMap_cases (p : Project) (f : RoutesFile) :
    (∃ halt, (compile p f false).1 = .error halt ∧ (compile p f true).1 = .error halt) ∨
      ∃ text segments, (compile p f false).1 = .ok text ∧
        (compile p f true).1 = .ok (SourceMap.attach text (sourceName f.path p.root) segments) := by
  rw [compile_eq, compile_eq]
  cases f.read with
  | error halt => exact Or.inl ⟨halt, rfl, rfl⟩
  | ok m =>
    simp only [bind, Except.bind]
    cases (Setting.mk p f).modulePlan m.tree with
    | error halt => exact Or.inl ⟨halt, rfl, rfl⟩
    | ok plan =>
      obtain ⟨segments, printed⟩ := print_withMap f p.root { m with tree := plan.carryOut m.tree }
      exact Or.inr ⟨_, segments, rfl, congrArg Except.ok printed⟩

/-- Asking for a map changes nothing but what follows the text. If there is no text, then the error
is the same. If there is one, then a line with the map follows it, in base 64 that is read back as
the JSON that was written; and every source that it names is the routes file, by its path below the
root of the project if that is above it, component by component. -/
theorem compile_withMap (p : Project) (f : RoutesFile) :
    match (compile p f false).1 with
    | .error halt => (compile p f true).1 = .error halt
    | .ok text => ∃ sources mappings,
        let json := (SourceMap.value sources mappings).compact.toUTF8.toList
        let encoded := Text.Base64.encode json
        (compile p f true).1 = .ok ((if text.endsWith "\n" then text else text ++ "\n") ++
          "//# sourceMappingURL=data:application/json;base64," ++ String.ofList encoded ++ "\n") ∧
        Text.Base64.decode encoded = some json ∧
        ∀ name ∈ sources, NamesSource p.root f.path name := by
  rcases compile_withMap_cases p f with ⟨halt, silent, mapped⟩ | ⟨text, segments, silent, mapped⟩
  · rw [silent, mapped]
  · rw [silent, mapped]
    refine ⟨if segments.isEmpty then [] else [sourceName f.path p.root],
      String.ofList (SourceMap.mappings segments), ?_, Text.Base64.decode_encode _, ?_⟩
    · rw [SourceMap.attach, SourceMap.json_eq]
    · intro name member
      have own : name = sourceName f.path p.root := by
        split at member
        · exact absurd member List.not_mem_nil
        · exact List.mem_singleton.mp member
      rw [own]
      exact namesSource_sourceName f.path p.root

end Routes

end RouteManifest
