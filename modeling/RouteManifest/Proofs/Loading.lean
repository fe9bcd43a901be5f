import RouteManifest.Loader
import RouteManifest.Proofs.Paths
import RouteManifest.Proofs.Searching

/-!
# What a bundler receives

The loader leaves every file but the routes file to others, and answers for that one with the
compiled text or with one diagnostic. What the diagnostic says is told by the kind of the error:
where the fault is in the user's code it has a location, and it has a detail where something else
led to the error. The record of an answer has the fields of one of the two and tells all of it.
-/

namespace RouteManifest

/-! ## Texts that name the same file -/

namespace Path

/-- Doubled and trailing separators are nothing that a path is made of. -/
theorem components_doubled (front back : String) :
    (Path.mk (front ++ "//" ++ back ++ "/")).components =
      (Path.mk (front ++ "/" ++ back)).components := by
  have doubled : (Path.mk (front ++ "//" ++ back ++ "/")).text.toList =
      front.toList ++ '/' :: ('/' :: back.toList ++ ['/']) := by
    simp
  have single : (Path.mk (front ++ "/" ++ back)).text.toList =
      front.toList ++ '/' :: back.toList := by
    simp
  have absolute : (Path.mk (front ++ "//" ++ back ++ "/")).isAbsolute =
      (Path.mk (front ++ "/" ++ back)).isAbsolute := by
    by_cases empty : front = ""
    · subst empty
      unfold isAbsolute
      rw [doubled, single]
      rfl
    · exact (isAbsolute_of_append (p := ⟨front⟩) empty doubled).trans
        (isAbsolute_of_append (p := ⟨front⟩) empty single).symm
  have behind : pieces ('/' :: back.toList ++ ['/']) = [] :: (pieces back.toList ++ [[]]) := by
    rw [List.cons_append, pieces_cons, if_pos rfl, pieces_append]
    rfl
  have steps : stepsOf false (pieces ('/' :: back.toList ++ ['/'])) =
      stepsOf false (pieces back.toList) := by
    have trailing : ∀ leading, stepsOf leading [[]] = [] := fun _ => rfl
    have leading : ∀ ps, stepsOf false ([] :: ps) = stepsOf false ps := fun _ => rfl
    rw [behind, leading, stepsOf_append, trailing, List.append_nil]
  rw [components_of_split doubled, components_of_split single, absolute, steps]

end Path

/-! ## Reports -/

/-- Texts stand in a text, one behind another. -/
inductive Holds : List String → List Char → Prop
  | nil {text : List Char} : Holds [] text
  | cons {t : String} {rest : List String} {before behind : List Char}
      (others : Holds rest behind) : Holds (t :: rest) (before ++ t.toList ++ behind)

namespace Holds

variable {ts us : List String} {a b : List Char}

theorem before (front : List Char) (h : Holds ts a) : Holds ts (front ++ a) := by
  cases h with
  | nil => exact .nil
  | cons others =>
    simp only [← List.append_assoc]
    exact .cons others

theorem append (first : Holds ts a) (second : Holds us b) : Holds (ts ++ us) (a ++ b) := by
  induction first with
  | nil => exact second.before _
  | cons others ih =>
    rw [List.cons_append, List.append_assoc]
    exact .cons ih

theorem self (t : String) : Holds [t] t.toList := by
  have whole : Holds [t] ([] ++ t.toList ++ []) := .cons .nil
  simpa using whole

theorem intercalate (separator : String) (parts : List String) :
    Holds parts (separator.intercalate parts).toList := by
  induction parts with
  | nil => exact .nil
  | cons first rest ih =>
    by_cases last : rest = []
    · subst last
      exact self first
    · rw [String.intercalate_cons_of_ne_nil last, String.toList_append, String.toList_append,
        List.append_assoc]
      exact (self first).append (ih.before separator.toList)

end Holds

namespace Diagnostic

/-- The lines of a text. -/
def lines (text : String) : List String := text.splitOn "\n"

theorem holds_causeLines (lead cause : String) :
    Holds (lines cause) (causeLines lead cause).toList := by
  unfold causeLines
  rw [String.toList_append]
  exact (Holds.intercalate _ (lines cause)).before lead.toList

theorem holds_numberedCauses (n : Nat) (causes : List String) :
    Holds (causes.flatMap lines) (numberedCauses n causes).toList := by
  induction causes generalizing n with
  | nil => exact .nil
  | cons cause rest ih =>
    rw [numberedCauses, String.toList_append, String.toList_append, List.flatMap_cons]
    exact ((holds_causeLines (numbered n) cause).before "\n".toList).append (ih (n + 1))

/-- A report holds its summary and every line of every cause, in order. -/
theorem holds_report (summary : String) (causes : List String) :
    Holds (summary :: causes.flatMap lines) (report summary causes).toList := by
  have led {rest : List String} {behind : List Char} (others : Holds rest behind) :
      Holds (summary :: rest) (summary.toList ++ behind) :=
    (Holds.self summary).append others
  match causes with
  | [] => exact Holds.self summary
  | [cause] =>
    rw [report, String.toList_append, String.toList_append, List.append_assoc,
      List.flatMap_singleton]
    exact led ((holds_causeLines "    " cause).before _)
  | first :: second :: rest =>
    rw [report, String.toList_append, String.toList_append, List.append_assoc]
    · exact led ((holds_numberedCauses 0 (first :: second :: rest)).before _)
    all_goals simp

/-- What a diagnostic says about an error. Every error but an internal one has a location, and a
detail tells only of what is not in the file itself: the cause in another file, or the causes of an
internal error. -/
structure Describes (d : Diagnostic) (e : CompileError) : Prop where
  text : d.text = e.message
  location : d.location? = e.location?
  located : d.location? = none ↔ ∃ summary causes, e = .internal summary causes
  detailed : d.detail?.isSome = true ↔
    (∃ location specifier cause, e = .extraction location specifier cause) ∨
      ∃ summary causes, e = .internal summary causes
  cause : ∀ location specifier cause, e = .extraction location specifier cause →
    d.detail? = some cause.message
  place : ∀ location specifier place message,
    e = .extraction location specifier (.malformed place message) →
      d.detail? = some (place.file ++ ":" ++ toString (place.line + 1) ++ ":" ++
        toString (place.column + 1) ++ ": " ++ message)
  chain : ∀ summary causes, e = .internal summary causes →
    ∃ detail, d.detail? = some detail ∧ Holds (summary :: causes.flatMap lines) detail.toList

/-- The place of a fault in a route module is told from one. -/
theorem message_malformed (place : Location) (message : String) :
    (ExtractError.malformed place message).message =
      place.file ++ ":" ++ toString (place.line + 1) ++ ":" ++ toString (place.column + 1) ++
        ": " ++ message :=
  rfl

theorem describes_ofError (e : CompileError) : (ofError e).Describes e := by
  cases e with
  | extraction location specifier cause =>
    refine ⟨rfl, rfl, by simp [ofError, CompileError.isKnown, CompileError.location?],
      by simp [ofError, CompileError.isKnown, CompileError.cause?], ?_, ?_, ?_⟩
    · rintro _ _ _ same
      cases same
      rfl
    · rintro _ _ _ _ same
      cases same
      exact congrArg some (message_malformed _ _)
    · exact fun _ _ same => (nomatch same)
  | internal summary causes =>
    refine ⟨rfl, rfl, by simp [ofError, CompileError.isKnown],
      by simp [ofError, CompileError.isKnown], ?_, ?_, ?_⟩
    · exact fun _ _ _ same => (nomatch same)
    · exact fun _ _ _ _ same => (nomatch same)
    · rintro _ _ same
      cases same
      exact ⟨_, rfl, holds_report summary causes⟩
  | _ =>
    exact ⟨rfl, rfl, by simp [ofError, CompileError.isKnown, CompileError.location?],
      by simp [ofError, CompileError.isKnown, CompileError.cause?], fun _ _ _ same => (nomatch same),
      fun _ _ _ _ same => (nomatch same), fun _ _ same => (nomatch same)⟩

end Diagnostic

/-! ## Records -/

/-- The keys of an object, in order. -/
def Json.Value.keys : Json.Value → List String
  | .object members => members.map (·.1)
  | _ => []

theorem Diagnostic.keys_json (d : Diagnostic) :
    d.json.keys = "text" :: ((if d.detail?.isSome then ["detail"] else []) ++
      if d.location?.isSome then ["location"] else []) := by
  obtain ⟨text, detail?, location?⟩ := d
  cases detail? <;> cases location? <;> rfl

/-- The location that a record tells. -/
def Location.ofJson? : Json.Value → Option Location
  | .object [("file", .text file), ("line", .number line), ("column", .number column)] =>
    some ⟨file, line, column⟩
  | _ => none

/-- The diagnostic that a record tells. -/
def Diagnostic.ofJson? : Json.Value → Option Diagnostic
  | .object [("text", .text text)] => some ⟨text, none, none⟩
  | .object [("text", .text text), ("detail", .text detail)] => some ⟨text, some detail, none⟩
  | .object [("text", .text text), ("location", place)] =>
    (Location.ofJson? place).map fun l => ⟨text, none, some l⟩
  | .object [("text", .text text), ("detail", .text detail), ("location", place)] =>
    (Location.ofJson? place).map fun l => ⟨text, some detail, some l⟩
  | _ => none

theorem Diagnostic.ofJson?_json (d : Diagnostic) : ofJson? d.json = some d := by
  obtain ⟨text, detail?, location?⟩ := d
  cases detail? with
  | none => cases location? <;> rfl
  | some detail => cases location? <;> rfl

namespace LoadResult

theorem keys_json (r : LoadResult) :
    r.json.keys = if r.isError then ["errors"] else ["contents", "loader", "resolveDir"] := by
  cases r <;> rfl

/-- The answer that a record tells. -/
def ofJson? : Json.Value → Option LoadResult
  | .object [("contents", .text contents), ("loader", .text loader),
      ("resolveDir", .text directory)] => some (.loaded contents loader directory)
  | .object [("errors", .list errors)] => (errors.mapM Diagnostic.ofJson?).map .failed
  | _ => none

/-- A record tells all of the answer that it stands for. -/
theorem ofJson?_json (r : LoadResult) : ofJson? r.json = some r := by
  cases r with
  | loaded contents loader directory => rfl
  | failed errors =>
    have items : (errors.map Diagnostic.json).mapM Diagnostic.ofJson? = some errors := by
      induction errors with
      | nil => rfl
      | cons d rest ih =>
        rw [List.map_cons, List.mapM_cons, Diagnostic.ofJson?_json, ih]
        rfl
    rw [json, ofJson?, items]
    rfl

end LoadResult

/-! ## Answers -/

namespace Loader

variable (l : Loader) (file : Path)

/-- The answer for a text goes by what compiling it comes to. -/
theorem transform_fst (text : String) :
    (l.transform file text).1 =
      match (compile l.project (.ofText file text) l.withMap).1 with
      | .ok contents =>
        .loaded contents (file.extension?.getD "js") ((file.parent?.map (·.text)).getD "")
      | .error (.error e) => .failed [.ofError e]
      | .error (.breakdown message) =>
        unexpected "internal error while transforming routes" message := by
  unfold transform
  rcases compile l.project (.ofText file text) l.withMap with ⟨(e | message) | contents, journal⟩
  · rfl
  · rfl
  · rfl

theorem transform_eq_loaded_iff {text contents loader directory : String} :
    (l.transform file text).1 = .loaded contents loader directory ↔
      (compile l.project (.ofText file text) l.withMap).1 = .ok contents ∧
        loader = file.extension?.getD "js" ∧ directory = (file.parent?.map (·.text)).getD "" := by
  rw [transform_fst]
  rcases (compile l.project (.ofText file text) l.withMap).1 with (e | message) | own
  · simp
  · simp [unexpected]
  · simp [eq_comm]

theorem transform_eq_failed_iff {text : String} {errors : List Diagnostic} :
    (l.transform file text).1 = .failed errors ↔ ∃ d, errors = [d] ∧
      ((∃ e, (compile l.project (.ofText file text) l.withMap).1 = .error (.error e) ∧
          d = .ofError e) ∨
        ∃ message, (compile l.project (.ofText file text) l.withMap).1 =
            .error (.breakdown message) ∧
          d = ⟨"internal error while transforming routes", some message, none⟩) := by
  rw [transform_fst]
  rcases (compile l.project (.ofText file text) l.withMap).1 with (e | message) | own
  · simp [eq_comm]
  · simp [unexpected, eq_comm]
  · simp

theorem load?_eq_none_iff : l.load? file = none ↔ file.components ≠ l.routes.components := by
  unfold load? Path.same
  split
  · rename_i same
    simp only [decide_eq_true_eq] at same
    split <;> simp [same]
  · rename_i apart
    simpa using apart

/-- For the routes file the answer goes by its text, or says that there is none. -/
theorem load?_eq_some_iff {answer : LoadResult × Journal} :
    l.load? file = some answer ↔ file.components = l.routes.components ∧
      ((∃ text, l.project.files.readText file = .ok text ∧ answer = l.transform file text) ∨
        ∃ e, l.project.files.readText file = .error e ∧
          answer = (.failed [⟨"failed to read " ++ file.text,
            some (Diagnostic.report ("failed to read " ++ file.text) [e.message]), none⟩], [])) := by
  unfold load? Path.same
  split
  · rename_i same
    simp only [decide_eq_true_eq] at same
    cases l.project.files.readText file with
    | ok text => simp [same, eq_comm]
    | error e =>
      have summary : s!"failed to read {file.text}" = "failed to read " ++ file.text := rfl
      simp [same, summary, unexpected, eq_comm]
  · rename_i apart
    simp only [decide_eq_true_eq] at apart
    simp [apart]

/-- What a bundler can rely on. Only the routes file is answered for, under every text that has its
components. Its text is compiled, or a diagnostic without a location says why it cannot be read.
Compiled text comes back as it is, and every failure as one diagnostic that describes it; if the
program breaks down, a detail says where. The record has the fields of the one or of the other,
those of a diagnostic only where there is something to say, and the answer can be read from it. -/
theorem load?_contract :
    ((l.load? file = none ↔ file.components ≠ l.routes.components) ∧
      ∀ front back : String, (Path.mk (front ++ "//" ++ back ++ "/")).components =
        (Path.mk (front ++ "/" ++ back)).components) ∧
    (∀ answer, l.load? file = some answer ↔ file.components = l.routes.components ∧
      ((∃ text, l.project.files.readText file = .ok text ∧ answer = l.transform file text) ∨
        ∃ e, l.project.files.readText file = .error e ∧
          answer = (.failed [⟨"failed to read " ++ file.text,
            some (Diagnostic.report ("failed to read " ++ file.text) [e.message]), none⟩], []))) ∧
    (∀ text, l.project.files.readText file = .ok text ↔
      ∃ place, l.project.files.locate file = .ok (place, .file text.toUTF8)) ∧
    (∀ text contents loader directory,
      (l.transform file text).1 = .loaded contents loader directory ↔
        (compile l.project (.ofText file text) l.withMap).1 = .ok contents ∧
          loader = file.extension?.getD "js" ∧ directory = (file.parent?.map (·.text)).getD "") ∧
    (∀ text errors, (l.transform file text).1 = .failed errors ↔ ∃ d, errors = [d] ∧
      ((∃ e, (compile l.project (.ofText file text) l.withMap).1 = .error (.error e) ∧
          d = .ofError e) ∨
        ∃ message, (compile l.project (.ofText file text) l.withMap).1 =
            .error (.breakdown message) ∧
          d = ⟨"internal error while transforming routes", some message, none⟩)) ∧
    (∀ e, (Diagnostic.ofError e).Describes e) ∧
    (∀ r : LoadResult,
      r.json.keys = if r.isError then ["errors"] else ["contents", "loader", "resolveDir"]) ∧
    (∀ d : Diagnostic, d.json.keys = "text" :: ((if d.detail?.isSome then ["detail"] else []) ++
      if d.location?.isSome then ["location"] else [])) ∧
    ∀ r : LoadResult, LoadResult.ofJson? r.json = some r := by
  refine ⟨⟨load?_eq_none_iff l file, Path.components_doubled⟩, ?_, ?_, ?_, ?_,
    Diagnostic.describes_ofError, LoadResult.keys_json, Diagnostic.keys_json,
    LoadResult.ofJson?_json⟩
  · exact fun answer => load?_eq_some_iff l file
  · exact fun text => FileTree.readText_eq_ok_iff
  · exact fun text contents loader directory => transform_eq_loaded_iff l file
  · exact fun text errors => transform_eq_failed_iff l file

end Loader

end RouteManifest
