import RouteManifest.Proofs.Endings

/-!
# The search for a file

The file of a module is the first that is there of one list of paths, written down by the text of
the module's normal path. Stages that end the search early, and the look at the directory before its
index files, change nothing: what lies below a path can be found only if the path is a directory.
-/

namespace RouteManifest

namespace FileTree

variable {t : FileTree}

theorem isFile_iff {q : Path} :
    t.isFile q = true ↔ ∃ place, (∃ bytes, t.locate q = .ok (place, .file bytes)) ∨
      ∃ reason, t.locate q = .ok (place, .unreadable reason) := by
  unfold FileTree.isFile
  rcases t.locate q with e | ⟨place, entry⟩
  · simp
  · cases entry <;> simp

/-- The text of a file is the one whose UTF-8 form its bytes are. -/
theorem readText_eq_ok_iff {q : Path} {text : String} :
    t.readText q = .ok text ↔ ∃ place, t.locate q = .ok (place, .file text.toUTF8) := by
  have decoded (bytes : ByteArray) : String.fromUTF8? bytes = some text ↔ bytes = text.toUTF8 := by
    unfold String.fromUTF8?
    constructor
    · intro h
      split at h
      · cases h
        rfl
      · cases h
    · rintro rfl
      exact dif_pos text.isValidUTF8
  unfold readText
  rcases t.locate q with e | ⟨place, entry⟩
  · simp
  · cases entry with
    | file bytes =>
      simp only [Except.ok.injEq, Prod.mk.injEq, Entry.file.injEq, exists_eq_left', ← decoded]
      cases String.fromUTF8? bytes with
      | none => simp
      | some other => simp
    | unreadable reason => simp
    | directory => simp
    | link target => simp

/-- Whoever goes on from a step stands in a directory. -/
theorem directory_of_walkFrom
    {follow : Place → List String → Except FileError (Place × Entry)}
    (kept : ∀ place front step back found, follow place (front ++ step :: back) = .ok found →
      ∃ there, follow place front = .ok (there, .directory))
    (place : Place) (front : List String) {step : String} {back : List String}
    {found : Place × Entry} (h : t.walkFrom follow place (front ++ step :: back) = .ok found) :
    ∃ there, t.walkFrom follow place front = .ok (there, .directory) := by
  induction front generalizing place with
  | nil =>
    rw [List.nil_append, walkFrom] at h
    cases here : t.entryAt? place with
    | none => simp [here] at h
    | some entry =>
      cases entry with
      | directory => exact ⟨place, by simp [walkFrom, here]⟩
      | file bytes => simp [here] at h
      | unreadable reason => simp [here] at h
      | link target => simp [here] at h
  | cons first rest ih =>
    rw [List.cons_append, walkFrom] at h
    rw [walkFrom]
    cases here : t.entryAt? place with
    | none => simp [here] at h
    | some entry =>
      cases entry with
      | file bytes => simp [here] at h
      | unreadable reason => simp [here] at h
      | link target => simp [here] at h
      | directory =>
        simp only [here] at h ⊢
        split
        · rename_i stays
          rw [if_pos stays] at h
          exact ih place h
        · rename_i moves
          rw [if_neg moves] at h
          split
          · rename_i back
            rw [if_pos back] at h
            exact ih place.dropLast h
          · rename_i onward
            rw [if_neg onward] at h
            cases next : t.entryAt? (place ++ [first]) with
            | none => simp [next] at h
            | some entry =>
              simp only [next] at h ⊢
              cases entry with
              | link target =>
                dsimp only at h ⊢
                rw [← List.append_assoc] at h
                exact kept _ _ _ _ _ h
              | file bytes => exact ih _ h
              | unreadable reason => exact ih _ h
              | directory => exact ih _ h

theorem directory_of_walk (hops : Nat) (place : Place) (front : List String) {step : String}
    {back : List String} {found : Place × Entry}
    (h : t.walk hops place (front ++ step :: back) = .ok found) :
    ∃ there, t.walk hops place front = .ok (there, .directory) := by
  induction hops generalizing place front step back found with
  | zero =>
    refine directory_of_walkFrom ?_ place front h
    intro _ _ _ _ _ stopped
    cases stopped
  | succ hops ih =>
    exact directory_of_walkFrom (fun place front _ _ _ there => ih place front there) place front h

/-- A path can be a file below another one only if that is a directory. -/
theorem isDirectory_of_isFile_below {p q : Path} {more : String} (some_text : p.text ≠ "")
    (below : q.text = p.text ++ "/" ++ more) (isFile : t.isFile q = true) :
    t.isDirectory p = true := by
  have text : q.text.toList = p.text.toList ++ '/' :: more.toList := by simp [below]
  have absolute : q.isAbsolute = p.isAbsolute := Path.isAbsolute_of_append some_text text
  have parted : (Path.pieces q.text.toList).map String.ofList =
      (Path.pieces p.text.toList).map String.ofList ++
        (Path.pieces more.toList).map String.ofList := by
    rw [text, Path.pieces_append, List.map_append]
  obtain ⟨found, located⟩ : ∃ found, t.locate q = .ok found := by
    obtain ⟨place, ⟨_, located⟩ | ⟨_, located⟩⟩ := isFile_iff.mp isFile
    · exact ⟨_, located⟩
    · exact ⟨_, located⟩
  unfold FileTree.isDirectory
  unfold locate at located ⊢
  split at located
  · cases located
  · split at located
    · cases located
    · rename_i clean
      have clean : ¬ p.text.toList.contains '\x00' = true := by
        intro dirty
        refine clean ?_
        simp only [text, List.contains_eq_mem, decide_eq_true_eq] at dirty ⊢
        exact List.mem_append_left _ dirty
      rw [if_neg some_text, if_neg clean]
      rw [absolute, parted] at located
      cases last : (Path.pieces more.toList).map String.ofList with
      | nil => exact absurd (List.map_eq_nil_iff.mp last) (Path.pieces_ne_nil _)
      | cons step back =>
        rw [last] at located
        obtain ⟨there, led⟩ := directory_of_walk _ _ _ located
        simp only [led]

theorem isDirectory_root (t : FileTree) : t.isDirectory ⟨"/"⟩ = true := by
  have steps : (Path.pieces (Path.mk "/").text.toList).map String.ofList = ["", ""] := by decide
  have some_text : (Path.mk "/").text ≠ "" := by decide
  have clean : ¬ (Path.mk "/").text.toList.contains '\x00' = true := by decide
  have absolute : (Path.mk "/").isAbsolute = true := rfl
  unfold FileTree.isDirectory locate
  rw [if_neg some_text, if_neg clean, steps, absolute]
  rfl

end FileTree

namespace Path

/-- The path of a compiled text without its ending. -/
def compiledStem? (b : Path) : Option Path := (b.beforeEnding? "js").or (b.beforeEnding? "jsx")

/-- The paths at which the file of a module is sought, the first before all others. -/
def sought (b : Path) : List Path :=
  b :: ["tsx", "ts", "jsx", "js", "mjs", "cjs"].map (fun e => b.append ("." ++ e)) ++
    b.compiledStem?.toList.flatMap (fun stem =>
      ["ts", "tsx"].map fun e => stem.append ("." ++ e)) ++
    ["tsx", "ts", "jsx", "js", "mjs", "cjs"].map fun e => b.join ⟨"index." ++ e⟩

end Path

namespace Project

theorem typedSources_eq {b : Path} (normal : b.Normal) :
    typedSources b =
      b.compiledStem?.toList.flatMap fun stem =>
        ["ts", "tsx"].map fun e => stem.append ("." ++ e) := by
  rcases normal.root_or_named with rfl | ⟨front, last, proper, name, rfl⟩
  · decide
  · have js (q : Path) : (Path.ofPlace (front ++ [last])).beforeEnding? "js" = some q ↔
        ∃ stem, Path.splitName last = (stem, some "js") ∧ q = .ofPlace (front ++ [stem]) :=
      Path.beforeEnding?_ofPlace name (by decide) (by decide)
    have jsx (q : Path) : (Path.ofPlace (front ++ [last])).beforeEnding? "jsx" = some q ↔
        ∃ stem, Path.splitName last = (stem, some "jsx") ∧ q = .ofPlace (front ++ [stem]) :=
      Path.beforeEnding?_ofPlace name (by decide) (by decide)
    have none_of {x : Option Path} (never : ∀ q, x ≠ some q) : x = none :=
      Option.eq_none_iff_forall_ne_some.mpr never
    rw [typedSources, Path.extension?_ofPlace proper name,
      Path.withoutExtension_ofPlace proper name, Path.compiledStem?]
    rcases split : Path.splitName last with ⟨stem, ending⟩
    simp only [split, Prod.mk.injEq] at js jsx
    by_cases compiled : ending = some "js"
    · rw [(js (.ofPlace (front ++ [stem]))).mpr ⟨stem, ⟨rfl, compiled⟩, rfl⟩, compiled]
      rfl
    · rw [none_of fun q found => compiled ((js q).mp found).choose_spec.1.2]
      by_cases compiled' : ending = some "jsx"
      · rw [(jsx (.ofPlace (front ++ [stem]))).mpr ⟨stem, ⟨rfl, compiled'⟩, rfl⟩, compiled']
        rfl
      · rw [none_of fun q found => compiled' ((jsx q).mp found).choose_spec.1.2]
        split
        · exact absurd ‹_› compiled
        · exact absurd ‹_› compiled'
        · rfl

/-- The extensions of modules can stand behind a dot. -/
theorem plain_of_mem_moduleExtensions :
    ∀ e ∈ moduleExtensions, e ≠ "" ∧ '/' ∉ e.toList := by
  decide

theorem indexFiles_eq {b : Path} (normal : b.Normal) :
    indexFiles b =
      ["tsx", "ts", "jsx", "js", "mjs", "cjs"].map fun e => b.join ⟨"index." ++ e⟩ := by
  obtain ⟨names, proper, rfl⟩ := Path.normal_iff.mp normal
  have index : Path.IsName "index" := by decide
  refine List.map_congr_left fun e member => ?_
  obtain ⟨some_text, plain⟩ := plain_of_mem_moduleExtensions e member
  have extended : Path.IsName ("index." ++ e) := index.extended some_text plain
  rw [Path.join_ofPlace proper index, Path.join_ofPlace proper extended, Path.append_ofPlace]
  rfl

theorem sought_eq_candidates {b : Path} (normal : b.Normal) : b.sought = candidates b := by
  rw [Path.sought, ← typedSources_eq normal, ← indexFiles_eq normal]
  rfl

/-- If a file has the path of an index file, its directory is a directory. -/
theorem isDirectory_of_isFile_index {files : FileTree} {b q : Path} (normal : b.Normal)
    (member : q ∈ indexFiles b) (isFile : files.isFile q = true) : files.isDirectory b = true := by
  rcases normal.root_or_named with rfl | ⟨front, last, proper, name, rfl⟩
  · exact files.isDirectory_root
  · obtain ⟨e, -, rfl⟩ := List.mem_map.mp member
    have index : Path.IsName "index" := by decide
    rw [Path.join_ofPlace (Path.proper_concat proper name) index, Path.append_ofPlace] at isFile
    have below : (Path.ofPlace (front ++ [last] ++ ["index" ++ ("." ++ e)])).text =
        (Path.ofPlace (front ++ [last])).text ++ "/" ++ ("index" ++ ("." ++ e)) := by
      rw [Path.text_ofPlace_concat, Path.before_concat]
    exact FileTree.isDirectory_of_isFile_below (Path.text_ofPlace_ne_empty _) below isFile

/-- The stages of the search come to one search. -/
theorem fileAt?_eq_find? (files : FileTree) {b : Path} (normal : b.Normal) :
    fileAt? files b = b.sought.find? files.isFile := by
  have index : (if files.isDirectory b then (indexFiles b).find? files.isFile else none) =
      (indexFiles b).find? files.isFile := by
    split
    · rfl
    · rename_i none_there
      symm
      rw [List.find?_eq_none]
      exact fun q member isFile => none_there (isDirectory_of_isFile_index normal member isFile)
  rw [sought_eq_candidates normal, candidates, List.find?_append, List.find?_append,
    List.find?_cons]
  simp only [fileAt?, index, withExtension?]
  cases files.isFile b with
  | true => rfl
  | false => simp [Option.or_assoc]

/-- A path that is tried goes on from the path of the module, or stands for a compiled text. -/
theorem text_of_mem_sought {b q : Path} (member : q ∈ b.sought) :
    (∃ more, q.text = b.text ++ more) ∨
      ∃ stem, ∃ compiled ∈ ["js", "jsx"], ∃ typed ∈ ["ts", "tsx"],
        b.text = stem ++ ("." ++ compiled) ∧ q.text = stem ++ ("." ++ typed) := by
  rw [Path.sought, List.mem_append, List.mem_append] at member
  rcases member with (extended | typed) | index
  · left
    rcases List.mem_cons.mp extended with rfl | longer
    · exact ⟨"", by simp⟩
    · obtain ⟨e, -, rfl⟩ := List.mem_map.mp longer
      exact ⟨"." ++ e, rfl⟩
  · right
    obtain ⟨stem, told, member⟩ := List.mem_flatMap.mp typed
    obtain ⟨compiled, known, text⟩ : ∃ compiled ∈ ["js", "jsx"],
        b.text = stem.text ++ ("." ++ compiled) := by
      rw [Option.mem_toList, Path.compiledStem?, Option.or_eq_some_iff] at told
      rcases told with js | ⟨-, jsx⟩
      · exact ⟨"js", by simp, (Path.beforeEnding?_eq_some_iff.mp js).1⟩
      · exact ⟨"jsx", by simp, (Path.beforeEnding?_eq_some_iff.mp jsx).1⟩
    obtain ⟨e, listed, rfl⟩ := List.mem_map.mp member
    exact ⟨stem.text, compiled, known, e, listed, text, rfl⟩
  · left
    obtain ⟨e, -, rfl⟩ := List.mem_map.mp index
    have relative : (Path.mk ("index." ++ e)).isAbsolute = false := by
      simp [Path.isAbsolute]
    obtain ⟨more, text⟩ := Path.join_text b relative
    exact ⟨String.ofList more, by rw [← String.toList_inj, text]; simp⟩

/-- The file of a module is the first file among the paths at which it is sought, from its normal
form on, and there is none only if none of them is a file. -/
theorem moduleFile_eq_find? (files : FileTree) {root : Path} (normal : root.Normal)
    (module : Path) :
    (module.seenFrom root).Normal ∧ ∃ found : Option Path,
      (∀ ε : Type, (moduleFile ⟨files, root⟩ module : Except (Halt ε) (Option Path)) = .ok found) ∧
      found = (module.seenFrom root).sought.find? files.isFile ∧
      (found = none ↔ ∀ q ∈ (module.seenFrom root).sought, files.isFile q = false) ∧
      (files.isFile (module.seenFrom root) = true → found = some (module.seenFrom root)) ∧
      ∀ q, found = some q →
        (∃ place, (∃ bytes, files.locate q = .ok (place, .file bytes)) ∨
          ∃ reason, files.locate q = .ok (place, .unreadable reason)) ∧
        ((∃ more, q.text = (module.seenFrom root).text ++ more) ∨
          ∃ stem, ∃ compiled ∈ ["js", "jsx"], ∃ typed ∈ ["ts", "tsx"],
            (module.seenFrom root).text = stem ++ ("." ++ compiled) ∧
              q.text = stem ++ ("." ++ typed)) := by
  refine ⟨Path.normal_seenFrom module root, _, fun ε => ?_, rfl, ?_, fun exact_file => ?_, ?_⟩
  · unfold moduleFile absolute
    rw [normal.resolve?_seenFrom]
    exact congrArg Except.ok (fileAt?_eq_find? files (Path.normal_seenFrom module root))
  · simp [List.find?_eq_none]
  · rw [Path.sought]
    simp [exact_file]
  · intro q found
    exact ⟨FileTree.isFile_iff.mp (List.find?_some found),
      text_of_mem_sought (List.mem_of_find?_eq_some found)⟩

/-- Files of which the paths of a module that are tried first are a directory, a link to nothing and
another directory. -/
def crowdedFiles : FileTree :=
  ⟨[(["p"], .directory), (["p", "m.js"], .directory), (["p", "m.js.tsx"], .link "nowhere"),
    (["p", "m.ts"], .directory), (["p", "m.js", "index.mjs"], .file .empty)], []⟩

/-- The index file is found behind all that only has the name of a file. -/
theorem moduleFile_crowdedFiles :
    (Path.mk "/p").Normal ∧
      (moduleFile ⟨crowdedFiles, ⟨"/p"⟩⟩ ⟨"o/..//./m.js/"⟩ :
        Except (Halt ExtractError) (Option Path)) = .ok (some ⟨"/p/m.js/index.mjs"⟩) := by
  have normal : (Path.mk "/p").Normal := Or.inr (by decide)
  obtain ⟨-, found, told, first, -⟩ := moduleFile_eq_find? crowdedFiles normal ⟨"o/..//./m.js/"⟩
  have index : ((Path.mk "o/..//./m.js/").seenFrom ⟨"/p"⟩).sought.find? crowdedFiles.isFile =
      some ⟨"/p/m.js/index.mjs"⟩ := by
    decide +kernel
  exact ⟨normal, by rw [told, first, index]⟩

end Project

end RouteManifest
