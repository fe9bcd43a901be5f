import RouteManifest.Proofs.Answers
import RouteManifest.Proofs.Relocation

/-!
# Where specifiers lead

A specifier leads from the directory of the routes file to a module by names alone: a `.` is no
step, a `..` takes the last name back and nothing from the root, whatever is there in the file tree.
The path that comes of it is the only one that is written so, and it leads to itself from
everywhere, so that modules are the same for a cache if their paths read the same. A routes file
that is the root itself has no directory, and its specifiers are seen from the project.
-/

namespace RouteManifest

namespace Path

/-- One step from a place that is given by its names from the root. -/
def onward (place : List String) : Component → List String
  | .root => []
  | .here => place
  | .up => place.dropLast
  | .name s => place ++ [s]

/-- The place to which components lead from the root. -/
def placeOf (components : List Component) : List String := components.foldl onward []

/-- The absolute path of a place. -/
def ofPlace (names : List String) : Path := ⟨"/" ++ String.intercalate "/" names⟩

/-- Going from step to step on a stack leads where the names lead. -/
theorem foldl_step_eq (place : List String) {components : List Component}
    (rootless : Component.root ∉ components) :
    components.foldl step ((place.map .name).reverse ++ [.root]) =
      ((components.foldl onward place).map .name).reverse ++ [.root] := by
  induction components generalizing place with
  | nil => rfl
  | cons c rest ih =>
    rw [List.mem_cons, not_or] at rootless
    have one : step ((place.map .name).reverse ++ [.root]) c =
        ((onward place c).map .name).reverse ++ [.root] := by
      cases c with
      | root => exact absurd rfl rootless.1
      | here => rfl
      | name s => simp [step, onward]
      | up =>
        rcases List.eq_nil_or_concat place with rfl | ⟨front, last, rfl⟩
        · rfl
        · simp [step, onward]
    rw [List.foldl_cons, List.foldl_cons, one, ih _ rootless.2]

/-- What is reached from a place is the path of the place to which the names lead. -/
theorem reached?_eq (place : List String) {components : List Component}
    (rootless : Component.root ∉ components) :
    reached? ((place.map .name).reverse ++ [.root]) components =
      some (ofPlace (components.foldl onward place)) := by
  rw [reached?, foldl_step_eq place rootless, List.reverse_append, List.reverse_reverse]
  simp only [List.reverse_singleton, List.singleton_append, ofComponents?, List.map_map]
  have texts : List.map (Component.text ∘ Component.name) = List.map id := rfl
  rw [texts, List.map_id]
  rfl

theorem components_of_absolute {p : Path} (absolute : p.isAbsolute = true) :
    p.components = .root :: p.further := by
  rw [components_eq, absolute]
  rfl

theorem root_not_mem_of_relative {p : Path} (relative : p.isAbsolute = false) :
    Component.root ∉ p.components := by
  rw [components_eq, relative]
  exact root_not_mem_stepsOf _ _

/-- Behind other components a leading `.` changes nothing. -/
theorem foldl_onward_of_relative {p : Path} (relative : p.isAbsolute = false)
    (place : List String) : p.components.foldl onward place = p.further.foldl onward place := by
  rcases components_of_relative relative with same | led
  · rw [same]
  · rw [led]
    rfl

/-! ## Places have one path -/

/-- A name that can stand between separators. -/
def IsName (s : String) : Prop := s ≠ "" ∧ s ≠ "." ∧ s ≠ ".." ∧ '/' ∉ s.toList

instance (s : String) : Decidable (IsName s) :=
  inferInstanceAs (Decidable (s ≠ "" ∧ s ≠ "." ∧ s ≠ ".." ∧ '/' ∉ s.toList))

theorem isName_of_pieceComponent {leading : Bool} {piece : List Char} {s : String}
    (plain : '/' ∉ piece) (h : pieceComponent leading piece = some (.name s)) : IsName s := by
  unfold pieceComponent at h
  split at h
  · cases h
  · rename_i some_text
    split at h
    · split at h
      · cases h
      · cases h
    · rename_i not_here
      split at h
      · cases h
      · rename_i not_up
        cases h
        have texts {t : String} (same : String.ofList piece = t) : piece = t.toList := by
          rw [← same, String.toList_ofList]
        exact ⟨fun same => some_text (texts same), fun same => not_here (texts same),
          fun same => not_up (texts same), by simpa using plain⟩

theorem isName_of_mem_stepsOf {leading : Bool} {ps : List (List Char)} {s : String}
    (plain : ∀ piece ∈ ps, '/' ∉ piece) (h : .name s ∈ stepsOf leading ps) : IsName s := by
  induction ps generalizing leading with
  | nil => cases h
  | cons piece rest ih =>
    rw [stepsOf, List.mem_append, Option.mem_toList] at h
    rcases h with own | later
    · exact isName_of_pieceComponent (plain piece List.mem_cons_self) own
    · exact ih (fun p member => plain p (List.mem_cons_of_mem piece member)) later

/-- The names in a path can stand between separators. -/
theorem isName_of_mem_components {p : Path} {s : String} (h : .name s ∈ p.components) :
    IsName s := by
  rw [components_eq, List.mem_append] at h
  rcases h with root | inside
  · split at root
    · simp at root
    · cases root
  · exact isName_of_mem_stepsOf (fun _ => not_mem_of_mem_pieces) inside

/-- Only names that are among the components come about on the way. -/
theorem isName_of_mem_foldl_onward {components : List Component}
    (names : ∀ s, .name s ∈ components → IsName s) {place : List String}
    (own : ∀ s ∈ place, IsName s) : ∀ s ∈ components.foldl onward place, IsName s := by
  induction components generalizing place with
  | nil => exact own
  | cons c rest ih =>
    refine ih (fun s member => names s (List.mem_cons_of_mem c member)) ?_
    intro s member
    cases c with
    | root => cases member
    | here => exact own s member
    | up => exact own s (List.mem_of_mem_dropLast member)
    | name t =>
      rcases List.mem_append.mp member with before | last
      · exact own s before
      · rw [List.mem_singleton.mp last]
        exact names t List.mem_cons_self

theorem pieces_ofPlace {names : List String} (proper : ∀ s ∈ names, IsName s)
    (some_name : names ≠ []) :
    pieces (ofPlace names).text.toList = [] :: names.map String.toList := by
  have text : (ofPlace names).text.toList =
      '/' :: List.intercalate ['/'] (names.map String.toList) := by
    simp [ofPlace, String.toList_intercalate]
  rw [text, pieces_cons, if_pos rfl, pieces_intercalate ?_ (by simpa using some_name)]
  intro piece member
  obtain ⟨s, inside, rfl⟩ := List.mem_map.mp member
  exact (proper s inside).2.2.2

/-- The path of a place has the separators and the names that it must have, and nothing else. -/
theorem normal_ofPlace {names : List String} (proper : ∀ s ∈ names, IsName s) :
    (ofPlace names).Normal := by
  cases names with
  | nil => exact Or.inl (by decide)
  | cons first rest =>
    right
    have parted := pieces_ofPlace proper (List.cons_ne_nil first rest)
    refine ⟨isAbsolute_iff.mpr ⟨_, _, parted⟩, ?_⟩
    rw [parted, List.tail_cons]
    intro piece member
    obtain ⟨s, inside, rfl⟩ := List.mem_map.mp member
    obtain ⟨some_text, not_here, not_up, -⟩ := proper s inside
    refine ⟨?_, ?_, ?_⟩
    · exact fun empty => some_text (String.toList_eq_nil_iff.mp empty)
    · exact fun here => not_here (String.toList_inj.mp here)
    · exact fun up => not_up (String.toList_inj.mp up)

/-- Wherever components lead, the path of the place is normal. -/
theorem normal_placeOf {components : List Component}
    (names : ∀ s, .name s ∈ components → IsName s) : (ofPlace (placeOf components)).Normal :=
  normal_ofPlace (isName_of_mem_foldl_onward names (List.forall_mem_nil _))

theorem placeOf_names (names : List String) :
    placeOf (.root :: names.map .name) = names := by
  have onto : ∀ place : List String, (names.map Component.name).foldl onward place =
      place ++ names := by
    induction names with
    | nil => simp
    | cons s rest ih => simp [onward, ih]
  exact onto []

/-- A normal path leads to itself, from wherever it is seen. -/
theorem Normal.resolve? {p : Path} (normal : p.Normal) (base : Path) :
    p.resolve? base = some p := by
  obtain ⟨names, steps, written⟩ := normal.components
  have absolute : p.isAbsolute = true := by
    rw [isAbsolute_iff_components, steps]
    rfl
  rw [resolve?_of_absolute absolute, reached?, steps, List.foldl_cons]
  have start : step [] .root = [.root] := rfl
  rw [start, foldl_step_names, List.reverse_append, List.reverse_reverse, ← written, steps]
  rfl

/-- Normal paths to the same place read the same. -/
theorem Normal.same_iff {p q : Path} (own : p.Normal) (other : q.Normal) :
    p.same q = true ↔ p.text = q.text := by
  obtain ⟨-, -, written⟩ := own.components
  obtain ⟨-, -, written'⟩ := other.components
  rw [same, decide_eq_true_eq]
  constructor
  · intro agree
    rw [agree, written'] at written
    exact congrArg Path.text (Option.some.inj written).symm
  · intro agree
    exact congrArg Path.components (congrArg Path.mk agree)

theorem components_directory_eq (p : Path) : p.directory.components = p.components.dropLast := by
  by_cases empty : p.numberedComponents = []
  · have above : p.directory = ⟨""⟩ := by
      rw [directory, parent?, empty, List.reverse_nil]
      rfl
    rw [above, components_eq_numbered p, empty]
    cases p.isAbsolute with
    | true => decide
    | false => decide
  · obtain ⟨dir, parent, components⟩ := parent?_eq_some empty
    rw [directory, parent]
    exact components

end Path

namespace Project

/-- The components by which a specifier is meant in a file: its own if it is absolute, or else those
behind the directory of the file, which is seen from the root of the project unless it is absolute
itself. -/
def meant (root importer specifier : Path) : List Component :=
  if specifier.isAbsolute then specifier.components
  else if importer.isAbsolute ∧ importer.components ≠ [.root] then
    importer.components.dropLast ++ specifier.components
  else root.components ++ importer.components.dropLast ++ specifier.components

/-- The path to which a specifier leads by names alone. -/
def destination (root importer specifier : Path) : Path :=
  .ofPlace (Path.placeOf (meant root importer specifier))

/-- Seen from a directory that is absolute, a path goes on from there. -/
theorem resolve?_of_absolute_directory (root : Path) {importer specifier : Path}
    (relative : specifier.isAbsolute = false)
    (above : importer.isAbsolute = true ∧ importer.components ≠ [.root]) :
    (importer.directory.join specifier).resolve? root =
      some (.ofPlace (Path.placeOf (importer.components.dropLast ++ specifier.components))) := by
  have own := Path.components_of_absolute above.1
  have some_further : importer.further ≠ [] := by
    intro none_left
    exact above.2 (by rw [own, none_left])
  have led : importer.directory.components = .root :: importer.further.dropLast := by
    rw [Path.components_directory_eq, own, List.dropLast_cons_of_ne_nil some_further]
  have some_text : importer.directory.text ≠ "" :=
    Path.text_ne_empty_of_components (by rw [led]; simp)
  have absolute : (importer.directory.join specifier).isAbsolute = true := by
    rw [Path.isAbsolute_join _ relative, Path.isAbsolute_iff_components, led]
    rfl
  have rootless : Component.root ∉ importer.further.dropLast ++ specifier.further := by
    rw [List.mem_append, not_or]
    exact ⟨fun inside => Path.root_not_mem_stepsOf _ _ (List.mem_of_mem_dropLast inside),
      Path.root_not_mem_stepsOf _ _⟩
  rw [Path.resolve?_of_absolute absolute, Path.components_join some_text relative, led,
    ← Path.components_directory_eq, led, Path.placeOf, List.foldl_append,
    Path.foldl_onward_of_relative relative, ← List.foldl_append]
  exact Path.reached?_eq [] rootless

/-- Seen from a directory that is not, it goes on from the project. -/
theorem resolve?_of_relative_directory {root importer specifier : Path} (normal : root.Normal)
    (relative : specifier.isAbsolute = false)
    (below : ¬ (importer.isAbsolute = true ∧ importer.components ≠ [.root])) :
    (importer.directory.join specifier).resolve? root =
      some (.ofPlace (Path.placeOf
        (root.components ++ importer.components.dropLast ++ specifier.components))) := by
  have beside : Component.root ∉ importer.components.dropLast := by
    cases absolute : importer.isAbsolute with
    | false =>
      exact fun inside => Path.root_not_mem_of_relative absolute (List.mem_of_mem_dropLast inside)
    | true =>
      have alone : importer.components = [.root] := by simpa [absolute] using below
      rw [alone]
      exact List.not_mem_nil
  have near : importer.directory.isAbsolute = false := by
    rw [← Bool.not_eq_true, Path.isAbsolute_iff_components, Path.components_directory_eq]
    exact fun first => beside (List.mem_of_mem_head? first)
  have joined : (importer.directory.join specifier).isAbsolute = false :=
    (Path.isAbsolute_join _ relative).trans near
  obtain ⟨names, start, -⟩ := normal.components
  have rootless : Component.root ∉ importer.components.dropLast ++ specifier.further := by
    rw [List.mem_append, not_or]
    exact ⟨beside, Path.root_not_mem_stepsOf _ _⟩
  have stack : root.components.reverse = (names.map .name).reverse ++ [.root] := by
    rw [start, List.reverse_cons]
  have led := Path.reached?_eq names rootless
  rw [Path.reached?, List.foldl_append] at led
  have project : root.components.foldl Path.onward [] = names := by
    rw [start]
    exact Path.placeOf_names names
  have placed : Path.placeOf (root.components ++ importer.components.dropLast ++
      specifier.components) =
        (importer.components.dropLast ++ specifier.further).foldl Path.onward names := by
    rw [Path.placeOf, List.append_assoc, List.foldl_append, project, List.foldl_append,
      Path.foldl_onward_of_relative relative, ← List.foldl_append]
  rw [Path.resolve?_of_relative normal joined, Path.reached?, Path.foldl_step_join near relative,
    Path.components_directory_eq, stack, led, placed]

/-- The module that a specifier means is where it leads by names alone. -/
theorem routeModule_eq_destination {ε : Type} {root : Path} (normal : root.Normal)
    (importer : Path) (specifier : String) :
    (routeModule root importer specifier : Except (Halt ε) Path) =
      .ok (destination root importer ⟨specifier⟩) := by
  have led : (importer.directory.join ⟨specifier⟩).resolve? root =
      some (destination root importer ⟨specifier⟩) := by
    unfold destination meant
    cases absolute : (Path.mk specifier).isAbsolute with
    | true =>
      rw [if_pos rfl, Path.join_of_absolute _ absolute, Path.resolve?_of_absolute absolute,
        Path.components_of_absolute absolute]
      exact Path.reached?_eq [] (Path.root_not_mem_stepsOf _ _)
    | false =>
      rw [if_neg Bool.false_ne_true]
      by_cases above : importer.isAbsolute = true ∧ importer.components ≠ [.root]
      · rw [if_pos above]
        exact resolve?_of_absolute_directory root absolute above
      · rw [if_neg above]
        exact resolve?_of_relative_directory normal absolute above
  unfold routeModule absolute
  rw [← Path.directory, led]

theorem normal_destination (root importer specifier : Path) :
    (destination root importer specifier).Normal := by
  refine Path.normal_placeOf fun s member => ?_
  have inside : .name s ∈ specifier.components ∨ .name s ∈ importer.components ∨
      .name s ∈ root.components := by
    unfold meant at member
    split at member
    · exact Or.inl member
    · split at member
      · rcases List.mem_append.mp member with above | own
        · exact Or.inr (Or.inl (List.mem_of_mem_dropLast above))
        · exact Or.inl own
      · rcases List.mem_append.mp member with above | own
        · rcases List.mem_append.mp above with start | above
          · exact Or.inr (Or.inr start)
          · exact Or.inr (Or.inl (List.mem_of_mem_dropLast above))
        · exact Or.inl own
  rcases inside with own | above | start
  · exact Path.isName_of_mem_components own
  · exact Path.isName_of_mem_components above
  · exact Path.isName_of_mem_components start

/-- A specifier means the path to which it leads by names alone, whatever the routes file and
the specifier are written like. That path is normal and leads to itself from everywhere, the search
for the file of the module starts from it, and a cache takes two specifiers for the same module
exactly if their paths read the same. -/
theorem routeModule_lexical {root : Path} (normal : root.Normal) (importer : Path)
    (specifier : String) :
    (∀ ε : Type, (routeModule root importer specifier : Except (Halt ε) Path) =
        .ok (destination root importer ⟨specifier⟩)) ∧
      (destination root importer ⟨specifier⟩).Normal ∧
      (∀ base, (destination root importer ⟨specifier⟩).resolve? base =
        some (destination root importer ⟨specifier⟩)) ∧
      (∀ (ε : Type) files base,
        (moduleFile ⟨files, base⟩ (destination root importer ⟨specifier⟩) :
          Except (Halt ε) (Option Path)) =
            .ok (fileAt? files (destination root importer ⟨specifier⟩))) ∧
      ∀ (importer' : Path) (specifier' : String) (c : Cache) (names : List String),
        (c.store (destination root importer ⟨specifier⟩) names).find?
            (destination root importer' ⟨specifier'⟩) =
          if (destination root importer ⟨specifier⟩).text =
              (destination root importer' ⟨specifier'⟩).text then some names
          else c.find? (destination root importer' ⟨specifier'⟩) := by
  have own := normal_destination root importer ⟨specifier⟩
  refine ⟨fun ε => routeModule_eq_destination normal importer specifier, own, own.resolve?,
    fun ε files base => ?_, fun importer' specifier' c names => ?_⟩
  · unfold moduleFile absolute
    rw [own.resolve?]
    rfl
  · have other := normal_destination root importer' ⟨specifier'⟩
    rw [Cache.find?_store]
    exact if_congr (own.same_iff other) rfl rfl

/-- From a file above the project, by steps that are more than there are directories. -/
theorem routeModule_climbing :
    (Path.mk "/p/q").Normal ∧
      (routeModule ⟨"/p/q"⟩ ⟨"./o/../../r.ts"⟩ "..//../.././x/y/../" :
        Except (Halt CompileError) Path) = .ok ⟨"/x"⟩ := by
  have normal : (Path.mk "/p/q").Normal := Or.inr (by decide)
  have led : destination ⟨"/p/q"⟩ ⟨"./o/../../r.ts"⟩ ⟨"..//../.././x/y/../"⟩ = ⟨"/x"⟩ := by
    decide +kernel
  refine ⟨normal, ?_⟩
  rw [(routeModule_lexical normal ⟨"./o/../../r.ts"⟩ "..//../.././x/y/../").1, led]

/-- Not every absolute file has its specifiers seen from its directory: the root has none. -/
theorem not_seen_from_every_absolute_file :
    ¬ ∀ (root importer : Path) (specifier : String), root.Normal → importer.isAbsolute = true →
      (Path.mk specifier).isAbsolute = false →
        (routeModule root importer specifier : Except (Halt CompileError) Path) =
          .ok (.ofPlace (Path.placeOf
            (importer.directory.components ++ (Path.mk specifier).components))) := by
  intro seen
  have normal : (Path.mk "/p").Normal := Or.inr (by decide)
  have claimed := seen ⟨"/p"⟩ ⟨"/"⟩ "a" normal rfl rfl
  have meant : (routeModule ⟨"/p"⟩ ⟨"/"⟩ "a" : Except (Halt CompileError) Path) = .ok ⟨"/p/a"⟩ := by
    decide +kernel
  rw [meant] at claimed
  have apart : (⟨"/p/a"⟩ : Path) ≠ .ofPlace (Path.placeOf
      ((Path.mk "/").directory.components ++ (Path.mk "a").components)) := by
    decide +kernel
  exact apart (Except.ok.inj claimed)

end Project

end RouteManifest
