import RouteManifest.Proofs.Components

/-!
# Joining and resolving paths

The components of a joined path, of a parent and of a file name are told without looking at texts,
and so is the place to which a path resolves: steps are taken one after another, and from a rooted
path they lead to a rooted one.
-/

namespace RouteManifest

namespace Path

/-! ## Joining -/

theorem components_of_split {p : Path} {front back : List Char}
    (split : p.text.toList = front ++ '/' :: back) :
    p.components = (if p.isAbsolute then [.root] else []) ++
      stepsOf (!p.isAbsolute) (pieces front) ++ stepsOf false (pieces back) := by
  have others : (pieces front).isEmpty = false := by
    simpa using pieces_ne_nil front
  rw [components_eq, split, pieces_append, stepsOf_append, others, Bool.and_false,
    List.append_assoc]

theorem isAbsolute_of_append {p q : Path} {more : List Char} (some_text : p.text ≠ "")
    (longer : q.text.toList = p.text.toList ++ more) : q.isAbsolute = p.isAbsolute := by
  unfold isAbsolute
  rw [longer]
  cases told : p.text.toList with
  | nil => exact absurd (String.toList_eq_nil_iff.mp told) some_text
  | cons c cs =>
    by_cases separator : c = '/'
    · simp [separator]
    · simp [separator]

theorem join_of_absolute (p : Path) {q : Path} (absolute : q.isAbsolute = true) :
    p.join q = q := by
  rw [join, if_pos absolute]

theorem join_of_empty {p : Path} (empty : p.text = "") (q : Path) : p.join q = q := by
  simp [join, empty]

/-- A path seen from another one is written behind it. -/
theorem join_text (p : Path) {q : Path} (relative : q.isAbsolute = false) :
    ∃ more, (p.join q).text.toList = p.text.toList ++ more := by
  rw [join, relative]
  cases told : p.text.toList.getLast? with
  | none =>
    rw [List.getLast?_eq_none_iff] at told
    exact ⟨q.text.toList, by simp [told]⟩
  | some c =>
    by_cases closed : c = '/'
    · exact ⟨q.text.toList, by simp [closed]⟩
    · exact ⟨'/' :: q.text.toList, by simp⟩

theorem isAbsolute_join (p : Path) {q : Path} (relative : q.isAbsolute = false) :
    (p.join q).isAbsolute = p.isAbsolute := by
  by_cases empty : p.text = ""
  · have : p = ⟨""⟩ := congrArg Path.mk empty
    subst this
    rw [join_of_empty rfl, relative]
    rfl
  · obtain ⟨more, longer⟩ := join_text p relative
    exact isAbsolute_of_append empty longer

/-- Behind a path that says anything, another one adds its components. -/
theorem components_join {p q : Path} (some_text : p.text ≠ "") (relative : q.isAbsolute = false) :
    (p.join q).components = p.components ++ q.further := by
  have absolute := isAbsolute_join p relative
  cases told : p.text.toList.getLast? with
  | none =>
    rw [List.getLast?_eq_none_iff] at told
    exact absurd (String.toList_eq_nil_iff.mp told) some_text
  | some c =>
    by_cases closed : c = '/'
    · subst closed
      obtain ⟨front, split⟩ := List.getLast?_eq_some_iff.mp told
      have text : (p.join q).text.toList = front ++ '/' :: q.text.toList := by
        simp [join, relative, split]
      rw [components_of_split text, components_of_split split, absolute]
      simp [further, pieces, stepsOf, pieceComponent]
    · have text : (p.join q).text.toList = p.text.toList ++ '/' :: q.text.toList := by
        simp [join, relative, told]
      rw [components_of_split text, components_eq, absolute]
      rfl

/-! ## Parents and file names -/

theorem components_eq_numbered (p : Path) :
    p.components = (if p.isAbsolute then [.root] else []) ++ p.numberedComponents.map (·.2) := by
  rw [components]
  split
  · rfl
  · rfl

/-- The pieces up to the end of a component have the components up to there. -/
theorem stepsOf_take {leading : Bool} {ps : List (List Char)}
    {before after : List (Nat × Component)} {n : Nat} {c : Component}
    (numbered : numberedComponents.go 0 leading ps = before ++ (n, c) :: after) :
    stepsOf leading (ps.take n) = before.map (·.2) ++ [c] := by
  obtain ⟨front, piece, back, rfl, rfl, here, steps, -⟩ := go_eq_append numbered
  have chosen : (front ++ piece :: back).take (0 + front.length + 1) = front ++ [piece] := by
    rw [Nat.zero_add, List.take_length_add_append]
    rfl
  rw [chosen, stepsOf_append, steps]
  simp [stepsOf, here]

theorem pieces_slice {p : Path} {lo hi : Nat}
    (some_piece : ((pieces p.text.toList).take hi).drop lo ≠ []) :
    pieces (p.slice lo hi).toList = ((pieces p.text.toList).take hi).drop lo := by
  rw [slice, String.toList_ofList]
  refine pieces_intercalate ?_ some_piece
  intro piece member
  exact not_mem_of_mem_pieces (List.mem_of_mem_take (List.mem_of_mem_drop member))

/-- The path up to one of its components has the components up to there. -/
theorem components_slice {p : Path} {before after : List (Nat × Component)} {n : Nat}
    {c : Component} (numbered : p.numberedComponents = before ++ (n, c) :: after) :
    (Path.mk (p.slice 0 n)).components =
      (if p.isAbsolute then [.root] else []) ++ (before.map (·.2) ++ [c]) := by
  have steps := stepsOf_take numbered
  obtain ⟨front, piece, back, parted, rfl, here, -, -⟩ := go_eq_append numbered
  have chosen : (pieces p.text.toList).take (0 + front.length + 1) = front ++ [piece] := by
    rw [parted, Nat.zero_add, List.take_length_add_append]
    rfl
  have text : pieces (p.slice 0 (0 + front.length + 1)).toList = front ++ [piece] := by
    rw [pieces_slice, List.drop_zero, chosen]
    rw [List.drop_zero, chosen]
    simp
  have absolute : (Path.mk (p.slice 0 (0 + front.length + 1))).isAbsolute = p.isAbsolute := by
    rw [Bool.eq_iff_iff, isAbsolute_iff, isAbsolute_iff, text, parted]
    cases front with
    | nil =>
      have own : piece ≠ [] := by
        rintro rfl
        cases here
      simp [own]
    | cons first rest => cases rest <;> simp
  rw [components_eq, text, absolute, ← steps, chosen]

/-- The parent of a path has its components up to the last. -/
theorem parent?_eq_some {p : Path} (some_component : p.numberedComponents ≠ []) :
    ∃ dir, p.parent? = some dir ∧ dir.components = p.components.dropLast := by
  unfold parent?
  rw [components_eq_numbered]
  cases told : p.numberedComponents.reverse with
  | nil => exact absurd (List.reverse_eq_nil_iff.mp told) some_component
  | cons last others =>
    have numbered : p.numberedComponents = others.reverse ++ [last] := by
      rw [← List.reverse_reverse p.numberedComponents, told, List.reverse_cons]
    cases others with
    | nil =>
      refine ⟨_, rfl, ?_⟩
      rw [numbered]
      cases p.isAbsolute with
      | true => rfl
      | false => rfl
    | cons entry earlier =>
      obtain ⟨hi, c⟩ := entry
      refine ⟨_, rfl, ?_⟩
      have parted : p.numberedComponents = earlier.reverse ++ (hi, c) :: [last] := by
        simp [numbered]
      rw [components_slice parted, parted]
      simp [List.dropLast_append_of_ne_nil]

theorem map_numberedComponents {p : Path} {rest : List Component}
    (h : p.components = .root :: rest) : p.numberedComponents.map (·.2) = rest := by
  have absolute := isAbsolute_iff_components.mpr ((congrArg List.head? h).trans rfl)
  rw [components_eq_numbered, absolute] at h
  exact (List.cons.inj h).2

/-- The file name of a path is its last component, if that is a name. -/
theorem fileName?_eq_some_iff {p : Path} {name : String} :
    p.fileName? = some name ↔ p.components.getLast? = some (.name name) := by
  unfold fileName?
  rw [components_eq_numbered, List.getLast?_append, List.getLast?_map]
  cases p.numberedComponents.getLast? with
  | none =>
    cases p.isAbsolute with
    | true => simp
    | false => simp
  | some entry =>
    obtain ⟨n, c⟩ := entry
    cases c with
    | name other => simp
    | _ => simp

theorem numberedComponents_ne_nil_of_fileName {p : Path} {name : String}
    (h : p.fileName? = some name) : p.numberedComponents ≠ [] := by
  intro none_left
  rw [fileName?, none_left] at h
  cases h

/-- A path with a file name has it behind another path too. -/
theorem further_getLast? {p : Path} (relative : p.isAbsolute = false) {name : String}
    (h : p.fileName? = some name) : p.further.getLast? = some (.name name) := by
  rw [fileName?_eq_some_iff] at h
  rcases components_of_relative relative with same | led
  · rw [← same]
    exact h
  · rw [led, List.getLast?_cons] at h
    cases last : p.further.getLast? with
    | none =>
      rw [last] at h
      cases h
    | some c =>
      rw [last] at h
      exact h

theorem fileName?_join {p q : Path} (some_text : p.text ≠ "") (relative : q.isAbsolute = false)
    {name : String} (h : q.fileName? = some name) : (p.join q).fileName? = some name := by
  rw [fileName?_eq_some_iff, components_join some_text relative, List.getLast?_append,
    further_getLast? relative h]
  rfl

/-! ## Taking steps -/

/-- A leading `.` is no step, so that steps may be taken as they would be behind another path. -/
theorem foldl_step_of_relative {p : Path} (relative : p.isAbsolute = false)
    (steps : List Component) : p.components.foldl step steps = p.further.foldl step steps := by
  rcases components_of_relative relative with same | led
  · rw [same]
  · rw [led]
    rfl

theorem foldl_step_parent {p : Path} (relative : p.isAbsolute = false) {name : String}
    (h : p.fileName? = some name) (steps : List Component) :
    p.components.dropLast.foldl step steps = p.further.dropLast.foldl step steps := by
  rcases components_of_relative relative with same | led
  · rw [same]
  · have last := further_getLast? relative h
    have some_step : p.further ≠ [] := by
      intro empty
      rw [empty] at last
      cases last
    rw [led, List.dropLast_cons_of_ne_nil some_step]
    rfl

/-- The steps of a joined path are those of its parts. -/
theorem foldl_step_join {p q : Path} (relative : p.isAbsolute = false)
    (relative' : q.isAbsolute = false) (steps : List Component) :
    (p.join q).components.foldl step steps =
      q.further.foldl step (p.components.foldl step steps) := by
  by_cases empty : p.text = ""
  · have : p = ⟨""⟩ := congrArg Path.mk empty
    subst this
    rw [join_of_empty rfl, foldl_step_of_relative relative']
    rfl
  · rw [components_join empty relative', List.foldl_append]

theorem foldl_step_names (names : List String) (steps : List Component) :
    (names.map Component.name).foldl step steps =
      (names.map Component.name).reverse ++ steps := by
  induction names generalizing steps with
  | nil => rfl
  | cons name rest ih =>
    rw [List.map_cons, List.foldl_cons, ih, List.reverse_cons, List.append_assoc]
    rfl

/-- An absolute path as it is written when nothing is left to be simplified: no `.` and no `..`,
and no separator that is doubled or trails. -/
def Normal (p : Path) : Prop :=
  p.text = "/" ∨ p.isAbsolute = true ∧
    ∀ piece ∈ (pieces p.text.toList).tail, piece ≠ [] ∧ piece ≠ ['.'] ∧ piece ≠ ['.', '.']

theorem stepsOf_names {ps : List (List Char)}
    (plain : ∀ piece ∈ ps, piece ≠ [] ∧ piece ≠ ['.'] ∧ piece ≠ ['.', '.']) :
    stepsOf false ps = (ps.map String.ofList).map Component.name := by
  induction ps with
  | nil => rfl
  | cons piece rest ih =>
    obtain ⟨some_text, not_here, not_up⟩ := plain piece List.mem_cons_self
    have others := ih fun x member => plain x (List.mem_cons_of_mem piece member)
    rw [stepsOf, others]
    simp [pieceComponent, some_text, not_here, not_up]

/-- A normal path goes from the root by names, and is what its components are written as. -/
theorem Normal.components {p : Path} (normal : p.Normal) :
    ∃ names : List String, p.components = .root :: names.map .name ∧
      ofComponents? p.components = some p := by
  rcases normal with root | ⟨absolute, plain⟩
  · have : p = ⟨"/"⟩ := congrArg Path.mk root
    subst this
    exact ⟨[], by decide, by decide⟩
  · obtain ⟨first, rest, parted⟩ := isAbsolute_iff.mp absolute
    rw [parted, List.tail_cons] at plain
    have steps : p.components = .root :: ((first :: rest).map String.ofList).map .name := by
      have leading : stepsOf false ([] :: first :: rest) = stepsOf false (first :: rest) := rfl
      rw [components_eq, absolute, parted, Bool.not_true, leading, stepsOf_names plain]
      rfl
    refine ⟨_, steps, ?_⟩
    have text : p.text = "/" ++ String.intercalate "/" ((first :: rest).map String.ofList) := by
      rw [← String.toList_inj, String.toList_append, String.toList_intercalate,
        ← intercalate_pieces p.text.toList, parted, List.intercalate_cons_cons]
      simp [Function.comp_def]
    rw [steps, ofComponents?, List.map_map]
    have texts : List.map (Component.text ∘ Component.name) = List.map id := rfl
    rw [texts, List.map_id, ← text]

/-! ## Resolving -/

/-- The path to which steps lead from other steps. -/
def reached? (start onward : List Component) : Option Path :=
  ofComponents? (onward.foldl step start).reverse

theorem resolve?_of_absolute {p : Path} (absolute : p.isAbsolute = true) (base : Path) :
    p.resolve? base = reached? [] p.components := by
  have first := isAbsolute_iff_components.mp absolute
  cases steps : p.components with
  | nil =>
    rw [steps] at first
    cases first
  | cons c rest =>
    rw [steps] at first
    cases first
    simp only [resolve?, steps]
    rfl

/-- From a normal directory every step is taken as it comes. -/
theorem resolve?_of_relative {p base : Path} (normal : base.Normal)
    (relative : p.isAbsolute = false) :
    p.resolve? base = reached? base.components.reverse p.components := by
  obtain ⟨names, steps, written⟩ := normal.components
  unfold resolve? reached?
  cases own : p.components with
  | nil => rw [List.foldl_nil, List.reverse_reverse, written]
  | cons c rest =>
    cases c with
    | root =>
      have absolute := isAbsolute_iff_components.mpr ((congrArg List.head? own).trans rfl)
      rw [absolute] at relative
      cases relative
    | here => rfl
    | name text => rfl
    | up =>
      have numbered := map_numberedComponents steps
      rcases List.eq_nil_or_concat names with rfl | ⟨front, last, added⟩
      · rw [List.map_nil, List.map_eq_nil_iff] at numbered
        have none_left : base.parent? = none := by rw [parent?, numbered, List.reverse_nil]
        simp only [none_left, steps, List.map_nil, if_true]
        rfl
      · rw [List.concat_eq_append] at added
        subst added
        have some_left : base.numberedComponents ≠ [] := by
          intro empty
          rw [empty] at numbered
          simp at numbered
        obtain ⟨dir, above, left⟩ := parent?_eq_some some_left
        have back : step base.components.reverse .up = dir.components.reverse := by
          rw [left, steps, List.map_append, ← List.cons_append, List.map_singleton,
            List.dropLast_concat, List.reverse_append]
          rfl
        simp only [above, List.foldl_cons, back]

/-- No step takes the root away. -/
theorem getLast?_step {steps : List Component} (rooted : steps.getLast? = some .root)
    (c : Component) : (step steps c).getLast? = some .root := by
  cases c with
  | here => exact rooted
  | up =>
    rcases steps with _ | ⟨last, _ | ⟨before, rest⟩⟩
    · exact rooted
    · cases rooted
      rfl
    · have kept : step (last :: before :: rest) .up = before :: rest := by
        cases last <;> rfl
      rw [kept]
      rwa [List.getLast?_cons_cons] at rooted
  | root | name text =>
    rw [step, List.getLast?_cons, rooted]
    · rfl
    all_goals simp

/-- Whatever steps are taken from the root, there is a path to where they lead. -/
theorem reached?_of_rooted {start : List Component} (rooted : start.getLast? = some .root)
    (onward : List Component) : ∃ path, reached? start onward = some path := by
  have kept : (onward.foldl step start).getLast? = some .root := by
    induction onward generalizing start with
    | nil => exact rooted
    | cons c rest ih => exact ih (getLast?_step rooted c)
  rw [← List.head?_reverse] at kept
  obtain ⟨rest, led⟩ := List.head?_eq_some_iff.mp kept
  exact ⟨_, by rw [reached?, led]; rfl⟩

/-- Seen from a normal directory, every path leads somewhere. -/
theorem resolve?_of_normal {base : Path} (normal : base.Normal) (p : Path) :
    ∃ path, p.resolve? base = some path := by
  obtain ⟨names, start, -⟩ := normal.components
  cases absolute : p.isAbsolute with
  | false =>
    rw [resolve?_of_relative normal absolute]
    refine reached?_of_rooted ?_ _
    rw [List.getLast?_reverse, start]
    rfl
  | true =>
    obtain ⟨onward, led⟩ := List.head?_eq_some_iff.mp (isAbsolute_iff_components.mp absolute)
    have taken : p.resolve? base = reached? [.root] onward := by
      rw [resolve?_of_absolute absolute, led]
      rfl
    rw [taken]
    exact reached?_of_rooted rfl onward

end Path

end RouteManifest
