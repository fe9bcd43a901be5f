import RouteManifest.Path

/-!
# Components of paths

The components of a path are those of its pieces, and the pieces are its text split at the
separators. Which components a path has is told from its pieces alone, without their positions.
-/

namespace RouteManifest

namespace Path

/-! ## Pieces -/

theorem pieces_ne_nil (cs : List Char) : pieces cs ≠ [] := by
  unfold pieces
  split
  · exact List.cons_ne_nil _ _
  · exact List.cons_ne_nil _ _
  · split
    · exact List.cons_ne_nil _ _
    · exact List.cons_ne_nil _ _

theorem pieces_cons (c : Char) (cs : List Char) :
    pieces (c :: cs) =
      if c = '/' then [] :: pieces cs else (pieces cs).modifyHead (List.cons c) := by
  by_cases separator : c = '/'
  · subst separator
    rw [if_pos rfl, pieces]
  · rw [if_neg separator]
    cases told : pieces cs with
    | nil => exact absurd told (pieces_ne_nil cs)
    | cons p ps => simp [pieces, told]

theorem pieces_eq_splitOn (cs : List Char) : pieces cs = cs.splitOn '/' := by
  induction cs with
  | nil => simp [pieces]
  | cons c cs ih =>
    rw [pieces_cons, List.splitOn_cons_eq_if_modifyHead, ih]
    by_cases separator : c = '/'
    · simp [separator]
    · simp [separator]

/-- A separator parts the pieces before it from those behind it. -/
theorem pieces_append (front back : List Char) :
    pieces (front ++ '/' :: back) = pieces front ++ pieces back := by
  simp only [pieces_eq_splitOn, List.splitOn_append_cons_self]

theorem intercalate_pieces (cs : List Char) : List.intercalate ['/'] (pieces cs) = cs := by
  rw [pieces_eq_splitOn, List.intercalate_splitOn]

theorem not_mem_of_mem_pieces {cs piece : List Char} (h : piece ∈ pieces cs) : '/' ∉ piece := by
  induction cs generalizing piece with
  | nil =>
    rw [pieces, List.mem_singleton] at h
    rw [h]
    exact List.not_mem_nil
  | cons c cs ih =>
    rw [pieces_cons] at h
    by_cases separator : c = '/'
    · rw [if_pos separator] at h
      rcases List.mem_cons.mp h with rfl | inside
      · exact List.not_mem_nil
      · exact ih inside
    · rw [if_neg separator] at h
      cases told : pieces cs with
      | nil => exact absurd told (pieces_ne_nil cs)
      | cons p ps =>
        rw [told] at h
        rcases List.mem_cons.mp h with rfl | inside
        · have first : '/' ∉ p := ih (told ▸ List.mem_cons_self)
          simp [first, Ne.symm separator]
        · exact ih (told ▸ List.mem_cons_of_mem p inside)

theorem pieces_intercalate {ps : List (List Char)} (plain : ∀ piece ∈ ps, '/' ∉ piece)
    (some_piece : ps ≠ []) : pieces (List.intercalate ['/'] ps) = ps := by
  rw [pieces_eq_splitOn]
  exact List.splitOn_intercalate '/' plain some_piece

/-- A path is absolute if an empty piece stands before its first separator. -/
theorem isAbsolute_iff {p : Path} :
    p.isAbsolute = true ↔ ∃ piece rest, pieces p.text.toList = [] :: piece :: rest := by
  unfold isAbsolute
  cases told : p.text.toList with
  | nil => simp [pieces]
  | cons c cs =>
    by_cases separator : c = '/'
    · subst separator
      cases later : pieces cs with
      | nil => exact absurd later (pieces_ne_nil cs)
      | cons piece rest => simp [pieces, later]
    · cases later : pieces cs with
      | nil => exact absurd later (pieces_ne_nil cs)
      | cons piece rest => simp [pieces_cons, separator, later]

/-! ## Components of pieces -/

/-- The components of pieces; `leading` says that nothing precedes them. -/
def stepsOf (leading : Bool) : List (List Char) → List Component
  | [] => []
  | piece :: rest => (pieceComponent leading piece).toList ++ stepsOf false rest

theorem stepsOf_append (leading : Bool) (front back : List (List Char)) :
    stepsOf leading (front ++ back) =
      stepsOf leading front ++ stepsOf (leading && front.isEmpty) back := by
  induction front generalizing leading with
  | nil => simp [stepsOf]
  | cons piece rest ih => simp [stepsOf, ih]

theorem map_go (i : Nat) (leading : Bool) (ps : List (List Char)) :
    (numberedComponents.go i leading ps).map (·.2) = stepsOf leading ps := by
  induction ps generalizing i leading with
  | nil => rfl
  | cons piece rest ih =>
    rw [numberedComponents.go, stepsOf]
    cases pieceComponent leading piece with
    | none => exact ih (i + 1) false
    | some c => exact congrArg (c :: ·) (ih (i + 1) false)

/-- At a numbered component the pieces are parted, and the number counts those up to it. -/
theorem go_eq_append {i n : Nat} {leading : Bool} {ps : List (List Char)} {c : Component}
    {before after : List (Nat × Component)}
    (h : numberedComponents.go i leading ps = before ++ (n, c) :: after) :
    ∃ front piece back, ps = front ++ piece :: back ∧ n = i + front.length + 1 ∧
      pieceComponent (leading && front.isEmpty) piece = some c ∧
      stepsOf leading front = before.map (·.2) ∧ stepsOf false back = after.map (·.2) := by
  induction ps generalizing i leading before with
  | nil =>
    rw [numberedComponents.go] at h
    simp at h
  | cons piece rest ih =>
    rw [numberedComponents.go] at h
    cases own : pieceComponent leading piece with
    | none =>
      rw [own] at h
      obtain ⟨front, chosen, back, rfl, rfl, here, steps, others⟩ := ih h
      refine ⟨piece :: front, chosen, back, rfl, ?_, ?_, ?_, others⟩
      · rw [List.length_cons]
        omega
      · simpa using here
      · simpa [stepsOf, own] using steps
    | some first =>
      rw [own] at h
      cases before with
      | nil =>
        obtain ⟨numbered, others⟩ := List.cons.inj h
        obtain ⟨rfl, rfl⟩ := Prod.mk.inj numbered
        refine ⟨[], piece, rest, rfl, rfl, by simpa using own, rfl, ?_⟩
        rw [← others, map_go]
      | cons entry before =>
        obtain ⟨rfl, onward⟩ := List.cons.inj h
        obtain ⟨front, chosen, back, rfl, rfl, here, steps, others⟩ := ih onward
        refine ⟨piece :: front, chosen, back, rfl, ?_, ?_, ?_, others⟩
        · rw [List.length_cons]
          omega
        · simpa using here
        · simpa [stepsOf, own] using steps

theorem components_eq (p : Path) :
    p.components = (if p.isAbsolute then [.root] else []) ++
      stepsOf (!p.isAbsolute) (pieces p.text.toList) := by
  rw [components, numberedComponents, map_go]
  by_cases absolute : p.isAbsolute = true
  · simp [absolute]
  · simp [absolute]

theorem root_not_mem_stepsOf (leading : Bool) (ps : List (List Char)) :
    Component.root ∉ stepsOf leading ps := by
  induction ps generalizing leading with
  | nil => exact List.not_mem_nil
  | cons piece rest ih =>
    rw [stepsOf, List.mem_append, not_or]
    refine ⟨?_, ih false⟩
    unfold pieceComponent
    split
    · simp
    · split
      · split
        · simp
        · simp
      · split
        · simp
        · simp

theorem isAbsolute_iff_components {p : Path} :
    p.isAbsolute = true ↔ p.components.head? = some .root := by
  rw [components_eq]
  cases absolute : p.isAbsolute with
  | true => simp
  | false =>
    simp only [Bool.false_eq_true, if_false, List.nil_append, false_iff]
    intro first
    exact root_not_mem_stepsOf _ _ (List.mem_of_mem_head? first)

theorem infix_of_isAbsolute {p : Path} (absolute : p.isAbsolute = true) :
    "/".toList <:+: p.text.toList := by
  unfold isAbsolute at absolute
  split at absolute
  · rename_i cs text
    rw [text]
    exact (List.prefix_append ['/'] cs).isInfix
  · cases absolute

theorem text_ne_empty_of_components {p : Path} (h : p.components ≠ []) : p.text ≠ "" := by
  intro empty
  have : p = ⟨""⟩ := congrArg Path.mk empty
  subst this
  exact h (by decide)

/-- The components of a path behind another one, where a leading `.` is none. -/
def further (p : Path) : List Component := stepsOf false (pieces p.text.toList)

theorem stepsOf_true (ps : List (List Char)) :
    stepsOf true ps = stepsOf false ps ∨ stepsOf true ps = .here :: stepsOf false ps := by
  cases ps with
  | nil => exact Or.inl rfl
  | cons piece rest =>
    by_cases here : piece = ['.']
    · subst here
      exact Or.inr rfl
    · left
      simp [stepsOf, pieceComponent, here]

/-- A path that is not absolute has the components that it would have behind another one, and a
leading `.`, if that is how it begins. -/
theorem components_of_relative {p : Path} (relative : p.isAbsolute = false) :
    p.components = p.further ∨ p.components = .here :: p.further := by
  rw [components_eq, relative]
  exact stepsOf_true _

end Path

end RouteManifest
