import RouteManifest.Proofs.Paths

/-!
# Paths below a directory

A path is below a directory if it begins with the components of the directory. What is left of it
is a stretch of its text, and the stretch has the components that are left.
-/

namespace RouteManifest

namespace Path

theorem dropStart?_eq_some_iff {cs bs rest : List Component} :
    dropStart? cs bs = some rest ↔ cs = bs ++ rest := by
  induction bs generalizing cs with
  | nil => cases cs <;> simp [dropStart?]
  | cons b bs ih =>
    cases cs with
    | nil => simp [dropStart?]
    | cons c cs =>
      by_cases same : c = b
      · simp [dropStart?, same, ih]
      · simp [dropStart?, same]

theorem below?_eq_none_iff {p base : Path} :
    p.below? base = none ↔ ¬ base.components <+: p.components := by
  unfold below?
  cases told : dropStart? p.components base.components with
  | none =>
    simp only [true_iff]
    rintro ⟨rest, parted⟩
    rw [dropStart?_eq_some_iff.mpr parted.symm] at told
    cases told
  | some rest =>
    have led : base.components <+: p.components := ⟨rest, (dropStart?_eq_some_iff.mp told).symm⟩
    simp only [led, not_true_eq_false, iff_false]
    split
    · simp
    · split
      · simp
      · simp

theorem lt_of_mem_go {i : Nat} {leading : Bool} {ps : List (List Char)} {e : Nat × Component}
    (h : e ∈ numberedComponents.go i leading ps) : i < e.1 := by
  induction ps generalizing i leading with
  | nil => cases h
  | cons piece rest ih =>
    rw [numberedComponents.go] at h
    cases own : pieceComponent leading piece with
    | none =>
      rw [own] at h
      have := ih h
      omega
    | some c =>
      rw [own] at h
      rcases List.mem_cons.mp h with rfl | later
      · exact Nat.lt_succ_self i
      · have := ih later
        omega

theorem pairwise_go (i : Nat) (leading : Bool) (ps : List (List Char)) :
    (numberedComponents.go i leading ps).Pairwise fun e e' => e.1 < e'.1 := by
  induction ps generalizing i leading with
  | nil => exact List.Pairwise.nil
  | cons piece rest ih =>
    rw [numberedComponents.go]
    cases pieceComponent leading piece with
    | none => exact ih (i + 1) false
    | some c => exact List.Pairwise.cons (fun e later => lt_of_mem_go later) (ih (i + 1) false)

theorem pieceComponent_leading {piece : List Char} {leading : Bool} {c : Component}
    (h : pieceComponent leading piece = some c) : pieceComponent true piece = some c := by
  cases leading with
  | true => exact h
  | false =>
    by_cases here : piece = ['.']
    · subst here
      cases h
    · rw [← h]
      simp [pieceComponent, here]

/-- The stretch of a path from one of its components to the last has the components from there on,
and does not begin at the root. -/
theorem components_stretch {p : Path} {before after : List (Nat × Component)} {lo hi : Nat}
    {c d : Component} (numbered : p.numberedComponents = before ++ (lo, c) :: after)
    (last : p.numberedComponents.getLast? = some (hi, d)) :
    (Path.mk (p.slice (lo - 1) hi)).components = c :: after.map (·.2) := by
  obtain ⟨front, piece, back, parted, start, here, steps, -⟩ := go_eq_append numbered
  have forward : lo ≤ hi := by
    rw [numbered, List.getLast?_append, List.getLast?_cons] at last
    have ordered : ((lo, c) :: after).Pairwise fun e e' => e.1 < e'.1 := by
      have whole := pairwise_go 0 (!p.isAbsolute) (pieces p.text.toList)
      rw [← numberedComponents, numbered] at whole
      exact (List.pairwise_append.mp whole).2.1
    cases later : after.getLast? with
    | none =>
      rw [later] at last
      cases last
      exact Nat.le_refl lo
    | some e =>
      rw [later] at last
      cases last
      exact Nat.le_of_lt (List.rel_of_pairwise_cons ordered (List.mem_of_getLast? later))
  obtain ⟨more, rfl⟩ : ∃ more, hi = front.length + 1 + more := ⟨hi - lo, by omega⟩
  have chosen : (pieces p.text.toList).take (front.length + 1 + more) =
      front ++ piece :: back.take more := by
    rw [parted, Nat.add_assoc, List.take_length_add_append, Nat.add_comm 1 more]
    rfl
  have behind : stepsOf false (back.take more) = after.map (·.2) := by
    obtain ⟨init, whole⟩ := List.getLast?_eq_some_iff.mp last
    have all : init.map (·.2) ++ [d] = before.map (·.2) ++ c :: after.map (·.2) := by
      have mapped := congrArg (List.map (·.2)) (whole.symm.trans numbered)
      simpa using mapped
    have taken := stepsOf_take whole
    rw [chosen, stepsOf_append, steps, stepsOf, here, all] at taken
    simpa using taken
  have stretch : ((pieces p.text.toList).take (front.length + 1 + more)).drop (lo - 1) =
      piece :: back.take more := by
    rw [chosen, start]
    simp
  have text : pieces (p.slice (lo - 1) (front.length + 1 + more)).toList =
      piece :: back.take more := by
    rw [pieces_slice, stretch]
    rw [stretch]
    simp
  have relative : (Path.mk (p.slice (lo - 1) (front.length + 1 + more))).isAbsolute = false := by
    rw [← Bool.not_eq_true, isAbsolute_iff, text]
    rintro ⟨_, _, same⟩
    rw [(List.cons.inj same).1] at here
    cases here
  rw [components_eq, text, relative, Bool.not_false, stepsOf, pieceComponent_leading here, behind]
  rfl

theorem intercalate_append {front back : List (List Char)} (some_front : front ≠ [])
    (some_back : back ≠ []) :
    List.intercalate ['/'] (front ++ back) =
      List.intercalate ['/'] front ++ '/' :: List.intercalate ['/'] back := by
  induction front with
  | nil => exact absurd rfl some_front
  | cons piece rest ih =>
    cases rest with
    | nil =>
      cases back with
      | nil => exact absurd rfl some_back
      | cons first others => simp [List.intercalate_cons_cons]
    | cons next others =>
      rw [List.cons_append, List.cons_append, List.intercalate_cons_cons, ← List.cons_append,
        ih (List.cons_ne_nil _ _), List.intercalate_cons_cons]
      simp

theorem intercalate_stretches (front back : List (List Char)) :
    List.intercalate ['/'] front <:+: List.intercalate ['/'] (front ++ back) ∧
      List.intercalate ['/'] back <:+: List.intercalate ['/'] (front ++ back) := by
  by_cases some_front : front = []
  · subst some_front
    exact ⟨by simp, List.infix_refl _⟩
  · by_cases some_back : back = []
    · subst some_back
      rw [List.append_nil]
      exact ⟨List.infix_refl _, List.nil_infix⟩
    · rw [intercalate_append some_front some_back]
      exact ⟨(List.prefix_append _ _).isInfix,
        ((List.suffix_cons _ _).trans (List.suffix_append _ _)).isInfix⟩

/-- A slice is a stretch of the text of the path. -/
theorem slice_stretch (p : Path) (lo hi : Nat) : (p.slice lo hi).toList <:+: p.text.toList := by
  have early := (intercalate_stretches ((pieces p.text.toList).take hi)
    ((pieces p.text.toList).drop hi)).1
  have late := (intercalate_stretches (((pieces p.text.toList).take hi).take lo)
    (((pieces p.text.toList).take hi).drop lo)).2
  rw [List.take_append_drop, intercalate_pieces] at early
  rw [List.take_append_drop] at late
  rw [slice, String.toList_ofList]
  exact late.trans early

/-- Behind a directory that is not empty, all components are numbered ones. -/
theorem map_drop_numberedComponents {p : Path} {led rest : List Component}
    (parted : p.components = led ++ rest) (some_led : led ≠ []) :
    (p.numberedComponents.drop (p.numberedComponents.length - rest.length)).map (·.2) = rest := by
  have whole := (components_eq_numbered p).symm.trans parted
  have behind : ∃ front, p.numberedComponents.map (·.2) = front ++ rest := by
    cases absolute : p.isAbsolute with
    | false =>
      rw [absolute] at whole
      exact ⟨led, whole⟩
    | true =>
      rw [absolute] at whole
      cases led with
      | nil => exact absurd rfl some_led
      | cons first front => exact ⟨front, (List.cons.inj whole).2⟩
  obtain ⟨front, mapped⟩ := behind
  have count : p.numberedComponents.length - rest.length = front.length := by
    have lengths := congrArg List.length mapped
    rw [List.length_map, List.length_append] at lengths
    omega
  rw [count, List.map_drop, mapped, List.drop_left]

/-- What a path is below a directory: a stretch of its text, whose components follow those of the
directory. -/
theorem below?_eq_some {p base : Path} {text : String} (h : p.below? base = some text) :
    base.components ++ (Path.mk text).components = p.components ∧
      text.toList <:+: p.text.toList := by
  unfold below? at h
  cases told : dropStart? p.components base.components with
  | none =>
    rw [told] at h
    cases h
  | some rest =>
    have parted := dropStart?_eq_some_iff.mp told
    rw [told] at h
    dsimp only at h
    by_cases top : base.components = []
    · rw [if_pos top] at h
      rw [top, List.nil_append]
      cases last : p.numberedComponents.getLast? with
      | none =>
        rw [last] at h
        simp only [Option.map_none, Option.getD_none, if_true] at h
        rw [List.getLast?_eq_none_iff] at last
        cases absolute : p.isAbsolute with
        | true =>
          rw [absolute] at h
          cases h
          have own : p.components = [.root] := by
            rw [components_eq_numbered, absolute, last]
            rfl
          rw [own]
          exact ⟨by decide, infix_of_isAbsolute absolute⟩
        | false =>
          rw [absolute] at h
          cases h
          have own : p.components = [] := by
            rw [components_eq_numbered, absolute, last]
            rfl
          rw [own]
          exact ⟨by decide, List.nil_infix⟩
      | some e =>
        obtain ⟨hi, c⟩ := e
        have counted : 0 < hi := lt_of_mem_go (List.mem_of_getLast? last)
        rw [last] at h
        simp only [Option.map_some, Option.getD_some, if_neg (Nat.ne_of_gt counted)] at h
        cases h
        obtain ⟨init, whole⟩ := List.getLast?_eq_some_iff.mp last
        refine ⟨?_, slice_stretch p 0 hi⟩
        rw [components_slice whole, components_eq_numbered, whole]
        simp
    · rw [if_neg top] at h
      have onward := map_drop_numberedComponents parted top
      split at h
      · rename_i none_left
        rw [none_left] at onward
        cases h
        rw [parted, ← onward]
        exact ⟨by simp [show (Path.mk "").components = [] by decide], List.nil_infix⟩
      · rename_i lo c after left
        rw [left] at onward
        cases last : p.numberedComponents.getLast? with
        | none =>
          rw [List.getLast?_eq_none_iff] at last
          rw [last] at left
          simp at left
        | some e =>
          obtain ⟨hi, d⟩ := e
          rw [last] at h
          cases h
          refine ⟨?_, slice_stretch p _ _⟩
          have numbered : p.numberedComponents =
              p.numberedComponents.take (p.numberedComponents.length - rest.length) ++
                (lo, c) :: after := by
            rw [← left, List.take_append_drop]
          rw [Option.map_some, Option.getD_some, components_stretch numbered last, parted, ← onward]
          rfl

end Path

end RouteManifest
