import RouteManifest.Proofs.Addresses

/-!
# Trees extended behind their parts

A tree may be extended at many addresses at once: every node receives further parts behind those
that it has, and nothing else changes. What was added can be taken away again, and one more part at
one place is the smallest extension.
-/

namespace RouteManifest.Script.Tree

/-- The tree with further parts behind the parts of its nodes, told by the addresses of the
nodes. -/
def extended (more : Address → List Tree) : Tree → Tree
  | node shape span parts => node shape span (inParts more 0 parts ++ more [])
where
  inParts (more : Address → List Tree) (i : Nat) : List Tree → List Tree
    | [] => []
    | p :: ps => extended (fun below => more (i :: below)) p :: inParts more (i + 1) ps

/-- The tree without the last parts of its nodes, as many as are told for the addresses of the
nodes. -/
def shortened (fewer : Address → Nat) : Tree → Tree
  | node shape span parts =>
    node shape span ((inParts fewer 0 parts).take (parts.length - fewer []))
where
  inParts (fewer : Address → Nat) (i : Nat) : List Tree → List Tree
    | [] => []
    | p :: ps => shortened (fun below => fewer (i :: below)) p :: inParts fewer (i + 1) ps

theorem inParts_extended_eq (more : Address → List Tree) (i : Nat) (parts : List Tree) :
    extended.inParts more i parts =
      parts.mapIdx fun k p => p.extended fun below => more ((i + k) :: below) := by
  induction parts generalizing i with
  | nil => rfl
  | cons p ps ih =>
    rw [extended.inParts, ih, List.mapIdx_cons]
    simp only [Nat.add_zero, Nat.add_assoc, Nat.add_comm 1]

theorem inParts_shortened_eq (fewer : Address → Nat) (i : Nat) (parts : List Tree) :
    shortened.inParts fewer i parts =
      parts.mapIdx fun k p => p.shortened fun below => fewer ((i + k) :: below) := by
  induction parts generalizing i with
  | nil => rfl
  | cons p ps ih =>
    rw [shortened.inParts, ih, List.mapIdx_cons]
    simp only [Nat.add_zero, Nat.add_assoc, Nat.add_comm 1]

theorem extended_eq (more : Address → List Tree) (t : Tree) :
    t.extended more = t.withParts
      ((t.parts.mapIdx fun k p => p.extended fun below => more (k :: below)) ++ more []) := by
  obtain ⟨shape, span, parts⟩ := t
  rw [extended, inParts_extended_eq]
  simp only [Nat.zero_add]
  rfl

theorem shortened_eq (fewer : Address → Nat) (t : Tree) :
    t.shortened fewer = t.withParts
      ((t.parts.mapIdx fun k p => p.shortened fun below => fewer (k :: below)).take
        (t.parts.length - fewer [])) := by
  obtain ⟨shape, span, parts⟩ := t
  rw [shortened, inParts_shortened_eq]
  simp only [Nat.zero_add]
  rfl

theorem extended_nothing (t : Tree) : t.extended (fun _ => []) = t := by
  induction t using parts_induction with
  | step t ih =>
    have same : (t.parts.mapIdx fun _ p => p.extended fun _ => []) = t.parts := by
      apply List.ext_getElem
      · simp
      · intro k _ bound
        rw [List.getElem_mapIdx]
        exact ih _ (List.getElem_mem bound)
    rw [extended_eq, same, List.append_nil, withParts_parts]

/-- Taking away as much as was added gives the tree back. -/
theorem shortened_extended (more : Address → List Tree) (t : Tree) :
    (t.extended more).shortened (fun a => (more a).length) = t := by
  induction t using parts_induction generalizing more with
  | step t ih =>
    have same : (t.parts.mapIdx fun k p =>
        (p.extended fun below => more (k :: below)).shortened
          fun below => (more (k :: below)).length) = t.parts := by
      apply List.ext_getElem
      · simp
      · intro k _ bound
        rw [List.getElem_mapIdx]
        exact ih _ (List.getElem_mem bound) _
    have length : (t.parts.length + (more []).length) - (more []).length = t.parts.length :=
      Nat.add_sub_cancel _ _
    rw [shortened_eq, extended_eq]
    simp only [parts_withParts, withParts_withParts, List.mapIdx_append, List.mapIdx_mapIdx,
      List.length_append, List.length_mapIdx, length]
    rw [List.take_left' (by simp)]
    exact (congrArg t.withParts same).trans t.withParts_parts

/-- One more part behind a node that is there. -/
theorem changeAt_extended (more : Address → List Tree) (t : Tree) (address : Address)
    (there : t.at? address ≠ none) (p : Tree) :
    (t.extended more).changeAt (fun u => u.withParts (u.parts ++ [p])) address =
      t.extended fun b => more b ++ if b = address then [p] else [] := by
  induction address generalizing t more with
  | nil =>
    rw [changeAt, extended_eq, extended_eq]
    simp
  | cons i below ih =>
    rw [at?_cons] at there
    cases inside : t.parts[i]? with
    | none => simp [inside] at there
    | some q =>
      rw [inside] at there
      have part := ih (fun below => more (i :: below)) q there
      rw [changeAt_cons, extended_eq, extended_eq, parts_withParts, withParts_withParts]
      refine congrArg t.withParts (List.ext_getElem? fun k => ?_)
      rw [List.getElem?_modify]
      by_cases bound : k < t.parts.length
      · rw [List.getElem?_append_left (by simpa using bound),
          List.getElem?_append_left (by simpa using bound), List.getElem?_mapIdx,
          List.getElem?_mapIdx]
        by_cases same : i = k
        · subst same
          simp [inside, part]
        · have other : k ≠ i := fun h => same h.symm
          simp [same, other]
      · have behind : t.parts.length ≤ k := by omega
        have past : i ≠ k := by
          have := (List.getElem?_eq_some_iff.mp inside).1
          omega
        rw [List.getElem?_append_right (by simpa using behind),
          List.getElem?_append_right (by simpa using behind)]
        simp [past]

end RouteManifest.Script.Tree
