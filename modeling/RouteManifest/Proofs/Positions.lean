import RouteManifest.Proofs.Extension

/-!
# Trees up to positions

A text says more than the tree that it is read as means: where each node stands, and how a string is
written. Two trees are alike if nothing else sets them apart. A tree has grown into another if the
other is like an extension of it; the parts that were there before then stand at the addresses that
they had, and what was added stands behind them.
-/

namespace RouteManifest.Script

deriving instance DecidableEq for Shape

/-- Whether two trees are equal is told part by part. -/
def Tree.decideEq : (t u : Tree) → Decidable (t = u)
  | .node shape span parts, .node shape' span' parts' =>
    if head : shape = shape' ∧ span = span' then
      match all parts parts' with
      | .isTrue same => .isTrue (by rw [head.1, head.2, same])
      | .isFalse other => .isFalse fun same => other (Tree.node.inj same).2.2
    else .isFalse fun same => head ⟨(Tree.node.inj same).1, (Tree.node.inj same).2.1⟩
where
  all : (ts us : List Tree) → Decidable (ts = us)
    | [], [] => .isTrue rfl
    | [], _ :: _ => .isFalse fun same => nomatch same
    | _ :: _, [] => .isFalse fun same => nomatch same
    | t :: ts, u :: us =>
      match decideEq t u, all ts us with
      | .isTrue first, .isTrue rest => .isTrue (by rw [first, rest])
      | .isFalse other, _ => .isFalse fun same => other (List.cons.inj same).1
      | _, .isFalse other => .isFalse fun same => other (List.cons.inj same).2

instance : DecidableEq Tree := Tree.decideEq

/-- The shape without what only the text tells: where dots stand, and how a string is written. -/
def Shape.placeless : Shape → Shape
  | .spread _ => .spread .nowhere
  | .restPattern _ => .restPattern .nowhere
  | .stringLit value _ => .stringLit value none
  | shape => shape

/-- The shape has nothing that only the text tells. -/
def Shape.isPlaceless : Shape → Bool
  | .spread _ | .restPattern _ | .stringLit _ _ => false
  | _ => true

namespace Shape

theorem placeless_eq_iff {shape other : Shape} (plain : other.isPlaceless = true) :
    shape.placeless = other ↔ shape = other := by
  unfold placeless
  split
  · constructor
    · rintro rfl
      cases plain
    · rintro rfl
      cases plain
  · constructor
    · rintro rfl
      cases plain
    · rintro rfl
      cases plain
  · constructor
    · rintro rfl
      cases plain
    · rintro rfl
      cases plain
  · exact Iff.rfl

theorem placeless_eq_stringLit_iff {shape : Shape} {value : String} :
    shape.placeless = .stringLit value none ↔ ∃ raw, shape = .stringLit value raw := by
  unfold placeless
  split
  · simp
  · simp
  · simp
  · rename_i other
    constructor
    · intro same
      exact absurd same (other _ _)
    · rintro ⟨raw, same⟩
      exact absurd same (other _ _)

/-- Of two shapes that are alike, both are a given one or none is. -/
theorem eq_iff_of_placeless {one two : Shape} (alike : one.placeless = two.placeless)
    {shape : Shape} (plain : shape.isPlaceless = true) : one = shape ↔ two = shape := by
  rw [← placeless_eq_iff plain, alike, placeless_eq_iff plain]

theorem stringLit_iff_of_placeless {one two : Shape} (alike : one.placeless = two.placeless)
    {value : String} :
    (∃ raw, one = .stringLit value raw) ↔ ∃ raw, two = .stringLit value raw := by
  rw [← placeless_eq_stringLit_iff, alike, placeless_eq_stringLit_iff]

end Shape

namespace Tree

/-- The tree without what only the text tells of its nodes. -/
def placeless : Tree → Tree
  | node shape _ parts => node shape.placeless .nowhere (all parts)
where
  all : List Tree → List Tree
    | [] => []
    | p :: ps => placeless p :: all ps

theorem all_placeless_eq (parts : List Tree) : placeless.all parts = parts.map placeless := by
  induction parts with
  | nil => rfl
  | cons p ps ih => rw [placeless.all, ih, List.map_cons]

theorem placeless_eq (t : Tree) :
    t.placeless = node t.shape.placeless .nowhere (t.parts.map placeless) := by
  obtain ⟨shape, span, parts⟩ := t
  rw [placeless, all_placeless_eq]
  rfl

@[simp] theorem shape_placeless (t : Tree) : t.placeless.shape = t.shape.placeless := by
  rw [placeless_eq]
  rfl

theorem placeless_eq_iff {t u : Tree} :
    t.placeless = u.placeless ↔
      t.shape.placeless = u.shape.placeless ∧ t.parts.map placeless = u.parts.map placeless := by
  rw [t.placeless_eq, u.placeless_eq]
  simp

/-- A tree has grown into another by the given parts behind the parts of its nodes. -/
def Grown (more : Address → List Tree) (t u : Tree) : Prop :=
  u.placeless = (t.extended more).placeless

namespace Grown

variable {more : Address → List Tree} {t u : Tree}

theorem of_extended (more : Address → List Tree) (t : Tree) : Grown more t (t.extended more) := rfl

theorem of_placeless (same : u.placeless = t.placeless) : Grown (fun _ => []) t u := by
  rw [Grown, extended_nothing]
  exact same

/-- A tree grows in the shapes and in the parts of its nodes. -/
theorem iff_parts :
    Grown more t u ↔ u.shape.placeless = t.shape.placeless ∧
      u.parts.map placeless =
        (t.parts.mapIdx fun k p => p.extended fun below => more (k :: below)).map placeless ++
          (more []).map placeless := by
  rw [Grown, placeless_eq_iff, extended_eq]
  simp only [shape_withParts, parts_withParts, List.map_append]

/-- A tree grows if its shape stays, its parts grow, and behind them stands what was added. -/
theorem of_parts (shape : u.shape.placeless = t.shape.placeless)
    (kept : ∀ (k : Nat) (p : Tree), t.parts[k]? = some p →
      ∃ q, u.parts[k]? = some q ∧ Grown (fun below => more (k :: below)) p q)
    (behind : ∀ k : Nat, t.parts[k]? = none →
      u.parts[k]?.map placeless = (more [])[k - t.parts.length]?.map placeless) :
    Grown more t u := by
  refine iff_parts.mpr ⟨shape, List.ext_getElem? fun k => ?_⟩
  cases there : t.parts[k]? with
  | some p =>
    have bound := (List.getElem?_eq_some_iff.mp there).1
    obtain ⟨q, found, grown⟩ := kept k p there
    rw [List.getElem?_append_left (by simpa using bound)]
    simp only [List.getElem?_map, List.getElem?_mapIdx, there, found]
    exact congrArg some grown
  | none =>
    have before := List.getElem?_eq_none_iff.mp there
    rw [List.getElem?_append_right (by simpa using before)]
    simpa using behind k there

theorem shape (h : Grown more t u) : u.shape.placeless = t.shape.placeless :=
  (iff_parts.mp h).1

theorem shape_iff (h : Grown more t u) {shape : Shape} (plain : shape.isPlaceless = true) :
    u.shape = shape ↔ t.shape = shape :=
  Shape.eq_iff_of_placeless h.shape plain

theorem length (h : Grown more t u) : u.parts.length = t.parts.length + (more []).length := by
  have same := congrArg List.length (iff_parts.mp h).2
  simpa using same

/-- A part that was there stands where it stood. -/
theorem part (h : Grown more t u) {k : Nat} {p : Tree} (there : t.parts[k]? = some p) :
    ∃ q, u.parts[k]? = some q ∧ Grown (fun below => more (k :: below)) p q := by
  have bound := (List.getElem?_eq_some_iff.mp there).1
  have same := congrArg (fun parts : List Tree => parts[k]?) (iff_parts.mp h).2
  simp only [List.getElem?_map] at same
  rw [List.getElem?_append_left (by simpa using bound), List.getElem?_map, List.getElem?_mapIdx,
    there, Option.map_some, Option.map_some, Option.map_eq_some_iff] at same
  exact same

/-- Behind the parts that were there stands what was added. -/
theorem behind (h : Grown more t u) {k : Nat} (gone : t.parts[k]? = none) :
    u.parts[k]?.map placeless = (more [])[k - t.parts.length]?.map placeless := by
  have before := List.getElem?_eq_none_iff.mp gone
  have same := congrArg (fun parts : List Tree => parts[k]?) (iff_parts.mp h).2
  simp only [List.getElem?_map] at same
  rw [List.getElem?_append_right (by simpa using before), List.getElem?_map] at same
  simpa using same

/-- A part is one that was there, or it was added. -/
theorem part_or_added (h : Grown more t u) {k : Nat} {q : Tree} (found : u.parts[k]? = some q) :
    (∃ p, t.parts[k]? = some p ∧ Grown (fun below => more (k :: below)) p q) ∨
      t.parts[k]? = none ∧ ∃ p ∈ more [], q.placeless = p.placeless := by
  cases there : t.parts[k]? with
  | some p =>
    obtain ⟨q', found', grown⟩ := h.part there
    cases found.symm.trans found'
    exact Or.inl ⟨p, rfl, grown⟩
  | none =>
    have same := h.behind there
    rw [found] at same
    obtain ⟨p, added, alike⟩ := Option.map_eq_some_iff.mp same.symm
    exact Or.inr ⟨rfl, p, List.mem_of_getElem? added, alike.symm⟩

/-- Where nothing was added, the parts are those that were there. -/
theorem part_of_nothing (h : Grown more t u) (nothing : more [] = []) {k : Nat} {q : Tree}
    (found : u.parts[k]? = some q) :
    ∃ p, t.parts[k]? = some p ∧ Grown (fun below => more (k :: below)) p q := by
  rcases h.part_or_added found with kept | ⟨_, p, added, _⟩
  · exact kept
  · rw [nothing] at added
    cases added

/-- A node stands where it stood. -/
theorem at? (h : Grown more t u) {address : Address} {p : Tree} (there : t.at? address = some p) :
    ∃ q, u.at? address = some q ∧ Grown (fun below => more (address ++ below)) p q := by
  induction address generalizing t u more with
  | nil =>
    cases there
    exact ⟨u, rfl, h⟩
  | cons k address ih =>
    rw [at?_cons, Option.bind_eq_some_iff] at there
    obtain ⟨inner, inside, below⟩ := there
    obtain ⟨q, found, grown⟩ := h.part inside
    rw [at?_cons, found]
    exact ih grown below

/-- A node is one that was there, or it stands in something that was added. -/
theorem at?_or_added (h : Grown more t u) {address : Address} {q : Tree}
    (found : u.at? address = some q) :
    (∃ p, t.at? address = some p ∧ Grown (fun below => more (address ++ below)) p q) ∨
      ∃ outer k inner, ∃ p added : Tree, address = outer ++ k :: inner ∧ p ∈ more outer ∧
        added.placeless = p.placeless ∧ added.at? inner = some q := by
  induction address generalizing t u more with
  | nil =>
    cases found
    exact Or.inl ⟨t, rfl, h⟩
  | cons k address ih =>
    rw [at?_cons, Option.bind_eq_some_iff] at found
    obtain ⟨q', inside, below⟩ := found
    rcases h.part_or_added inside with ⟨p, there, grown⟩ | ⟨_, p, member, alike⟩
    · rcases ih grown below with ⟨inner, there', grown'⟩ | ⟨outer, i, inner, p', added, rfl, rest⟩
      · refine Or.inl ⟨inner, ?_, grown'⟩
        rw [at?_cons, there]
        exact there'
      · exact Or.inr ⟨k :: outer, i, inner, p', added, rfl, rest⟩
    · exact Or.inr ⟨[], k, address, p, q', rfl, member, alike, below⟩

/-- What has grown may grow further where it was before. -/
theorem extended (h : Grown more t u) {further : Address → List Tree}
    (there : ∀ address, further address ≠ [] → t.at? address ≠ none) :
    Grown (fun address => more address ++ further address) t (u.extended further) := by
  induction t using parts_induction generalizing more further u with
  | step t ih =>
    rw [extended_eq]
    refine of_parts ?_ (fun k p inside => ?_) fun k gone => ?_
    · rw [shape_withParts]
      exact h.shape
    · obtain ⟨q, found, grown⟩ := h.part inside
      have bound := (List.getElem?_eq_some_iff.mp found).1
      refine ⟨q.extended fun below => further (k :: below), ?_,
        ih p (List.mem_of_getElem? inside) grown fun below added => ?_⟩
      · rw [parts_withParts, List.getElem?_append_left (by simpa using bound), List.getElem?_mapIdx,
          found, Option.map_some]
      · have := there (k :: below) added
        rwa [at?_cons, inside] at this
    · -- behind the parts of before nothing grows further
      have nothing : (fun below => further (k :: below)) = fun _ => [] := by
        funext below
        refine Classical.byContradiction fun added => there (k :: below) added ?_
        rw [at?_cons, gone]
        rfl
      have before := List.getElem?_eq_none_iff.mp gone
      have length := h.length
      have same := h.behind gone
      by_cases bound : k < u.parts.length
      · rw [parts_withParts, List.getElem?_append_left (by simpa using bound), List.getElem?_mapIdx,
          nothing, List.getElem?_append_left (by omega)]
        simpa [extended_nothing] using same
      · rw [parts_withParts, List.getElem?_append_right (by simp; omega),
          List.getElem?_append_right (by omega), List.length_mapIdx, length, Nat.sub_add_eq]

end Grown

end Tree

end RouteManifest.Script
