import RouteManifest.Proofs.Calls

/-!
# Names and where they occur

Names of a tree in the order of the addresses at which they occur: what is told so of parts is told
of the node that they make up, and leaving out what was there before leaves every name at its first
place.
-/

namespace RouteManifest.Script

/-- A list has the names that occur at addresses, by the order of the addresses. -/
def InOrder (names : List String) (occurs : Address → String → Prop) : Prop :=
  ∃ found : List (Address × String), names = found.map (·.2) ∧
    (found.Pairwise fun x y => x.1 < y.1) ∧
      ∀ address name, (address, name) ∈ found ↔ occurs address name

namespace InOrder

variable {names others : List String} {occurs occurs' : Address → String → Prop}

theorem congr (h : InOrder names occurs) (same : ∀ a n, occurs a n ↔ occurs' a n) :
    InOrder names occurs' := by
  obtain ⟨found, told, sorted, members⟩ := h
  exact ⟨found, told, sorted, fun a n => (members a n).trans (same a n)⟩

theorem nothing (none : ∀ a n, ¬ occurs a n) : InOrder [] occurs :=
  ⟨[], rfl, .nil, fun a n => ⟨fun member => (nomatch member), fun h => absurd h (none a n)⟩⟩

/-- At most one name, at one address. -/
theorem toList {name? : Option String} (address : Address)
    (one : ∀ a n, occurs a n ↔ a = address ∧ name? = some n) : InOrder name?.toList occurs := by
  cases name? with
  | none => exact nothing fun a n h => nomatch ((one a n).mp h).2
  | some name =>
    refine ⟨[(address, name)], rfl, List.pairwise_singleton _ _, fun a n => ?_⟩
    rw [one, List.mem_singleton, Prod.mk.injEq, Option.some.injEq, @eq_comm _ name n]

theorem append (h : InOrder names occurs) (h' : InOrder others occurs')
    (before : ∀ a n b m, occurs a n → occurs' b m → a < b) :
    InOrder (names ++ others) fun a n => occurs a n ∨ occurs' a n := by
  obtain ⟨found, rfl, sorted, members⟩ := h
  obtain ⟨found', rfl, sorted', members'⟩ := h'
  refine ⟨found ++ found', List.map_append.symm, ?_, fun a n => ?_⟩
  · refine List.pairwise_append.mpr ⟨sorted, sorted', ?_⟩
    rintro ⟨a, n⟩ one ⟨b, m⟩ other
    exact before a n b m ((members a n).mp one) ((members' b m).mp other)
  · rw [List.mem_append, members, members']

/-- Names in a part of a node. -/
theorem below (h : InOrder names occurs) (k : Nat) :
    InOrder names fun a n => ∃ inner, a = k :: inner ∧ occurs inner n := by
  obtain ⟨found, rfl, sorted, members⟩ := h
  refine ⟨found.map fun x => (k :: x.1, x.2), by simp, ?_, fun a n => ?_⟩
  · exact List.pairwise_map.mpr
      (sorted.imp fun less => List.cons_lt_cons_iff.mpr (Or.inr ⟨rfl, less⟩))
  · rw [List.mem_map]
    constructor
    · rintro ⟨⟨inner, name⟩, member, same⟩
      cases same
      exact ⟨inner, rfl, (members inner name).mp member⟩
    · rintro ⟨inner, rfl, here⟩
      exact ⟨(inner, n), (members inner n).mpr here, rfl⟩

/-- Names in nodes in a row, of which the first has the number `i`. -/
theorem flatMap_from {items : List Tree} {f : Tree → List String}
    {occurs : Tree → Address → String → Prop} (each : ∀ p ∈ items, InOrder (f p) (occurs p))
    (i : Nat) : InOrder (items.flatMap f) fun a n =>
      ∃ k p inner, items[k]? = some p ∧ a = (i + k) :: inner ∧ occurs p inner n := by
  induction items generalizing i with
  | nil => exact nothing (by simp)
  | cons p ps ih =>
    rw [List.forall_mem_cons] at each
    rw [List.flatMap_cons]
    refine ((each.1.below i).append (ih each.2 (i + 1)) ?_).congr fun a n => ?_
    · rintro _ n _ m ⟨inner, rfl, _⟩ ⟨k, q, inner', _, rfl, _⟩
      exact List.cons_lt_cons_iff.mpr (Or.inl (by omega))
    · constructor
      · rintro (⟨inner, rfl, here⟩ | ⟨k, q, inner, there, rfl, here⟩)
        · exact ⟨0, p, inner, rfl, rfl, here⟩
        · exact ⟨k + 1, q, inner, there, by rw [show i + (k + 1) = i + 1 + k by omega], here⟩
      · rintro ⟨k, q, inner, there, rfl, here⟩
        cases k with
        | zero =>
          cases there
          exact Or.inl ⟨inner, rfl, here⟩
        | succ k =>
          exact Or.inr ⟨k, q, inner, there, by rw [show i + (k + 1) = i + 1 + k by omega], here⟩

theorem flatMap {items : List Tree} {f : Tree → List String}
    {occurs : Tree → Address → String → Prop} (each : ∀ p ∈ items, InOrder (f p) (occurs p)) :
    InOrder (items.flatMap f) fun a n =>
      ∃ i p inner, items[i]? = some p ∧ a = i :: inner ∧ occurs p inner n := by
  simpa only [Nat.zero_add] using flatMap_from each 0

/-- The occurrences of names of which there is none earlier. -/
theorem eraseDups (h : InOrder names occurs) :
    InOrder names.eraseDups fun a n => occurs a n ∧ ∀ b < a, ¬ occurs b n := by
  obtain ⟨found, rfl, sorted, members⟩ := h
  simp only [← members]
  clear members
  induction size : found.length using Nat.strongRecOn generalizing found with
  | ind k ih =>
    match found, sorted with
    | [], _ => exact nothing (by simp)
    | (first, name) :: rest, sorted =>
      obtain ⟨later, sorted⟩ := List.pairwise_cons.mp sorted
      have shorter : (rest.filter fun x => !x.2 == name).length < k := by
        have := List.length_filter_le (fun x : Address × String => !x.2 == name) rest
        rw [List.length_cons] at size
        omega
      have kept : ∀ b m, (b, m) ∈ (rest.filter fun x => !x.2 == name) ↔
          (b, m) ∈ rest ∧ m ≠ name := by
        simp
      have others := ih _ shorter _ (sorted.filter _) rfl
      simp only [kept] at others
      have own : InOrder (some name).toList fun a n => a = first ∧ some name = some n :=
        toList first fun a n => Iff.rfl
      have split : (((first, name) :: rest).map (·.2)).eraseDups =
          (some name).toList ++ ((rest.filter fun x => !x.2 == name).map (·.2)).eraseDups := by
        rw [List.map_cons, List.eraseDups_cons, List.filter_map]
        rfl
      rw [split]
      refine (own.append others ?_).congr fun a n => ?_
      · rintro _ _ b m ⟨rfl, _⟩ ⟨⟨member, _⟩, _⟩
        exact later (b, m) member
      · constructor
        · rintro (⟨rfl, same⟩ | ⟨⟨member, other⟩, none⟩)
          · cases same
            refine ⟨List.mem_cons_self, fun b less again => ?_⟩
            rcases List.mem_cons.mp again with same | again
            · cases same
              exact List.lt_irrefl _ less
            · exact List.lt_irrefl _ (List.lt_trans less (later _ again))
          · refine ⟨List.mem_cons_of_mem _ member, fun b less again => ?_⟩
            rcases List.mem_cons.mp again with same | again
            · cases same
              exact other rfl
            · exact none b less ⟨again, other⟩
        · rintro ⟨member, none⟩
          rcases List.mem_cons.mp member with same | member
          · cases same
            exact Or.inl ⟨rfl, rfl⟩
          · have other : n ≠ name := fun same =>
              none first (later _ member) (same ▸ List.mem_cons_self)
            exact Or.inr ⟨⟨member, other⟩,
              fun b less again => none b less (List.mem_cons_of_mem _ again.1)⟩

/-- Names that occur nowhere earlier are told once. -/
theorem nodup (h : InOrder names fun a n => occurs a n ∧ ∀ b < a, ¬ occurs b n) : names.Nodup := by
  obtain ⟨found, rfl, sorted, members⟩ := h
  refine List.pairwise_map.mpr (sorted.imp_of_mem ?_)
  rintro ⟨a, n⟩ ⟨b, m⟩ one other less same
  cases same
  exact ((members b n).mp other).2 a less ((members a n).mp one).1

end InOrder

end RouteManifest.Script
