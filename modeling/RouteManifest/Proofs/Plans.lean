import RouteManifest.Proofs.Extension

/-!
# Plans and the trees they make

Carrying out a plan extends a tree, as long as the plan speaks of places that are there. Plans for
parts in a row are joined below the numbers of the parts, and stay distinct if each of them is: no
place is spoken of twice, so that a plan has at most one list of names for it.
-/

namespace RouteManifest.Routes.Plan

open Script

/-- The properties that a plan adds to the node at an address. -/
def added (plan : Plan) (address : Address) : List Tree :=
  (plan.filter (·.address = address)).map (exportsProperty ·.names)

/-- Carrying out a plan extends a tree, if all that the plan speaks of is there. -/
theorem carryOut_extended (plan : Plan) (t : Tree) (more : Address → List Tree)
    (there : ∀ a ∈ plan, t.at? a.address ≠ none) :
    plan.carryOut (t.extended more) = t.extended fun b => more b ++ plan.added b := by
  induction plan generalizing more with
  | nil => simp [carryOut, added]
  | cons a rest ih =>
    have first := t.changeAt_extended more a.address (there a List.mem_cons_self)
      (exportsProperty a.names)
    have others := ih (fun b => more b ++ if b = a.address then [exportsProperty a.names] else [])
      fun b member => there b (List.mem_cons_of_mem a member)
    calc carryOut (a :: rest) (t.extended more)
      _ = carryOut rest ((t.extended more).changeAt (withExports a.names) a.address) := rfl
      _ = carryOut rest (t.extended fun b =>
            more b ++ if b = a.address then [exportsProperty a.names] else []) :=
        congrArg (carryOut rest) first
      _ = t.extended fun b => more b ++ added (a :: rest) b := by
        rw [others]
        congr 1
        funext b
        by_cases same : b = a.address
        · simp [added, same]
        · have other : a.address ≠ b := fun h => same h.symm
          simp [added, same, other]

theorem carryOut_eq_extended (plan : Plan) (t : Tree)
    (there : ∀ a ∈ plan, t.at? a.address ≠ none) :
    plan.carryOut t = t.extended plan.added := by
  have whole := plan.carryOut_extended t (fun _ => []) there
  simpa [Tree.extended_nothing] using whole

/-- No two additions go to one place. -/
def Distinct (plan : Plan) : Prop := plan.Pairwise fun x y => x.address ≠ y.address

/-- The plans for parts in a row, each below the number of its part, from number `i` on. -/
def joined (i : Nat) : List Plan → Plan
  | [] => []
  | plan :: rest => below [i] plan ++ joined (i + 1) rest

theorem mem_below_iff {outer : Address} {plan : Plan} {address : Address}
    {names : List String} :
    ⟨address, names⟩ ∈ below outer plan ↔
      ∃ inner, address = outer ++ inner ∧ ⟨inner, names⟩ ∈ plan := by
  rw [below, List.mem_map]
  constructor
  · rintro ⟨x, member, same⟩
    cases same
    exact ⟨x.address, rfl, member⟩
  · rintro ⟨inner, rfl, member⟩
    exact ⟨_, member, rfl⟩

theorem mem_joined_iff {i : Nat} {plans : List Plan} {address : Address}
    {names : List String} :
    ⟨address, names⟩ ∈ joined i plans ↔
      ∃ k plan inner, plans[k]? = some plan ∧ address = (i + k) :: inner ∧
        ⟨inner, names⟩ ∈ plan := by
  induction plans generalizing i with
  | nil => simp [joined]
  | cons plan rest ih =>
    rw [joined, List.mem_append, ih, mem_below_iff]
    constructor
    · rintro (⟨inner, same, member⟩ | ⟨k, plan', inner, there, same, member⟩)
      · exact ⟨0, plan, inner, rfl, same, member⟩
      · exact ⟨k + 1, plan', inner, there, by rwa [show i + (k + 1) = i + 1 + k by omega], member⟩
    · rintro ⟨k, plan', inner, there, same, member⟩
      cases k with
      | zero =>
        cases there
        exact Or.inl ⟨inner, same, member⟩
      | succ k =>
        refine Or.inr ⟨k, plan', inner, there, ?_, member⟩
        rwa [show i + 1 + k = i + (k + 1) by omega]

theorem distinct_nil : Distinct [] := List.Pairwise.nil

theorem distinct_append_iff {first second : Plan} :
    Distinct (first ++ second) ↔
      first.Distinct ∧ second.Distinct ∧ ∀ address names names',
        ⟨address, names⟩ ∈ first → ⟨address, names'⟩ ∉ second := by
  rw [Distinct, List.pairwise_append]
  refine and_congr_right fun _ => and_congr_right fun _ => ?_
  constructor
  · intro apart address names names' one other
    exact apart _ one _ other rfl
  · rintro apart ⟨address, names⟩ one ⟨_, names'⟩ other rfl
    exact apart address names names' one other

theorem Distinct.below {plan : Plan} (distinct : plan.Distinct) (outer : Address) :
    (below outer plan).Distinct := by
  refine List.pairwise_map.mpr (List.Pairwise.imp ?_ distinct)
  intro x y apart same
  exact apart (List.append_cancel_left same)

theorem distinct_joined {i : Nat} {plans : List Plan} (each : ∀ plan ∈ plans, plan.Distinct) :
    (joined i plans).Distinct := by
  induction plans generalizing i with
  | nil => exact distinct_nil
  | cons plan rest ih =>
    rw [List.forall_mem_cons] at each
    refine distinct_append_iff.mpr ⟨each.1.below [i], ih each.2, ?_⟩
    intro address names names' one other
    obtain ⟨inner, rfl, _⟩ := mem_below_iff.mp one
    obtain ⟨k, _, inner', _, same, _⟩ := mem_joined_iff.mp other
    have := (List.cons.inj same).1
    omega

/-- The names that a plan has for an address. -/
def namesAt (plan : Plan) (address : Address) : Option (List String) :=
  (plan.find? (·.address = address)).map (·.names)

theorem namesAt_eq_some_iff {plan : Plan} (distinct : plan.Distinct) {address : Address}
    {names : List String} : plan.namesAt address = some names ↔ ⟨address, names⟩ ∈ plan := by
  induction plan with
  | nil => simp [namesAt]
  | cons a rest ih =>
    obtain ⟨apart, distinct⟩ := List.pairwise_cons.mp distinct
    by_cases same : a.address = address
    · subst same
      have alone : ⟨a.address, names⟩ ∉ rest := fun member => apart _ member rfl
      simp only [namesAt, List.find?_cons_of_pos, decide_true, Option.map_some, Option.some.injEq,
        List.mem_cons, alone, or_false]
      constructor
      · rintro rfl
        rfl
      · intro h
        exact (congrArg Addition.names h).symm
    · have other : (⟨address, names⟩ : Addition) ≠ a := by
        intro h
        exact same (congrArg Addition.address h).symm
      rw [List.mem_cons, or_iff_right other, ← ih distinct]
      simp [namesAt, same]

theorem added_eq_of_distinct {plan : Plan} (distinct : plan.Distinct) (address : Address) :
    plan.added address = (plan.namesAt address).toList.map exportsProperty := by
  induction plan with
  | nil => rfl
  | cons a rest ih =>
    obtain ⟨apart, distinct⟩ := List.pairwise_cons.mp distinct
    by_cases same : a.address = address
    · have alone : rest.filter (·.address = address) = [] := by
        refine List.filter_eq_nil_iff.mpr fun b member h => ?_
        exact apart b member (same.trans (of_decide_eq_true h).symm)
      simp [added, namesAt, same, alone]
    · have others := ih distinct
      simpa [added, namesAt, same] using others

end RouteManifest.Routes.Plan
