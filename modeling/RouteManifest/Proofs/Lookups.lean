import RouteManifest.Proofs.Levels

/-!
# Names in a resolved module

Which names mean what a module itself binds, by the scopes around them, and that resolving gives the
level one to exactly those. Nodes that are no names keep their shape wherever names are looked up.
-/

namespace RouteManifest.Script

def Shape.unresolved : Shape → Bool
  | .ident _ level _ => level == 0
  | _ => true

/-- No name in the tree has a level yet. -/
def Tree.unresolved : Tree → Bool
  | node shape _ parts => shape.unresolved && all parts
where
  all : List Tree → Bool
    | [] => true
    | p :: ps => unresolved p && all ps

theorem Tree.unresolved_of_mem_parts {t p : Tree} (h : t.unresolved = true) (member : p ∈ t.parts) :
    p.unresolved = true := by
  obtain ⟨shape, span, parts⟩ := t
  rw [unresolved, Bool.and_eq_true] at h
  have each := h.2
  clear h
  induction parts with
  | nil => cases member
  | cons q qs ih =>
    rw [unresolved.all, Bool.and_eq_true] at each
    rcases List.mem_cons.mp member with rfl | member
    · exact each.1
    · exact ih member each.2

theorem Tree.unresolved_part {t : Tree} (h : t.unresolved = true) (i : Nat) :
    (t.part i).unresolved = true := by
  cases there : t.parts[i]? with
  | none =>
    rw [part_eq_absent there]
    rfl
  | some p =>
    rw [part_eq_of_getElem? there]
    exact unresolved_of_mem_parts h (List.mem_of_getElem? there)

/-- Wherever a name stands in an unresolved tree, its level is zero. -/
theorem Tree.level_eq_zero {t u : Tree} (h : t.unresolved = true) {address : Address}
    (found : t.at? address = some u) {name : String} {level : Nat} {isOptional : Bool}
    (form : u.shape = .ident name level isOptional) : level = 0 := by
  induction address generalizing t with
  | nil =>
    cases found
    obtain ⟨shape, span, parts⟩ := u
    cases form
    rw [unresolved, Bool.and_eq_true] at h
    exact beq_iff_eq.mp h.1
  | cons i below ih =>
    rw [at?_cons, Option.bind_eq_some_iff] at found
    obtain ⟨p, there, found⟩ := found
    exact ih (unresolved_of_mem_parts h (List.mem_of_getElem? there)) found

namespace Scope

/-- A name at an address of a module means what the module itself binds: the outermost of the scopes
around it has the name, and no other scope has. -/
def MeansModule (t : Tree) (address : Address) (name : String) : Prop :=
  ∃ inner top, scopesAt t address = some (inner ++ [top]) ∧ name ∈ top ∧
    ∀ names ∈ inner, name ∉ names

theorem level_eq_one_iff {env : Env} {name : String} :
    level env name = 1 ↔
      ∃ inner top, env = inner ++ [top] ∧ name ∈ top ∧ ∀ names ∈ inner, name ∉ names := by
  induction env with
  | nil => simp [level]
  | cons names outer ih =>
    rw [level]
    by_cases here : name ∈ names
    · rw [if_pos (List.contains_iff_mem.mpr here)]
      constructor
      · intro last
        have alone : outer = [] := List.length_eq_zero_iff.mp (by omega)
        exact ⟨[], names, by rw [alone]; rfl, here, by simp⟩
      · rintro ⟨inner, top, split, _, free⟩
        cases inner with
        | nil =>
          cases split
          rfl
        | cons first inner =>
          cases split
          exact absurd here (free names List.mem_cons_self)
    · rw [if_neg (mt List.contains_iff_mem.mp here), ih]
      constructor
      · rintro ⟨inner, top, rfl, bound, free⟩
        exact ⟨names :: inner, top, rfl, bound, List.forall_mem_cons.mpr ⟨here, free⟩⟩
      · rintro ⟨inner, top, split, bound, free⟩
        cases inner with
        | nil =>
          cases split
          exact absurd bound here
        | cons first inner =>
          cases split
          exact ⟨inner, top, rfl, bound, (List.forall_mem_cons.mp free).2⟩

theorem levelled_eq_ident_iff {env : Env} {shape : Shape} {name : String} {l : Nat}
    {isOptional : Bool} :
    levelled env shape = .ident name l isOptional ↔
      l = level env name ∧ ∃ own, shape = .ident name own isOptional := by
  unfold levelled
  split
  · constructor
    · intro h
      cases h
      exact ⟨rfl, _, rfl⟩
    · rintro ⟨rfl, own, same⟩
      cases same
      rfl
  · rename_i other
    constructor
    · rintro rfl
      exact absurd rfl (other _ _ _)
    · rintro ⟨_, own, same⟩
      exact absurd same (other _ _ _)

/-- Resolving changes no shape but that of names. -/
theorem levelled_eq_iff {env : Env} {shape other : Shape}
    (h : ∀ name l isOptional, other ≠ .ident name l isOptional) :
    levelled env shape = other ↔ shape = other := by
  unfold levelled
  split
  · constructor
    · intro same
      exact absurd same.symm (h _ _ _)
    · intro same
      exact absurd same.symm (h _ _ _)
  · exact Iff.rfl

theorem Place.at?_append (place : Place) (t : Tree) (a b : Address) :
    place.at? t (a ++ b) =
      (place.at? t a).bind fun q => (t.at? a).bind fun p => q.at? p b := by
  induction a generalizing place t with
  | nil => rfl
  | cons i a ih =>
    rw [List.cons_append, Place.at?, Place.at?, Tree.at?_cons]
    cases t.parts[i]? with
    | none => rfl
    | some p =>
      cases (place.parts t)[i]?.join with
      | none => rfl
      | some q => exact ih q p

theorem name?_eq_some_iff {t : Tree} {name : String} :
    t.name? = some name ↔ ∃ l isOptional, t.shape = .ident name l isOptional := by
  unfold Tree.name?
  split
  · constructor
    · intro h
      cases h
      exact ⟨_, _, rfl⟩
    · rintro ⟨l, isOptional, same⟩
      cases same
      rfl
  · rename_i other
    constructor
    · exact fun h => (nomatch h)
    · rintro ⟨l, isOptional, same⟩
      obtain ⟨shape, span, parts⟩ := t
      cases same
      exact absurd rfl (other _ _ _ _ _)

/-- What stands at an address of a resolved module. -/
theorem at?_resolve (t : Tree) (address : Address) :
    match (Place.plain []).at? t address with
    | some q => ∃ p m, t.at? address = some p ∧ p.height ≤ m ∧
        (resolve t).at? address = some (q.pass (resolveIn m) p)
    | none => ∀ u, (resolve t).at? address = some u → t.at? address = some u ∨ u = .absent :=
  at?_pass (Nat.le_refl t.height) (.plain []) address

/-- A name with a level is one that was looked up among scopes. -/
theorem at?_resolve_ident_iff {t : Tree} (unresolved : t.unresolved = true) {address : Address}
    {name : String} {l : Nat} (bound : l ≠ 0) :
    (∃ u isOptional, (resolve t).at? address = some u ∧ u.shape = .ident name l isOptional) ↔
      ∃ p env, t.at? address = some p ∧ p.name? = some name ∧ scopesAt t address = some env ∧
        level env name = l := by
  have run := at?_resolve t address
  unfold scopesAt
  cases seen : (Place.plain []).at? t address with
  | none =>
    rw [seen] at run
    constructor
    · rintro ⟨u, isOptional, found, form⟩
      rcases run u found with same | rfl
      · exact absurd (Tree.level_eq_zero unresolved same form) bound
      · cases form
    · rintro ⟨_, _, _, _, told, _⟩
      cases told
  | some q =>
    rw [seen] at run
    obtain ⟨p, m, found, enough, resolved⟩ := run
    have shape := shape_pass enough q
    rw [Option.bind_some]
    cases among : q.env? with
    | none =>
      rw [among] at shape
      constructor
      · rintro ⟨u, isOptional, found', form⟩
        cases resolved.symm.trans found'
        exact absurd (Tree.level_eq_zero unresolved found (shape.symm.trans form)) bound
      · rintro ⟨_, _, _, _, told, _⟩
        cases told
    | some env =>
      rw [among] at shape
      constructor
      · rintro ⟨u, isOptional, found', form⟩
        cases resolved.symm.trans found'
        obtain ⟨same, own, form⟩ := levelled_eq_ident_iff.mp (shape.symm.trans form)
        exact ⟨p, env, found, name?_eq_some_iff.mpr ⟨own, isOptional, form⟩, rfl, same.symm⟩
      · rintro ⟨p', env', found', named, told, rfl⟩
        cases told
        cases found.symm.trans found'
        obtain ⟨own, isOptional, form⟩ := name?_eq_some_iff.mp named
        refine ⟨_, isOptional, resolved, shape.trans ?_⟩
        exact levelled_eq_ident_iff.mpr ⟨rfl, own, form⟩

/-- Where names are looked up, nothing but names changes its shape. -/
theorem at?_resolve_shape_iff {t : Tree} {address : Address}
    (seen : (Place.plain []).at? t address ≠ none) {shape : Shape}
    (h : ∀ name l isOptional, shape ≠ .ident name l isOptional) :
    (∃ u, (resolve t).at? address = some u ∧ u.shape = shape) ↔
      ∃ p, t.at? address = some p ∧ p.shape = shape := by
  have run := at?_resolve t address
  cases place : (Place.plain []).at? t address with
  | none => exact absurd place seen
  | some q =>
    rw [place] at run
    obtain ⟨p, m, found, enough, resolved⟩ := run
    have same : (q.pass (resolveIn m) p).shape = shape ↔ p.shape = shape := by
      rw [shape_pass enough q]
      cases q.env? with
      | none => exact Iff.rfl
      | some env => exact levelled_eq_iff h
    simp only [found, resolved, Option.some.injEq, exists_eq_left']
    exact same

/-- A node whose parts all stand among the scopes that it stands among itself. -/
def Transparent (env : Env) (t : Tree) : Prop :=
  Place.ofParts env t = t.parts.map fun _ => some (.plain env)

theorem parts_resolveIn {n : Nat} {env : Env} {t : Tree} (enough : t.height ≤ n)
    (open' : Transparent env t) (h : ∀ flags, t.shape ≠ .function flags) :
    ∃ m, (∀ p ∈ t.parts, p.height ≤ m) ∧
      (resolveIn n env t).parts = t.parts.map (resolveIn m env) := by
  cases n with
  | zero =>
    obtain ⟨shape, span, parts⟩ := t
    cases enough
  | succ m =>
    refine ⟨m, fun p member => ?_, ?_⟩
    · have := Tree.height_lt_of_mem_parts member
      omega
    · rw [resolveIn_succ m env t h, open', Place.zipWith_turn_plain]
      rfl

theorem part_resolveIn {n : Nat} {env : Env} {t : Tree} (enough : t.height ≤ n)
    (open' : Transparent env t) (h : ∀ flags, t.shape ≠ .function flags) (i : Nat) :
    ∃ m, (t.part i).height ≤ m ∧ (resolveIn n env t).part i = resolveIn m env (t.part i) := by
  obtain ⟨m, inside, parts⟩ := parts_resolveIn enough open' h
  cases there : t.parts[i]? with
  | none =>
    have gone : (resolveIn n env t).parts[i]? = none := by simp [parts, there]
    rw [Tree.part_eq_absent there, Tree.part_eq_absent gone]
    exact ⟨1, Nat.le_refl 1, (resolveIn_absent 1 env).symm⟩
  | some p =>
    have kept : (resolveIn n env t).parts[i]? = some (resolveIn m env p) := by simp [parts, there]
    rw [Tree.part_eq_of_getElem? there, Tree.part_eq_of_getElem? kept]
    exact ⟨m, inside p (List.mem_of_getElem? there), rfl⟩

end Scope

end RouteManifest.Script
