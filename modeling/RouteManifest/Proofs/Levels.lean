import RouteManifest.Proofs.Resolution

/-!
# Levels of names

Resolving gives a name the level of the scope that binds it among the scopes around its place. One
step says what becomes of the parts of a node, of which some may be left out and some missing ones
put in where a node has not the parts of its shape; the run follows an address down.
-/

namespace RouteManifest.Script

theorem Tree.height_lt_of_mem_parts {t p : Tree} (h : p ∈ t.parts) : p.height < t.height := by
  have inside : ∀ ps : List Tree, p ∈ ps → p.height ≤ height.heights ps := by
    intro ps member
    induction ps with
    | nil => cases member
    | cons q qs ih =>
      rw [height.heights]
      rcases List.mem_cons.mp member with rfl | member
      · omega
      · have := ih member
        omega
  have := inside t.parts h
  obtain ⟨shape, span, parts⟩ := t
  rw [height]
  exact Nat.lt_succ_of_le this

namespace Scope

theorem parameters_eq (sub : Pass) (outer : Env) (known : List String) (items : List Tree) :
    (parameters sub outer known items).1 = List.zipWith (Place.turn sub)
      (items.mapIdx fun i p => some (Place.ofParameter (parameterNames known items i) outer p))
      items := by
  induction items generalizing known with
  | nil => rfl
  | cons p ps ih =>
    rw [List.mapIdx_cons, List.zipWith_cons_cons, parameters]
    refine congr (congrArg List.cons ?_) (ih _)
    unfold Place.ofParameter
    cases form : p.shape with
    | parameter => rfl
    | parameterProperty modifiers => rfl
    | _ => rfl

theorem cases_eq (sub : Pass) (outer : Env) (known : List String) (clauses : List Tree) :
    cases sub outer known clauses = List.zipWith (Place.turn sub)
      (clauses.mapIdx fun i _ => some (.clause (caseNames known clauses i) outer)) clauses := by
  induction clauses generalizing known with
  | nil => rfl
  | cons c cs ih =>
    rw [List.mapIdx_cons, List.zipWith_cons_cons, cases, ih]
    rfl

/-- What becomes of a part of a node, by the place that it has: it is turned, if there is a place
for it, and left out if there is none. A place without a part may be filled with a missing one. -/
inductive Step : Option (Option Place) → Option Tree → Option Tree → Prop
  | turned {place : Option Place} {p : Tree} {n : Nat} (enough : p.height ≤ n) :
      Step (some place) (some p) (some (Place.turn (resolveIn n) place p))
  | dropped {p : Tree} : Step none (some p) none
  | padded {place : Option Place} : Step (some place) none (some .absent)
  | missing {place : Option (Option Place)} : Step place none none

theorem step_zipWith {n : Nat} (places : List (Option Place)) (ps : List Tree)
    (enough : ∀ p ∈ ps, p.height ≤ n) (i : Nat) :
    Step places[i]? ps[i]? (List.zipWith (Place.turn (resolveIn n)) places ps)[i]? := by
  rw [List.getElem?_zipWith]
  cases there : ps[i]? with
  | none =>
    cases places[i]? with
    | none => exact .missing
    | some place => exact .missing
  | some p =>
    cases places[i]? with
    | none => exact .dropped
    | some place => exact .turned (enough p (List.mem_of_getElem? there))

theorem resolveIn_absent (n : Nat) (env : Env) : resolveIn n env .absent = .absent := by
  cases n with
  | zero => rfl
  | succ n => rfl

/-- A node that is put together from its parts by number, whether it has them or not. -/
theorem step_part {n : Nat} {t : Tree} (enough : ∀ p ∈ t.parts, p.height ≤ n) (place : Place)
    (i : Nat) (absent : place.pass (resolveIn n) .absent = .absent) :
    Step (some (some place)) t.parts[i]? (some (place.pass (resolveIn n) (t.part i))) := by
  cases there : t.parts[i]? with
  | none =>
    rw [Tree.part_eq_absent there, absent]
    exact .padded
  | some p =>
    rw [Tree.part_eq_of_getElem? there]
    exact @Step.turned (some place) p n (enough p (List.mem_of_getElem? there))

/-- A node of which one part stands outside of what the other parts stand in. -/
theorem step_set {n : Nat} {t : Tree} (enough : ∀ p ∈ t.parts, p.height ≤ n)
    {places : List (Option Place)} {after : List Tree}
    (each : ∀ i : Nat, Step places[i]? t.parts[i]? after[i]?) (k : Nat) (outer : Env) (i : Nat) :
    Step (places.set k (some (.plain outer)))[i]? t.parts[i]?
      (after.set k (resolveIn n outer (t.part k)))[i]? := by
  have before := each i
  by_cases same : k = i
  · subst same
    rw [List.getElem?_set_self', List.getElem?_set_self']
    generalize places[k]? = place at before
    generalize after[k]? = result at before
    cases there : t.parts[k]? with
    | none =>
      rw [there] at before
      rw [Tree.part_eq_absent there, resolveIn_absent]
      cases before with
      | padded => exact .padded
      | missing => exact .missing
    | some p =>
      rw [there] at before
      rw [Tree.part_eq_of_getElem? there]
      cases before with
      | turned _ =>
        exact @Step.turned (some (.plain outer)) p n (enough p (List.mem_of_getElem? there))
      | dropped => exact .dropped
  · rw [List.getElem?_set_ne same, List.getElem?_set_ne same]
    exact before

theorem step_none (p : Option Tree) : Step none p none := by
  cases p with
  | none => exact .missing
  | some p => exact .dropped

theorem step_function {n : Nat} {f : Tree} (enough : ∀ p ∈ f.parts, p.height ≤ n)
    (known : List String) (outer : Env) (i : Nat) :
    Step (Place.ofFunction known outer f)[i]? f.parts[i]?
      (functionNode (resolveIn n) outer known f).parts[i]? := by
  have block (names : List String) :
      (Place.ofBody names outer (f.part 2)).pass (resolveIn n) .absent = .absent := by
    unfold Place.ofBody
    split
    · rfl
    · exact resolveIn_absent n _
  rw [functionNode_eq, Tree.parts_withParts]
  match i with
  | 0 => exact step_part enough (.parameters _ _) 0 rfl
  | 1 => exact step_part enough (.plain _) 1 (resolveIn_absent n _)
  | 2 => exact step_part enough _ 2 (block _)
  | 3 => exact step_part enough (.plain _) 3 (resolveIn_absent n _)
  | 4 => exact step_part enough (.plain _) 4 (resolveIn_absent n _)
  | i + 5 => exact step_none _

theorem step_plain {n : Nat} {t : Tree} (enough : t.height ≤ n) (env : Env) (i : Nat) :
    Step (Place.ofParts env t)[i]? t.parts[i]? (resolveIn n env t).parts[i]? := by
  cases n with
  | zero =>
    obtain ⟨shape, span, parts⟩ := t
    cases enough
  | succ n =>
    have inside : ∀ p ∈ t.parts, p.height ≤ n := fun p member => by
      have := Tree.height_lt_of_mem_parts member
      omega
    by_cases isFunction : ∃ flags, t.shape = .function flags
    · obtain ⟨flags, form⟩ := isFunction
      obtain ⟨shape, span, parts⟩ := t
      cases form
      exact step_function inside [] env i
    · rw [resolveIn_succ n env t (fun flags form => isFunction ⟨flags, form⟩)]
      exact step_zipWith _ _ inside i

theorem shape_resolveIn {n : Nat} {t : Tree} (enough : t.height ≤ n) (env : Env) :
    (resolveIn n env t).shape = levelled env t.shape := by
  cases n with
  | zero =>
    obtain ⟨shape, span, parts⟩ := t
    cases enough
  | succ n =>
    by_cases isFunction : ∃ flags, t.shape = .function flags
    · obtain ⟨flags, form⟩ := isFunction
      obtain ⟨shape, span, parts⟩ := t
      cases form
      rfl
    · rw [resolveIn_succ n env t (fun flags form => isFunction ⟨flags, form⟩)]
      rfl

theorem pass_exported (sub : Pass) (env : Env) (t : Tree) :
    (Place.exported env).pass sub t =
      t.withParts (List.zipWith (Place.turn sub) (Place.parts (.exported env) t) t.parts) := by
  by_cases named : ∃ span name f, t = .node .functionExpr span [name, f]
  · obtain ⟨span, name, f, rfl⟩ := named
    rfl
  · have other : ∀ span name f, t ≠ .node .functionExpr span [name, f] := fun span name f same =>
      named ⟨span, name, f, same⟩
    have places : Place.parts (.exported env) t = t.parts.map fun _ => some (.plain env) := by
      simp [Place.parts]
    have passed : (Place.exported env).pass sub t = t.withParts (t.parts.map (sub env)) := by
      simp [Place.pass]
    rw [places, passed, Place.zipWith_turn_plain]

theorem shape_pass {n : Nat} {t : Tree} (enough : t.height ≤ n) (place : Place) :
    (place.pass (resolveIn n) t).shape =
      match place.env? with
      | some env => levelled env t.shape
      | none => t.shape := by
  cases place with
  | plain env => exact shape_resolveIn enough env
  | function known outer => rfl
  | parameters known outer => rfl
  | parameter known outer => exact shape_resolveIn enough (known :: outer)
  | statements names outer => rfl
  | clauses outer => rfl
  | clause known outer => rfl
  | classBody own outer => exact shape_resolveIn enough (own :: outer)
  | exported env =>
    rw [pass_exported]
    rfl

/-- One step of resolving, whatever the place. -/
theorem step_pass {n : Nat} {t : Tree} (enough : t.height ≤ n) (place : Place) (i : Nat) :
    Step (place.parts t)[i]? t.parts[i]? (place.pass (resolveIn n) t).parts[i]? := by
  have inside : ∀ p ∈ t.parts, p.height ≤ n := fun p member => by
    have := Tree.height_lt_of_mem_parts member
    omega
  cases place with
  | plain env => exact step_plain enough env i
  | function known outer => exact step_function inside known outer i
  | parameters known outer =>
    have turned := step_zipWith (Place.parts (.parameters known outer) t) t.parts inside i
    rw [Place.pass, Tree.parts_withParts, parameters_eq]
    exact turned
  | parameter known outer =>
    exact step_set inside (step_plain enough (known :: outer)) 0 outer i
  | statements names outer =>
    have turned := step_zipWith (Place.parts (.statements names outer) t) t.parts inside i
    rw [Place.pass, Tree.parts_withParts, statements_eq]
    exact turned
  | clauses outer =>
    have turned := step_zipWith (Place.parts (.clauses outer) t) t.parts inside i
    rw [Place.pass, Tree.parts_withParts, cases_eq]
    exact turned
  | clause known outer =>
    match i with
    | 0 => exact step_part inside (.plain _) 0 (resolveIn_absent n _)
    | 1 => exact step_part inside (.statements _ _) 1 rfl
    | i + 2 => exact step_none _
  | classBody own outer =>
    exact step_set inside (step_plain enough (own :: outer)) 2 outer i
  | exported env =>
    rw [pass_exported, Tree.parts_withParts]
    exact step_zipWith _ _ inside i

/-- Down an address: where names are looked up, resolving turns what stands there, and elsewhere it
leaves it as it is. -/
theorem at?_pass {n : Nat} {t : Tree} (enough : t.height ≤ n) (place : Place) (address : Address) :
    match place.at? t address with
    | some q => ∃ p m, t.at? address = some p ∧ p.height ≤ m ∧
        (place.pass (resolveIn n) t).at? address = some (q.pass (resolveIn m) p)
    | none => ∀ u, (place.pass (resolveIn n) t).at? address = some u →
        t.at? address = some u ∨ u = .absent := by
  induction address generalizing place t n with
  | nil => exact ⟨t, n, rfl, enough, rfl⟩
  | cons i below ih =>
    have step := step_pass enough place i
    rw [Place.at?, Tree.at?_cons, Tree.at?_cons]
    generalize (place.pass (resolveIn n) t).parts[i]? = after at step
    generalize (place.parts t)[i]? = inside at step
    generalize t.parts[i]? = before at step
    cases step with
    | @turned inside p m enough =>
      cases inside with
      | some inside => exact ih enough inside
      | none => exact fun u found => Or.inl found
    | dropped => exact fun u found => (nomatch found)
    | padded =>
      intro u found
      cases below with
      | nil =>
        cases found
        exact Or.inr rfl
      | cons j below => cases found
    | missing => exact fun u found => (nomatch found)

end Scope

end RouteManifest.Script
