import RouteManifest.Proofs.Lookups
import RouteManifest.Proofs.EquippedPlaces

/-!
# Names in equipped trees mean what they meant

Resolving a tree whose routes have further export names gives every name of before the level that it
had, and nothing of what was added has a level. The step follows the places of the parts of a node;
the run is by induction on the tree. How much fuel there is does not matter, as long as it is enough.
-/

namespace RouteManifest.Routes

open Script Scope

theorem length_ofParts (env : Env) (t : Tree) (h : ∀ flags, t.shape ≠ .function flags) :
    (Place.ofParts env t).length = t.parts.length := by
  unfold Place.ofParts
  split
  all_goals try simp only [List.length_map, List.length_mapIdx, List.length_cons, List.length_nil,
    Tree.parts_node]
  · exact absurd rfl (h _)

theorem length_resolveIn {n : Nat} {t : Tree} (enough : t.height ≤ n) (env : Env) :
    (resolveIn n env t).parts.length = (Place.ofParts env t).length := by
  cases n with
  | zero =>
    obtain ⟨shape, span, parts⟩ := t
    cases enough
  | succ n =>
    by_cases isFunction : ∃ flags, t.shape = .function flags
    · obtain ⟨flags, form⟩ := isFunction
      obtain ⟨shape, span, parts⟩ := t
      cases form
      rfl
    · have other : ∀ flags, t.shape ≠ .function flags := fun flags form => isFunction ⟨flags, form⟩
      rw [resolveIn_succ n env t other, Tree.parts_node, List.length_zipWith,
        length_ofParts env t other, Nat.min_self]

/-- There is a part for each place. -/
theorem length_pass {n : Nat} {t : Tree} (enough : t.height ≤ n) (place : Scope.Place) :
    (place.pass (resolveIn n) t).parts.length = (place.parts t).length := by
  cases place with
  | plain env => exact length_resolveIn enough env
  | function known outer => rfl
  | parameters known outer =>
    rw [Place.pass, Tree.parts_withParts, parameters_eq, List.length_zipWith]
    simp [Place.parts]
  | parameter known outer =>
    have length := length_resolveIn enough (known :: outer)
    simpa [Place.pass, Place.parts, Tree.setPart] using length
  | statements names outer =>
    rw [Place.pass, Tree.parts_withParts, statements_eq, List.length_zipWith]
    simp [Place.parts]
  | clauses outer =>
    rw [Place.pass, Tree.parts_withParts, cases_eq, List.length_zipWith]
    simp [Place.parts]
  | clause known outer => rfl
  | classBody own outer =>
    have length := length_resolveIn enough (own :: outer)
    simpa [Place.pass, Place.parts, Tree.setPart] using length
  | exported env =>
    rw [pass_exported, Tree.parts_withParts, List.length_zipWith, parts_exported]
    split
    · split
      · rename_i two
        rw [two]
        rfl
      · simp
    · simp

/-- A property for export names, as a text has it. -/
theorem form_of_added {q : Tree} {names : List String}
    (alike : q.placeless = (exportsProperty names).placeless) :
    ∃ span key value, q = .node .keyValue span [key, value] ∧
      key.shape = .ident exportsKey 0 false ∧ value.shape = .arrayLit ∧
        ∀ l ∈ value.parts, (∃ name raw, l.shape = .stringLit name raw) ∧ l.parts = [] := by
  obtain ⟨shape, span, parts⟩ := q
  obtain ⟨form, same⟩ := Tree.placeless_eq_iff.mp alike
  have form' : shape = .keyValue := (Shape.placeless_eq_iff rfl).mp form
  subst form'
  have two : parts.length = 2 := by simpa [exportsProperty] using congrArg List.length same
  obtain ⟨key, value, rfl⟩ := List.length_eq_two.mp two
  simp only [exportsProperty, Tree.parts_node, List.map_cons, List.map_nil,
    List.cons.injEq, and_true] at same
  obtain ⟨isKey, isValue⟩ := same
  obtain ⟨value', elements⟩ := Tree.placeless_eq_iff.mp isValue
  refine ⟨span, key, value, rfl, ?_, (Shape.placeless_eq_iff rfl).mp value', ?_⟩
  · exact (Shape.placeless_eq_iff rfl).mp (Tree.placeless_eq_iff.mp isKey).1
  · intro l member
    have inside : l.placeless ∈ value.parts.map Tree.placeless := List.mem_map_of_mem member
    rw [elements, Tree.parts_node, List.map_map, List.mem_map] at inside
    obtain ⟨name, _, literal⟩ := inside
    obtain ⟨isString, none⟩ := Tree.placeless_eq_iff.mp literal.symm
    obtain ⟨raw, isString⟩ := Shape.placeless_eq_stringLit_iff.mp isString
    exact ⟨⟨name, raw, isString⟩, List.map_eq_nil_iff.mp none⟩

/-- What was added has no names that are looked up. -/
theorem resolveIn_added {q : Tree} {names : List String}
    (alike : q.placeless = (exportsProperty names).placeless) (n : Nat) (env : Env) :
    resolveIn n env q = q := by
  obtain ⟨span, k, value, rfl, isKey, isArray, literals⟩ := form_of_added alike
  have leaf : ∀ l ∈ value.parts, ∀ n, resolveIn n env l = l := by
    rintro ⟨shape, span, parts⟩ member n
    obtain ⟨⟨name, raw, isString⟩, none⟩ := literals _ member
    cases isString
    cases none
    cases n with
    | zero => rfl
    | succ n => rfl
  have array : ∀ n, resolveIn n env value = value := by
    intro n
    obtain ⟨shape, span, parts⟩ := value
    cases isArray
    cases n with
    | zero => rfl
    | succ n =>
      have elements : parts.map (resolveIn n env) = parts :=
        (List.map_congr_left fun l member => leaf l member n).trans parts.map_id
      calc resolveIn (n + 1) env (.node .arrayLit span parts)
        _ = .node .arrayLit span (parts.map (resolveIn n env)) := rfl
        _ = .node .arrayLit span parts := by rw [elements]
  cases n with
  | zero => rfl
  | succ n =>
    have unlooked : key (resolveIn n) env k = k := by rw [key, isKey]; rfl
    calc resolveIn (n + 1) env (.node .keyValue span [k, value])
      _ = .node .keyValue span [key (resolveIn n) env k, resolveIn n env value] := rfl
      _ = .node .keyValue span [k, value] := by rw [unlooked, array]

theorem receives_plain (env : Env) : Receives (.plain env) := Or.inl ⟨env, rfl⟩

theorem receives_ofBody (known : List String) (outer : Env) (inner : Tree) :
    Receives (Place.ofBody known outer inner) := by
  unfold Place.ofBody
  split
  · exact Or.inr (Or.inr ⟨_, _, rfl⟩)
  · exact receives_plain _

theorem not_receives_clauses (outer : Env) : ¬ Receives (.clauses outer) := by
  rintro (⟨_, same⟩ | ⟨_, _, same⟩ | ⟨_, _, same⟩)
  all_goals cases same

theorem clauses_ne_ofBody (env : Env) (known : List String) (outer : Env) (inner : Tree) :
    Place.clauses env ≠ Place.ofBody known outer inner := fun same =>
  not_receives_clauses env (same ▸ receives_ofBody known outer inner)

theorem ofParts_arrayLit (env : Env) {array : Tree} (isArray : array.shape = .arrayLit) :
    Place.ofParts env array = array.parts.map fun _ => some (.plain env) := by
  obtain ⟨shape, span, parts⟩ := array
  cases isArray
  rfl

theorem eq_plain_of_map {α : Type} {env : Env} {xs : List α} {k : Nat} {q : Scope.Place}
    (stands : (xs.map fun _ => some (Place.plain env))[k]? = some (some q)) : q = .plain env := by
  rw [List.getElem?_map, Option.map_eq_some_iff] at stands
  obtain ⟨_, _, same⟩ := stands
  exact (Option.some.inj same).symm

/-- The elements of an array can receive something, unless the array stands as the cases of a
`switch`. -/
theorem receives_of_element {place q : Scope.Place} {array p : Tree} {k : Nat}
    (isArray : array.shape = .arrayLit) (noCases : ∀ outer, place ≠ .clauses outer)
    (there : array.parts[k]? = some p) (object : p.shape = .objectLit)
    (stands : (place.parts array)[k]? = some (some q)) : Receives q := by
  have plain : ∀ env, (Place.ofParts env array)[k]? = some (some q) → Receives q := by
    intro env stands
    rw [ofParts_arrayLit env isArray] at stands
    rw [eq_plain_of_map stands]
    exact receives_plain env
  cases place with
  | plain env => exact plain env stands
  | function known outer =>
    rcases k with _ | _ | _ | _ | _ | k
    all_goals cases stands
    · exact Or.inr (Or.inl ⟨_, _, rfl⟩)
    · exact receives_plain _
    · exact receives_ofBody _ _ _
    · exact receives_plain _
    · exact receives_plain _
  | parameters known outer =>
    rw [Place.parts, List.getElem?_mapIdx, there] at stands
    cases stands
    rw [Place.ofParameter, object]
    exact receives_plain _
  | parameter known outer =>
    rw [Place.parts, List.getElem?_set] at stands
    split at stands
    · split at stands
      · cases stands
        exact receives_plain _
      · cases stands
    · exact plain _ stands
  | statements names outer =>
    rw [Place.parts, List.getElem?_mapIdx, there] at stands
    cases stands
    exact receives_plain _
  | clauses outer => exact absurd rfl (noCases outer)
  | clause known outer =>
    rcases k with _ | _ | k
    all_goals cases stands
    · exact receives_plain _
    · exact Or.inr (Or.inr ⟨_, _, rfl⟩)
  | classBody own outer =>
    rw [Place.parts, List.getElem?_set] at stands
    split at stands
    · split at stands
      · cases stands
        exact receives_plain _
      · cases stands
    · exact plain _ stands
  | exported env =>
    rw [parts_exported, isArray] at stands
    rw [eq_plain_of_map stands]
    exact receives_plain env

/-- The cases of a `switch` are its second part, if it stands on its own. -/
theorem isSwitch_of_ofParts {env outer : Env} {t : Tree} {k : Nat}
    (stands : (Place.ofParts env t)[k]? = some (some (.clauses outer))) :
    k = 1 ∧ t.shape = .switchStmt := by
  have form : t.shape = .switchStmt := by
    have member := List.mem_of_getElem? stands
    unfold Place.ofParts at member
    -- no other form of node has a part that stands as cases
    split at member
    all_goals first
      | rfl
      | simp [Place.ofKey, Place.ofFunction, clauses_ne_ofBody] at member
  refine ⟨?_, form⟩
  obtain ⟨shape, span, parts⟩ := t
  cases form
  have many : (parts.map fun _ => some (Place.plain env))[k]? ≠ some (some (.clauses outer)) := by
    intro stands
    cases eq_plain_of_map stands
  rcases parts with _ | ⟨_, _ | ⟨_, _ | ⟨_, rest⟩⟩⟩
  · exact absurd stands many
  · exact absurd stands many
  · rcases k with _ | _ | k
    · cases stands
    · rfl
    · cases stands
  · exact absurd stands many

theorem isSwitch_of_clauses {place : Scope.Place} {t : Tree} {k : Nat} {outer : Env}
    (stands : (place.parts t)[k]? = some (some (.clauses outer))) :
    k = 1 ∧ t.shape = .switchStmt := by
  have no : ∀ q : Scope.Place, Receives q → some (some q) ≠ some (some (Place.clauses outer)) :=
    fun q receives same => by
      cases same
      exact not_receives_clauses outer receives
  cases place with
  | plain env => exact isSwitch_of_ofParts stands
  | function known outer' =>
    rcases k with _ | _ | _ | k
    · cases stands
    · cases stands
    · exact absurd stands (no _ (receives_ofBody _ _ _))
    · rcases k with _ | _ | k
      all_goals cases stands
  | parameters known outer' =>
    rw [Place.parts, List.getElem?_mapIdx, Option.map_eq_some_iff] at stands
    obtain ⟨p, _, same⟩ := stands
    unfold Place.ofParameter at same
    split at same
    all_goals cases same
  | parameter known outer' =>
    rw [Place.parts, List.getElem?_set] at stands
    split at stands
    · split at stands
      all_goals cases stands
    · exact isSwitch_of_ofParts stands
  | statements names outer' =>
    rw [Place.parts, List.getElem?_mapIdx, Option.map_eq_some_iff] at stands
    obtain ⟨_, _, same⟩ := stands
    cases same
  | clauses outer' =>
    rw [Place.parts, List.getElem?_mapIdx, Option.map_eq_some_iff] at stands
    obtain ⟨_, _, same⟩ := stands
    cases same
  | clause known outer' =>
    rcases k with _ | _ | k
    all_goals cases stands
  | classBody own outer' =>
    rw [Place.parts, List.getElem?_set] at stands
    split at stands
    · split at stands
      all_goals cases stands
    · exact isSwitch_of_ofParts stands
  | exported env =>
    rw [parts_exported] at stands
    split at stands
    · split at stands
      · rcases k with _ | _ | k
        all_goals cases stands
      · cases eq_plain_of_map stands
    · cases eq_plain_of_map stands

theorem Fits.part {more : Address → List Tree} {place q : Scope.Place} {t p : Tree} {k : Nat}
    (fits : Fits more place) (keeps : KeepsToElements more t) (there : t.parts[k]? = some p)
    (stands : (place.parts t)[k]? = some (some q)) : Fits (fun below => more (k :: below)) q := by
  refine ⟨fun added => ?_, fun outer clauses j => ?_⟩
  · obtain ⟨array, here, isArray⟩ := keeps.inArrays [] k added
    obtain ⟨object, here', isObject⟩ := keeps.objects [k] added
    rw [Tree.at?_cons, there] at here'
    cases here
    cases here'
    exact receives_of_element isArray (fun outer same => added (fits.noCases outer same k)) there
      isObject stands
  · subst clauses
    obtain ⟨rfl, isSwitch⟩ := isSwitch_of_clauses stands
    exact Classical.byContradiction fun added => keeps.noCases [] j t added rfl isSwitch

theorem placeless_levelled (env : Env) (shape : Shape) :
    (levelled env shape).placeless = levelled env shape.placeless := by
  cases shape with
  | _ => rfl

theorem map_const_eq_mapIdx {α β : Type} (xs : List α) (b : β) :
    (xs.map fun _ => b) = xs.mapIdx fun _ _ => b := by
  refine List.ext_getElem (by simp) fun i _ _ => ?_
  simp

namespace Equipped

variable {more : Address → List Tree} {t u : Tree}

/-- How each part of an object literal stands that can receive properties: what was added stands on
its own. -/
theorem places_of_receives (h : Equipped more t u) (object : t.shape = .objectLit)
    {place : Scope.Place} (receives : Receives place) :
    ∃ stand : Nat → Tree → Scope.Place,
      place.parts t = (t.parts.mapIdx fun i p => some (stand i p)) ∧
      place.parts u = (u.parts.mapIdx fun i q => some (stand i q)) ∧
      (∀ i more p q, Equipped more p q → stand i q = stand i p) ∧
      ∀ i names q, q.placeless = (exportsProperty names).placeless →
        ∃ env, stand i q = .plain env := by
  rcases receives with ⟨env, rfl⟩ | ⟨known, outer, rfl⟩ | ⟨names, outer, rfl⟩
  · have told : ∀ t : Tree, t.shape = .objectLit →
        Place.parts (.plain env) t = t.parts.mapIdx fun _ _ => some (.plain env) := by
      rintro ⟨shape, span, parts⟩ form
      cases form
      exact map_const_eq_mapIdx parts _
    exact ⟨fun _ _ => .plain env, told t object, told u ((h.grown.shape_iff rfl).mpr object),
      fun _ _ _ _ _ => rfl, fun _ _ _ _ => ⟨env, rfl⟩⟩
  · refine ⟨fun i p => Place.ofParameter (parameterNames known t.parts i) outer p, rfl, ?_,
      fun i more p q part => part.ofParameter_eq _ _,
      fun i names q alike => ⟨parameterNames known t.parts i :: outer, ?_⟩⟩
    · simp only [Place.parts, h.parameterNames_eq]
    · have shape := (Shape.placeless_eq_iff rfl).mp (shape_of_added alike)
      simp only [Place.ofParameter, shape]
  · refine ⟨fun i _ => .plain (statementNames names t.parts i :: outer), rfl, ?_,
      fun _ _ _ _ _ => rfl, fun _ _ _ _ => ⟨_, rfl⟩⟩
    simp only [Place.parts, h.statementNames_eq]

/-- A part that was there stands as it did. -/
theorem place_eq (h : Equipped more t u) {place : Scope.Place} (fits : Fits more place) {k : Nat}
    {p : Tree} (there : t.parts[k]? = some p) :
    (place.parts u)[k]? = (place.parts t)[k]? := by
  by_cases nothing : more [] = []
  · rw [h.places_eq nothing fits]
  · obtain ⟨object, here, isObject⟩ := h.objects [] nothing
    cases here
    obtain ⟨stand, before, after, same, _⟩ := h.places_of_receives isObject (fits.root nothing)
    obtain ⟨q, found, part⟩ := h.part there
    rw [before, after, List.getElem?_mapIdx, List.getElem?_mapIdx, there, found, Option.map_some,
      Option.map_some, same k _ p q part]

/-- A node whose parts do not fill its places receives nothing. -/
theorem nothing_of_padded (h : Equipped more t u) {place : Scope.Place} (fits : Fits more place)
    {k : Nat} (gone : t.parts[k]? = none) (stands : (place.parts t)[k]? ≠ none) :
    more [] = [] := by
  refine Classical.byContradiction fun added => stands ?_
  obtain ⟨object, here, isObject⟩ := h.objects [] added
  cases here
  obtain ⟨stand, before, _⟩ := h.places_of_receives isObject (fits.root added)
  rw [before, List.getElem?_mapIdx, gone]
  rfl

/-- Behind the parts of a node that was resolved stands what was added, as it was. -/
theorem behind_pass (h : Equipped more t u) {place : Scope.Place} (fits : Fits more place)
    {n m : Nat} (enough : t.height ≤ n) (enough' : u.height ≤ m) {k : Nat}
    (gone : (place.pass (resolveIn n) t).parts[k]? = none) :
    (place.pass (resolveIn m) u).parts[k]?.map Tree.placeless =
      (more [])[k - (place.pass (resolveIn n) t).parts.length]?.map Tree.placeless := by
  have length := length_pass enough place
  have length' := length_pass enough' place
  have before := List.getElem?_eq_none_iff.mp gone
  by_cases nothing : more [] = []
  · have behind : (place.pass (resolveIn m) u).parts[k]? = none := by
      rw [h.places_eq nothing fits] at length'
      exact List.getElem?_eq_none_iff.mpr (by omega)
    rw [behind, nothing]
    rfl
  · obtain ⟨object, here, isObject⟩ := h.objects [] nothing
    cases here
    obtain ⟨stand, places, places', _, alone⟩ := h.places_of_receives isObject (fits.root nothing)
    rw [places, List.length_mapIdx] at length
    rw [places', List.length_mapIdx] at length'
    have gone' : t.parts[k]? = none := List.getElem?_eq_none_iff.mpr (by omega)
    rw [length, ← h.grown.behind gone']
    cases found : u.parts[k]? with
    | none =>
      have := List.getElem?_eq_none_iff.mp found
      rw [List.getElem?_eq_none_iff.mpr (by omega)]
    | some q =>
      rcases h.part_or_added found with ⟨p, there, _⟩ | ⟨_, names, alike⟩
      · cases gone'.symm.trans there
      · obtain ⟨env, plain⟩ := alone k names q alike
        have step := step_pass enough' place k
        rw [places', List.getElem?_mapIdx, found, Option.map_some, plain] at step
        generalize after : (place.pass (resolveIn m) u).parts[k]? = result at step
        cases step with
        | @turned _ _ i enough =>
          have left : Place.turn (resolveIn i) (some (.plain env)) q = q :=
            resolveIn_added alike i env
          rw [left]

end Equipped

/-- A tree stays grown when its names are resolved. -/
theorem grown_pass {more : Address → List Tree} {t u : Tree} (h : Equipped more t u)
    {place : Scope.Place} (fits : Fits more place) {n m : Nat} (enough : t.height ≤ n)
    (enough' : u.height ≤ m) :
    Tree.Grown more (place.pass (resolveIn n) t) (place.pass (resolveIn m) u) := by
  induction t using Tree.parts_induction generalizing more u place n m with
  | step t ih =>
    refine .of_parts ?_ (fun k p' there' => ?_) fun k gone => h.behind_pass fits enough enough' gone
    · rw [shape_pass enough, shape_pass enough']
      cases place.env? with
      | none => exact h.grown.shape
      | some env =>
        rw [placeless_levelled, placeless_levelled, h.grown.shape]
    · have step := step_pass enough place k
      have step' := step_pass enough' place k
      rw [there'] at step
      cases there : t.parts[k]? with
      | some p =>
        obtain ⟨q, found, part⟩ := h.part there
        rw [h.place_eq fits there, found] at step'
        rw [there] at step
        generalize stands : (place.parts t)[k]? = stand at step step'
        generalize (place.pass (resolveIn m) u).parts[k]? = result at step' ⊢
        cases step with
        | turned enough =>
          cases step' with
          | turned enough' =>
            refine ⟨_, rfl, ?_⟩
            rename_i own _ _
            cases own with
            | none => exact part.grown
            | some own =>
              exact ih p (List.mem_of_getElem? there) part (fits.part h.toKeepsToElements there stands)
                enough enough'
      | none =>
        -- a place without a part is filled with a missing one in both trees
        rw [there] at step
        generalize stands : (place.parts t)[k]? = stand at step
        cases step with
        | padded =>
          have nothing := h.nothing_of_padded fits there (by simp [stands])
          have length := h.length_of_nothing nothing
          have filled := (List.getElem?_eq_some_iff.mp there').1
          have gone := List.getElem?_eq_none_iff.mp there
          have places := h.places_eq nothing fits
          rw [length_pass enough, ← places, ← length_pass enough'] at filled
          rw [places, stands, List.getElem?_eq_none_iff.mpr (by omega : u.parts.length ≤ k),
            List.getElem?_eq_getElem filled] at step'
          rw [List.getElem?_eq_getElem filled, h.nothing_behind there]
          generalize (place.pass (resolveIn m) u).parts[k] = result at step'
          cases step' with
          | padded => exact ⟨_, rfl, .of_placeless rfl⟩

/-- Resolving the names of an equipped tree gives the resolved tree with the same additions. -/
theorem grown_resolve {more : Address → List Tree} {t u : Tree} (h : Equipped more t u) :
    Tree.Grown more (resolve t) (resolve u) := by
  have fits : Fits more (.plain []) := by
    refine ⟨fun _ => receives_plain [], fun outer same => ?_⟩
    cases same
  exact grown_pass h fits (Nat.le_refl _) (Nat.le_refl _)

/-- A node of a resolved tree that is not missing had its shape before, if it is no name. -/
theorem at?_of_at?_resolve {t v : Tree} {address : Address}
    (found : (resolve t).at? address = some v) (there : v ≠ .absent) :
    ∃ p, t.at? address = some p ∧
      ∀ shape, (∀ name l isOptional, shape ≠ Shape.ident name l isOptional) →
        (v.shape = shape ↔ p.shape = shape) := by
  have run := at?_resolve t address
  cases place : (Place.plain []).at? t address with
  | none =>
    rw [place] at run
    rcases run v found with before | missing
    · exact ⟨v, before, fun _ _ => Iff.rfl⟩
    · exact absurd missing there
  | some q =>
    rw [place] at run
    obtain ⟨p, m, before, enough, after⟩ := run
    cases found.symm.trans after
    refine ⟨p, before, fun shape plain => ?_⟩
    rw [shape_pass enough q]
    cases q.env? with
    | none => exact Iff.rfl
    | some env => exact levelled_eq_iff plain

/-- What can be added to a resolved tree can be added before its names are resolved. -/
theorem KeepsToElements.of_resolve {more : Address → List Tree} {t : Tree}
    (h : KeepsToElements more (resolve t)) : KeepsToElements more t := by
  refine ⟨h.made, fun address added => ?_, fun address k added => ?_,
    fun address k v added found isSwitch => ?_⟩
  · obtain ⟨v, found, object⟩ := h.objects address added
    obtain ⟨p, before, same⟩ := at?_of_at?_resolve found fun missing => by
      rw [missing] at object
      cases object
    exact ⟨p, before, (same _ (by simp)).mp object⟩
  · obtain ⟨v, found, isArray⟩ := h.inArrays address k added
    obtain ⟨p, before, same⟩ := at?_of_at?_resolve found fun missing => by
      rw [missing] at isArray
      cases isArray
    exact ⟨p, before, (same _ (by simp)).mp isArray⟩
  · obtain ⟨_, inside, _⟩ := h.objects _ added
    rw [Tree.at?_append, Option.bind_eq_some_iff] at inside
    obtain ⟨after, above, below⟩ := inside
    obtain ⟨p, before, same⟩ := at?_of_at?_resolve above fun missing => by
      rw [missing] at below
      cases below
    cases found.symm.trans before
    exact h.noCases address k after added above ((same _ (by simp)).mpr isSwitch)

end RouteManifest.Routes
