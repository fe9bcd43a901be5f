import RouteManifest.Proofs.Equipping

/-!
# Arrays transformed again

Transforming an array of routes that was transformed before does the same once more: properties for
export names are behind all that a route had, so that what decides about the route still comes first
and alone. However often an array is transformed, and whatever is remembered in between, each route
with a module has one more property for its names from each time, and nothing else has changed.
-/

namespace RouteManifest.Routes

open Script

/-- The properties for the names that nodes receive, each so many times. -/
def copies (times : Nat) (received : Address → Option (List String)) (address : Address) :
    List Tree :=
  (received address).toList.flatMap fun names => List.replicate times (exportsProperty names)

theorem copies_zero (received : Address → Option (List String)) :
    copies 0 received = fun _ => [] := by
  funext address
  simp [copies]

theorem copies_succ (times : Nat) (received : Address → Option (List String)) (address : Address) :
    copies (times + 1) received address =
      copies times received address ++ ((received address).toList.map exportsProperty) := by
  unfold copies
  cases received address with
  | none => rfl
  | some names => simp [List.replicate_succ']

theorem eq_exportsProperty_of_mem_copies {times : Nat}
    {received : Address → Option (List String)} {address : Address} {p : Tree}
    (member : p ∈ copies times received address) : ∃ names, p = exportsProperty names := by
  obtain ⟨names, _, inside⟩ := List.mem_flatMap.mp member
  exact ⟨names, List.eq_of_mem_replicate inside⟩

theorem received_of_copies {times : Nat} {received : Address → Option (List String)}
    {address : Address} (some : copies times received address ≠ []) :
    ∃ names, received address = .some names := by
  cases told : received address with
  | none => simp [copies, told] at some
  | some names => exact ⟨names, rfl⟩

/-- Copies keep to the elements of arrays if what receives them does. -/
theorem keepsToElements_copies {t : Tree} {received : Address → Option (List String)}
    (objects : ∀ address names, received address = some names →
      ∃ u, t.at? address = some u ∧ u.shape = .objectLit)
    (inArrays : ∀ address k names, received (address ++ [k]) = some names →
      ∃ array, t.at? address = some array ∧ array.shape = .arrayLit)
    (keyValues : ∀ address k names, received (address ++ [1, k]) = some names →
      ∃ property, t.at? address = some property ∧ property.shape = .keyValue)
    (times : Nat) : KeepsToElements (copies times received) t := by
  refine ⟨fun address p => eq_exportsProperty_of_mem_copies, fun address added => ?_,
    fun address k added => ?_, fun address k u added found => ?_⟩
  · obtain ⟨names, told⟩ := received_of_copies added
    exact objects address names told
  · obtain ⟨names, told⟩ := received_of_copies added
    exact inArrays address k names told
  · obtain ⟨names, told⟩ := received_of_copies added
    obtain ⟨property, found', shape⟩ := keyValues address k names told
    cases found.symm.trans found'
    simp [shape]

namespace RouteAt

variable {array route : Tree}

theorem shape_eq {address : Address} (h : RouteAt array address route) :
    route.shape = .objectLit := by
  induction h with
  | element _ object => exact object
  | child _ _ _ _ _ _ ih => exact ih

theorem ne_nil {address : Address} (h : RouteAt array address route) : address ≠ [] := by
  cases h with
  | element _ _ => exact List.cons_ne_nil _ _
  | child _ _ _ _ _ _ => exact List.cons_ne_nil _ _

/-- A route is an element of an array. -/
theorem inArray {address : Address} {k : Nat} (h : RouteAt array (address ++ [k]) route)
    (isArray : array.shape = .arrayLit) :
    ∃ inner, array.at? address = some inner ∧ inner.shape = .arrayLit := by
  generalize same : address ++ [k] = whole at h
  induction h generalizing address with
  | element _ _ =>
    match address, same with
    | [], _ => exact ⟨_, rfl, isArray⟩
    | [_], same => cases same
  | @child array element key value route span i j below there _ inside _ isArray' place ih =>
    match address, same with
    | [], same => cases same
    | [_], same => cases same
    | [_, _], same =>
      cases same
      exact absurd rfl place.ne_nil
    | _ :: _ :: _ :: address, same =>
      cases same
      obtain ⟨inner, found, shape⟩ := ih isArray' rfl
      refine ⟨inner, ?_, shape⟩
      rw [Tree.at?_cons, there, Option.bind_some, Tree.at?_cons, inside, Option.bind_some,
        Tree.at?_cons]
      exact found

/-- An array of routes that is the second part of a node is the value of a property. -/
theorem keyValue {address : Address} {k : Nat} (h : RouteAt array (address ++ [1, k]) route) :
    ∃ property, array.at? address = some property ∧ property.shape = .keyValue := by
  generalize same : address ++ [1, k] = whole at h
  induction h generalizing address with
  | element _ _ =>
    match address, same with
    | [], same => cases same
    | [_], same => cases same
  | @child array element key value route span i j below there _ inside _ _ place ih =>
    have down : ∀ rest, array.at? (i :: j :: rest) =
        (.node .keyValue span [key, value] : Tree).at? rest := fun rest => by
      rw [Tree.at?_cons, there, Option.bind_some, Tree.at?_cons, inside, Option.bind_some]
    match address, same with
    | [], same => cases same
    | [_], same =>
      cases same
      exact absurd rfl place.ne_nil
    | [_, _], same =>
      cases same
      exact ⟨_, down [], rfl⟩
    | _ :: _ :: _ :: address, same =>
      cases same
      obtain ⟨property, found, shape⟩ := ih rfl
      exact ⟨property, (down _).trans found, shape⟩

end RouteAt

namespace Setting

/-- What the nodes of an array receive: its routes the names of their modules, and nothing else. -/
structure DueIn (s : Setting) (array : Tree) (received : Address → Option (List String)) :
    Prop where
  routes : ∀ address route, RouteAt array address route →
    s.ModuleNames route.parts (received address)
  others : ∀ address names, received address = some names → ∃ route, RouteAt array address route

variable {s : Setting} {array : Tree} {received : Address → Option (List String)}

theorem dueIn_iff {plan : Plan} (h : s.planArray array = .ok plan) :
    s.DueIn array received ↔ received = plan.namesAt := by
  have wellFormed := (s.planArray_ok_iff array).mp ⟨plan, h⟩
  have alone : ∀ address route route', RouteAt array address route →
      RouteAt array address route' → route = route' := fun address route route' place place' =>
    Option.some.inj (place.at?_eq.symm.trans place'.at?_eq)
  have planned : ∀ address names, plan.namesAt address = some names ↔
      ∃ route, RouteAt array address route ∧ s.ModuleNames route.parts (some names) := by
    intro address names
    rw [Plan.namesAt_eq_some_iff (distinct_planArray h), mem_planArray_iff h]
  rw [eq_namesAt_iff alone (fun _ _ place => wellFormed.moduleNames place) planned]
  exact ⟨fun due => ⟨due.routes, due.others⟩, fun ⟨routes, others⟩ => ⟨routes, others⟩⟩

theorem DueIn.keepsToElements (due : s.DueIn array received) (isArray : array.shape = .arrayLit)
    (times : Nat) : KeepsToElements (copies times received) array := by
  refine keepsToElements_copies (fun address names told => ?_) (fun address k names told => ?_)
    (fun address k names told => ?_) times
  · obtain ⟨route, place⟩ := due.others _ names told
    exact ⟨route, place.at?_eq, place.shape_eq⟩
  · obtain ⟨_, place⟩ := due.others _ names told
    exact place.inArray isArray
  · obtain ⟨_, place⟩ := due.others _ names told
    exact place.keyValue

/-- What is due to an array is due to it when it has been transformed. -/
theorem DueIn.equipped (due : s.DueIn array received) (isArray : array.shape = .arrayLit)
    {more : Address → List Tree} {array' : Tree} (h : Equipped more array array') :
    s.DueIn array' received := by
  refine ⟨fun address route' place => ?_, fun address names told => ?_⟩
  · obtain ⟨route, place', equipped⟩ := place.of_equipped h isArray
    exact (due.routes address route place').equipped equipped fun _ _ read => read
  · obtain ⟨route, place⟩ := due.others address names told
    obtain ⟨route', place', _⟩ := place.equipped h
    exact ⟨route', place'⟩

/-- An array with the export names of all its modules. -/
def transform (s : Setting) (array : Tree) : Work CompileError Tree := do
  return (← s.plan array).carryOut array

theorem transform_fresh (s : Setting) (array : Tree) :
    ((s.transform array).run.run Session.fresh).1 = do
      let plan ← s.planArray array
      return plan.carryOut array :=
  ((s.answers_plan array).bind fun plan => Answers.pure (plan.carryOut array)).run_fresh

/-- All that was remembered is forgotten, if so told. -/
def forget (anew : Bool) : Work CompileError Unit :=
  if anew then modify fun session => { session with cache := .empty } else return

/-- An array transformed once for each element of a list, which tells whether all that was
remembered is forgotten before. -/
def transformAll (s : Setting) : List Bool → Tree → Work CompileError Tree
  | [], array => return array
  | anew :: rest, array => do
    forget anew
    let once ← s.transform array
    s.transformAll rest once

theorem answers_forget (p : Project) (anew : Bool) : Answers p (forget anew) (.ok ()) := by
  cases anew with
  | true => exact fun _ _ => ⟨rfl, Cache.sound_empty p⟩
  | false => exact Answers.pure ()

/-- One more time: an array that was transformed so many times is transformed once more. -/
theorem answers_transform (due : s.DueIn array received) (wellFormed : s.WellFormed array)
    (isArray : array.shape = .arrayLit) (times : Nat) :
    Answers s.project (s.transform (array.extended (copies times received)))
      (.ok (array.extended (copies (times + 1) received))) := by
  have equipped : Equipped (copies times received) array
      (array.extended (copies times received)) :=
    ⟨due.keepsToElements isArray times, Tree.Grown.of_extended _ _⟩
  have wellFormed' := wellFormed.equipped (fun _ _ read => read) equipped isArray
  obtain ⟨plan, planned⟩ := (s.planArray_ok_iff _).mpr wellFormed'
  have names := (dueIn_iff planned).mp (due.equipped isArray equipped)
  have there : ∀ a ∈ plan, array.at? a.address ≠ none := by
    rintro ⟨address, names⟩ member
    obtain ⟨_, place, _⟩ := (mem_planArray_iff planned).mp member
    obtain ⟨route, place', _⟩ := place.of_equipped equipped isArray
    simp [place'.at?_eq]
  have carried : plan.carryOut (array.extended (copies times received)) =
      array.extended (copies (times + 1) received) := by
    rw [plan.carryOut_extended array _ there]
    congr 1
    funext address
    rw [copies_succ, Plan.added_eq_of_distinct (distinct_planArray planned), names]
  have told := s.answers_plan (array.extended (copies times received))
  rw [planned] at told
  rw [← carried]
  exact told.bind_ok (Answers.pure _)

/-- All times: by the list of choices, from an array that was transformed so many times. -/
theorem answers_transformAll (due : s.DueIn array received) (wellFormed : s.WellFormed array)
    (isArray : array.shape = .arrayLit) (choices : List Bool) (times : Nat) :
    Answers s.project (s.transformAll choices (array.extended (copies times received)))
      (.ok (array.extended (copies (times + choices.length) received))) := by
  induction choices generalizing times with
  | nil => exact Answers.pure _
  | cons anew rest ih =>
    have once := answers_transform due wellFormed isArray times
    have others := ih (times + 1)
    rw [show times + 1 + rest.length = times + (anew :: rest).length by
      rw [List.length_cons]; omega] at others
    exact (answers_forget s.project anew).bind_ok (once.bind_ok others)

end Setting

end RouteManifest.Routes
