import RouteManifest.Proofs.Acceptance
import RouteManifest.Proofs.Plans

/-!
# Which routes receive export names

The places in an array of routes at which a plan makes additions are those of routes that refer to
a module, at any depth, and each of them is named once. Plans are taken apart along the numbers of
the parts that they were made for.
-/

namespace RouteManifest.Routes

open Script

/-- An address below an array leads to a route: to an element of the array, or to a route of the
children of an element. -/
inductive RouteAt : Tree → Address → Tree → Prop
  | element {array route : Tree} {i : Nat} (there : array.parts[i]? = some route)
      (object : route.shape = .objectLit) : RouteAt array [i] route
  | child {array element key value route : Tree} {span : Span} {i k : Nat} {address : Address}
      (there : array.parts[i]? = some element) (object : element.shape = .objectLit)
      (inside : element.parts[k]? = some (.node .keyValue span [key, value]))
      (named : KeyNamed key "children") (isArray : value.shape = .arrayLit)
      (below : RouteAt value address route) : RouteAt array (i :: k :: 1 :: address) route

/-- What the elements of an array receive, as a plan for each. -/
theorem additions_eq_joined (i : Nat) (level : List (Option (List String))) :
    additions i level = Plan.joined i (level.map fun names => names.toList.map (⟨[], ·⟩)) := by
  induction level generalizing i with
  | nil => rfl
  | cons names rest ih =>
    rw [additions, ih, List.map_cons, Plan.joined]
    simp [Plan.below, Function.comp_def]

theorem mem_additions_iff {i : Nat} {level : List (Option (List String))} {address : Address}
    {names : List String} :
    ⟨address, names⟩ ∈ additions i level ↔
      ∃ k, address = [i + k] ∧ level[k]? = some (some names) := by
  rw [additions_eq_joined, Plan.mem_joined_iff]
  constructor
  · rintro ⟨k, plan, inner, there, rfl, member⟩
    rw [List.getElem?_map, Option.map_eq_some_iff] at there
    obtain ⟨told, there, rfl⟩ := there
    obtain ⟨names', inside, same⟩ := List.mem_map.mp member
    cases same
    rw [Option.mem_toList] at inside
    exact ⟨k, rfl, inside ▸ there⟩
  · rintro ⟨k, rfl, there⟩
    refine ⟨k, [⟨[], names⟩], [], ?_, rfl, List.mem_singleton.mpr rfl⟩
    simp [there]

theorem distinct_additions (i : Nat) (level : List (Option (List String))) :
    Plan.Distinct (additions i level) := by
  rw [additions_eq_joined]
  refine Plan.distinct_joined fun plan member => ?_
  obtain ⟨names, _, rfl⟩ := List.mem_map.mp member
  cases names with
  | none => exact Plan.distinct_nil
  | some names => exact List.pairwise_singleton _ _

namespace Setting

theorem planProperties_eq (s : Setting) (k : Nat) (properties : List Tree) :
    s.planProperties k properties = do
      return Plan.joined k (← properties.mapM s.planProperty) := by
  induction properties generalizing k with
  | nil => rfl
  | cons property rest ih =>
    rw [planProperties, ih, List.mapM_cons]
    simp [Plan.joined, -bind_pure_comp]

theorem planBelow_eq (s : Setting) (i : Nat) (elements : List Tree) :
    s.planBelow i elements = do
      return Plan.joined i (← elements.mapM fun element => s.planProperties 0 element.parts) := by
  induction elements generalizing i with
  | nil => rfl
  | cons element rest ih =>
    obtain ⟨shape, span, properties⟩ := element
    rw [planBelow, ih, List.mapM_cons]
    simp [Plan.joined, Tree.parts, -bind_pure_comp]

/-- A plan for an array is made of what its elements receive and of the plans for what lies below
each of them. -/
theorem planArray_eq_ok_iff {s : Setting} {array : Tree} {plan : Plan} :
    s.planArray array = .ok plan ↔
      ∃ level below, array.parts.mapM (s.received array) = .ok level ∧
        (array.parts.mapM fun element => s.planProperties 0 element.parts) = .ok below ∧
          plan = additions 0 level ++ Plan.joined 0 below := by
  obtain ⟨shape, span, elements⟩ := array
  rw [planArray, planBelow_eq]
  simp only [bind_eq_ok_iff]
  constructor
  · rintro ⟨level, looked, _, ⟨below, told, joined⟩, same⟩
    cases joined
    cases same
    exact ⟨level, below, looked, told, rfl⟩
  · rintro ⟨level, below, looked, told, rfl⟩
    exact ⟨level, looked, _, ⟨below, told, rfl⟩, rfl⟩

theorem planProperty_children (s : Setting) {span : Span} {key value : Tree}
    (named : KeyNamed key "children") (isArray : value.shape = .arrayLit) :
    s.planProperty (.node .keyValue span [key, value]) = do
      return Plan.below [1] (← s.planArray value) := by
  rw [planProperty]
  exact if_pos (by
    rw [Bool.and_eq_true, decide_eq_true_eq, keyName?_eq_some_iff, isArray_iff]
    exact ⟨named, isArray⟩)

/-- What is planned for a property is what is planned for its children. -/
theorem mem_planProperty_iff {s : Setting} {property : Tree} {plan : Plan}
    (h : s.planProperty property = .ok plan) {address : Address} {names : List String} :
    ⟨address, names⟩ ∈ plan ↔
      ∃ span key value below inner, property = .node .keyValue span [key, value] ∧
        KeyNamed key "children" ∧ value.shape = .arrayLit ∧ s.planArray value = .ok below ∧
          address = 1 :: inner ∧ ⟨inner, names⟩ ∈ below := by
  rcases keyValue_or_value?_eq_none property with ⟨span, key, value, rfl⟩ | bare
  · rw [planProperty] at h
    split at h
    · rename_i array
      rw [Bool.and_eq_true, decide_eq_true_eq, keyName?_eq_some_iff, isArray_iff] at array
      obtain ⟨below, told, same⟩ := bind_eq_ok_iff.mp h
      cases same
      rw [Plan.mem_below_iff]
      constructor
      · rintro ⟨inner, same, member⟩
        exact ⟨span, key, value, below, inner, rfl, array.1, array.2, told, same, member⟩
      · rintro ⟨_, _, _, below', inner, same, _, _, told', rfl, member⟩
        cases same
        cases told.symm.trans told'
        exact ⟨inner, rfl, member⟩
    · rename_i other
      cases h
      rw [Bool.and_eq_true, decide_eq_true_eq, keyName?_eq_some_iff, isArray_iff] at other
      constructor
      · exact fun member => (nomatch member)
      · rintro ⟨_, _, _, _, _, same, named, array, _⟩
        cases same
        exact absurd ⟨named, array⟩ other
  · rw [s.planProperty_of_value?_eq_none bare] at h
    cases h
    constructor
    · exact fun member => (nomatch member)
    · rintro ⟨span, key, value, _, _, rfl, _⟩
      cases bare

theorem mem_planProperties_iff {s : Setting} {properties : List Tree} {plan : Plan}
    (h : s.planProperties 0 properties = .ok plan) {address : Address} {names : List String} :
    ⟨address, names⟩ ∈ plan ↔
      ∃ k span key value below inner, properties[k]? = some (.node .keyValue span [key, value]) ∧
        KeyNamed key "children" ∧ value.shape = .arrayLit ∧ s.planArray value = .ok below ∧
          address = k :: 1 :: inner ∧ ⟨inner, names⟩ ∈ below := by
  rw [planProperties_eq] at h
  obtain ⟨plans, told, same⟩ := bind_eq_ok_iff.mp h
  cases same
  simp only [Plan.mem_joined_iff, getElem?_of_mapM_eq_ok told, Nat.zero_add]
  constructor
  · rintro ⟨k, plan, _, ⟨property, there, own⟩, rfl, member⟩
    obtain ⟨span, key, value, below, inner, rfl, named, array, planned, rfl, inside⟩ :=
      (mem_planProperty_iff own).mp member
    exact ⟨k, span, key, value, below, inner, there, named, array, planned, rfl, inside⟩
  · rintro ⟨k, span, key, value, below, inner, there, named, array, planned, rfl, member⟩
    have own : s.planProperty (.node .keyValue span [key, value]) = .ok (Plan.below [1] below) := by
      rw [s.planProperty_children named array, planned]
      rfl
    exact ⟨k, _, 1 :: inner, ⟨_, there, own⟩, rfl,
      Plan.mem_below_iff.mpr ⟨inner, rfl, member⟩⟩

theorem planArray_ok_of_planProperties {s : Setting} {properties : List Tree} {plan : Plan}
    (h : s.planProperties 0 properties = .ok plan) {k : Nat} {span : Span} {key value : Tree}
    (inside : properties[k]? = some (.node .keyValue span [key, value]))
    (named : KeyNamed key "children") (isArray : value.shape = .arrayLit) :
    ∃ below, s.planArray value = .ok below := by
  rw [planProperties_eq] at h
  obtain ⟨plans, told, _⟩ := bind_eq_ok_iff.mp h
  obtain ⟨own, planned⟩ := mapM_ok_iff.mp ⟨plans, told⟩ _ (List.mem_of_getElem? inside)
  rw [s.planProperty_children named isArray] at planned
  obtain ⟨below, planned, _⟩ := bind_eq_ok_iff.mp planned
  exact ⟨below, planned⟩

theorem size_lt_of_children {array element key value : Tree} {span : Span} {i k : Nat}
    (there : array.parts[i]? = some element)
    (inside : element.parts[k]? = some (.node .keyValue span [key, value])) :
    value.size < array.size := by
  have inProperty : value.size < (.node .keyValue span [key, value] : Tree).size :=
    Tree.size_lt_of_mem_parts (List.mem_cons_of_mem key List.mem_cons_self)
  have inElement := Tree.size_lt_of_mem_parts (List.mem_of_getElem? inside)
  have inArray := Tree.size_lt_of_mem_parts (List.mem_of_getElem? there)
  omega

/-- A plan for an array adds to the routes that refer to a module, and to nothing else. -/
theorem mem_planArray_iff {s : Setting} {array : Tree} {plan : Plan}
    (h : s.planArray array = .ok plan) {address : Address} {names : List String} :
    ⟨address, names⟩ ∈ plan ↔
      ∃ route, RouteAt array address route ∧ s.ModuleNames route.parts (some names) := by
  induction size : array.size using Nat.strongRecOn generalizing array plan address with
  | ind n ih =>
    obtain ⟨level, belows, looked, told, rfl⟩ := planArray_eq_ok_iff.mp h
    simp only [List.mem_append, mem_additions_iff, Plan.mem_joined_iff,
      getElem?_of_mapM_eq_ok looked, getElem?_of_mapM_eq_ok told, Nat.zero_add]
    have objects : ∀ {i : Nat} {element : Tree}, array.parts[i]? = some element →
        element.shape = .objectLit ∧ ∃ names, s.received array element = .ok names := by
      intro i element there
      obtain ⟨names, received⟩ := mapM_ok_iff.mp ⟨level, looked⟩ element
        (List.mem_of_getElem? there)
      exact ⟨(received_eq_ok_iff.mp received).1, names, received⟩
    constructor
    · rintro (⟨k, rfl, route, there, received⟩ | ⟨i, plan, _, ⟨element, there, own⟩, rfl, member⟩)
      · obtain ⟨object, _, modules⟩ := received_eq_ok_iff.mp received
        exact ⟨route, .element there object, modules⟩
      · obtain ⟨k, span, key, value, below, inner, inside, named, isArray, planned, rfl, inBelow⟩ :=
          (mem_planProperties_iff own).mp member
        have smaller := size_lt_of_children there inside
        obtain ⟨route, place, modules⟩ := (ih value.size (by omega) planned rfl).mp inBelow
        exact ⟨route, .child there (objects there).1 inside named isArray place, modules⟩
    · rintro ⟨route, place, modules⟩
      cases place with
      | @element _ _ i there object =>
        obtain ⟨_, names', received⟩ := objects there
        obtain ⟨_, shaped, _⟩ := received_eq_ok_iff.mp received
        exact Or.inl ⟨i, rfl, route, there, received_eq_ok_iff.mpr ⟨object, shaped, modules⟩⟩
      | @child _ element _ value _ _ i k inner there object inside named isArray place =>
        have smaller := size_lt_of_children there inside
        obtain ⟨plan, own⟩ := mapM_ok_iff.mp ⟨belows, told⟩ element (List.mem_of_getElem? there)
        obtain ⟨below, planned⟩ := planArray_ok_of_planProperties own inside named isArray
        have inBelow := (ih value.size (by omega) planned rfl).mpr ⟨route, place, modules⟩
        refine Or.inr ⟨i, plan, k :: 1 :: inner, ⟨element, there, own⟩, rfl, ?_⟩
        exact (mem_planProperties_iff own).mpr
          ⟨k, _, _, value, below, inner, inside, named, isArray, planned, rfl, inBelow⟩

/-- No route receives names twice in a plan for an array. -/
theorem distinct_planArray {s : Setting} {array : Tree} {plan : Plan}
    (h : s.planArray array = .ok plan) : plan.Distinct := by
  induction size : array.size using Nat.strongRecOn generalizing array plan with
  | ind n ih =>
    obtain ⟨level, belows, looked, told, rfl⟩ := planArray_eq_ok_iff.mp h
    refine Plan.distinct_append_iff.mpr ⟨distinct_additions 0 level, ?_, ?_⟩
    · refine Plan.distinct_joined fun plan member => ?_
      obtain ⟨i, place⟩ := List.mem_iff_getElem?.mp member
      obtain ⟨element, there, own⟩ := (getElem?_of_mapM_eq_ok told).mp place
      rw [planProperties_eq] at own
      obtain ⟨plans, each, same⟩ := bind_eq_ok_iff.mp own
      cases same
      refine Plan.distinct_joined fun plan member => ?_
      obtain ⟨k, place⟩ := List.mem_iff_getElem?.mp member
      obtain ⟨property, inside, planned⟩ := (getElem?_of_mapM_eq_ok each).mp place
      rcases keyValue_or_value?_eq_none property with ⟨span, key, value, rfl⟩ | bare
      · have smaller := size_lt_of_children there inside
        rw [planProperty] at planned
        split at planned
        · obtain ⟨below, first, same⟩ := bind_eq_ok_iff.mp planned
          cases same
          exact (ih value.size (by omega) first rfl).below [1]
        · cases planned
          exact Plan.distinct_nil
      · rw [s.planProperty_of_value?_eq_none bare] at planned
        cases planned
        exact Plan.distinct_nil
    · intro address names names' one other
      obtain ⟨k, rfl, _⟩ := mem_additions_iff.mp one
      obtain ⟨i, plan, inner, place, same, member⟩ := Plan.mem_joined_iff.mp other
      obtain ⟨element, _, own⟩ := (getElem?_of_mapM_eq_ok told).mp place
      obtain ⟨j, _, _, _, _, _, _, _, _, _, rfl, _⟩ := (mem_planProperties_iff own).mp member
      exact absurd (List.cons.inj same).2 (List.cons_ne_nil _ _).symm

end Setting

namespace RouteAt

theorem at?_eq {array route : Tree} {address : Address} (h : RouteAt array address route) :
    array.at? address = some route := by
  induction h with
  | element there _ =>
    rw [Tree.at?_cons, there]
    rfl
  | child there _ inside _ _ _ ih =>
    rw [Tree.at?_cons, there, Option.bind_some, Tree.at?_cons, inside, Option.bind_some,
      Tree.at?_cons]
    exact ih

/-- Nothing on the way to a route is a call. -/
theorem shape_ne_call {array route : Tree} {address : Address} (h : RouteAt array address route)
    (isArray : array.shape = .arrayLit) {outer inner : Address} (split : address = outer ++ inner)
    {t : Tree} (found : array.at? outer = some t) : t.shape ≠ .call := by
  induction h generalizing outer with
  | element there object =>
    match outer, split with
    | [], _ =>
      cases found
      simp [isArray]
    | _ :: outer, split =>
      obtain ⟨rfl, last⟩ := List.cons.inj split
      obtain ⟨rfl, _⟩ := List.append_eq_nil_iff.mp last.symm
      rw [Tree.at?_cons, there] at found
      cases found
      simp [object]
  | @child _ element key value _ span _ _ _ there object inside _ isArray' _ ih =>
    match outer, split with
    | [], _ =>
      cases found
      simp [isArray]
    | [_], split =>
      cases split
      rw [Tree.at?_cons, there] at found
      cases found
      simp [object]
    | [_, _], split =>
      cases split
      rw [Tree.at?_cons, there, Option.bind_some, Tree.at?_cons, inside] at found
      cases found
      simp [Tree.shape]
    | _ :: _ :: _ :: outer, split =>
      cases split
      rw [Tree.at?_cons, there, Option.bind_some, Tree.at?_cons, inside, Option.bind_some,
        Tree.at?_cons] at found
      exact ih isArray' rfl found

end RouteAt

namespace Setting

theorem moduleNames_unique {s : Setting} {properties : List Tree} {one other : Option (List String)}
    (told : s.ModuleNames properties one) (told' : s.ModuleNames properties other) :
    one = other := by
  cases one with
  | none =>
    cases other with
    | none => rfl
    | some names =>
      obtain ⟨property, ⟨named, before, after, split, _⟩, _⟩ := told'
      exact absurd named (told property (by simp [split]))
  | some names =>
    obtain ⟨property, first, defers⟩ := told
    cases other with
    | none =>
      obtain ⟨named, before, after, split, _⟩ := first
      exact absurd named (told' property (by simp [split]))
    | some names' =>
      obtain ⟨property', first', defers'⟩ := told'
      have same := (find?_eq_some_iff_firstNamed.mpr first).symm.trans
        (find?_eq_some_iff_firstNamed.mpr first')
      cases same
      have names := (namesOf_eq_ok_iff.mpr defers).symm.trans (namesOf_eq_ok_iff.mpr defers')
      cases names
      rfl

/-- What routes receive by their modules, and nothing else receives, is what a plan for them has. -/
theorem eq_namesAt_iff {s : Setting} {plan : Plan} {isRoute : Address → Tree → Prop}
    (alone : ∀ address route route', isRoute address route → isRoute address route' →
      route = route')
    (modules : ∀ address route, isRoute address route → ∃ names, s.ModuleNames route.parts names)
    (planned : ∀ address names, plan.namesAt address = some names ↔
      ∃ route, isRoute address route ∧ s.ModuleNames route.parts (some names))
    (received : Address → Option (List String)) :
    received = plan.namesAt ↔
      (∀ address route, isRoute address route → s.ModuleNames route.parts (received address)) ∧
        ∀ address names, received address = some names → ∃ route, isRoute address route := by
  constructor
  · rintro rfl
    refine ⟨fun address route place => ?_, fun address names told => ?_⟩
    · obtain ⟨names, own⟩ := modules address route place
      cases told : plan.namesAt address with
      | none =>
        cases names with
        | none => exact own
        | some names => cases told.symm.trans ((planned address names).mpr ⟨route, place, own⟩)
      | some names' =>
        obtain ⟨route', place', own'⟩ := (planned address names').mp told
        cases alone address route route' place place'
        exact own'
    · obtain ⟨route, place, _⟩ := (planned address names).mp told
      exact ⟨route, place⟩
  · rintro ⟨routes, others⟩
    funext address
    refine Option.ext fun names => ?_
    rw [planned]
    constructor
    · intro told
      obtain ⟨route, place⟩ := others address names told
      exact ⟨route, place, told ▸ routes address route place⟩
    · rintro ⟨route, place, own⟩
      exact moduleNames_unique (routes address route place) own

/-- In a well formed array every route refers to a module that can be read, or to none. -/
theorem WellFormed.moduleNames {s : Setting} {array route : Tree} {address : Address}
    (h : s.WellFormed array) (place : RouteAt array address route) :
    ∃ names, s.ModuleNames route.parts names := by
  induction place with
  | element there _ =>
    obtain ⟨_, _, _, modules⟩ := h
    exact (s.moduleNames_ok_iff _).mpr (modules _ (List.mem_of_getElem? there))
  | child there _ inside named _ _ ih =>
    obtain ⟨_, _, below, _⟩ := h
    exact ih (below _ (List.mem_of_getElem? there) _ _ _ (List.mem_of_getElem? inside) named)

end Setting

end RouteManifest.Routes
