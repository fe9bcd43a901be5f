import RouteManifest.Proofs.PlanningOrder

/-!
# What is looked at

The elements that are looked at in an array of routes are its own and those of the children of its
routes, at any depth. Those that are object literals are routes, and a module that is needed is one
that such a route refers to.
-/

namespace RouteManifest.Routes

open Script

/-- An address below an array leads to an element that is looked at: of the array itself, or of the
children of an element. -/
inductive ElementAt : Tree → Address → Tree → Tree → Prop
  | here {array element : Tree} {i : Nat} (there : array.parts[i]? = some element) :
      ElementAt array [i] array element
  | child {array route key value inner element : Tree} {span : Span} {i k : Nat}
      {address : Address} (there : array.parts[i]? = some route)
      (object : route.shape = .objectLit)
      (inside : route.parts[k]? = some (.node .keyValue span [key, value]))
      (named : KeyNamed key "children") (isArray : value.shape = .arrayLit)
      (below : ElementAt value address inner element) :
      ElementAt array (i :: k :: 1 :: address) inner element

theorem mem_looksAt_iff {outer : Address} {array : Tree} {i : Nat} {elements : List Tree}
    {l : Look} :
    l ∈ looksAt outer array i elements ↔
      ∃ k element, elements[k]? = some element ∧
        l = .element (outer ++ [i + k]) array element := by
  induction elements generalizing i with
  | nil => simp [looksAt]
  | cons element rest ih =>
    rw [looksAt, List.mem_cons, ih]
    constructor
    · rintro (rfl | ⟨k, other, there, rfl⟩)
      · exact ⟨0, element, rfl, rfl⟩
      · exact ⟨k + 1, other, there, by rw [show i + (k + 1) = i + 1 + k by omega]⟩
    · rintro ⟨k, other, there, rfl⟩
      cases k with
      | zero =>
        cases there
        exact Or.inl rfl
      | succ k => exact Or.inr ⟨k, other, there, by rw [show i + 1 + k = i + (k + 1) by omega]⟩

theorem mem_looksOfProperties_iff {route : Address} {j : Nat} {properties : List Tree}
    {l : Look} :
    l ∈ looksOfProperties route j properties ↔
      ∃ k property, properties[k]? = some property ∧
        l ∈ looksOfProperty (route ++ [j + k]) property := by
  induction properties generalizing j with
  | nil => simp [looksOfProperties]
  | cons property rest ih =>
    rw [looksOfProperties, List.mem_append, ih]
    constructor
    · rintro (first | ⟨k, other, there, inside⟩)
      · exact ⟨0, property, rfl, first⟩
      · exact ⟨k + 1, other, there, by rwa [show j + (k + 1) = j + 1 + k by omega]⟩
    · rintro ⟨k, other, there, inside⟩
      cases k with
      | zero =>
        cases there
        exact Or.inl inside
      | succ k => exact Or.inr ⟨k, other, there, by rwa [show j + 1 + k = j + (k + 1) by omega]⟩

theorem mem_looksBelow_iff {outer : Address} {i : Nat} {elements : List Tree} {l : Look} :
    l ∈ looksBelow outer i elements ↔
      ∃ k route, elements[k]? = some route ∧ route.shape = .objectLit ∧
        l ∈ looksOfProperties (outer ++ [i + k]) 0 route.parts := by
  induction elements generalizing i with
  | nil => simp [looksBelow]
  | cons element rest ih =>
    have step : l ∈ looksBelow outer i (element :: rest) ↔
        (element.shape = .objectLit ∧ l ∈ looksOfProperties (outer ++ [i]) 0 element.parts) ∨
          l ∈ looksBelow outer (i + 1) rest := by
      obtain ⟨shape, span, properties⟩ := element
      rw [looksBelow, List.mem_append, List.mem_ite_nil_right, isObject_iff]
      exact Iff.rfl
    rw [step, ih]
    constructor
    · rintro (⟨object, inside⟩ | ⟨k, route, there, object, inside⟩)
      · exact ⟨0, element, rfl, object, inside⟩
      · exact ⟨k + 1, route, there, object, by rwa [show i + (k + 1) = i + 1 + k by omega]⟩
    · rintro ⟨k, route, there, object, inside⟩
      cases k with
      | zero =>
        cases there
        exact Or.inl ⟨object, inside⟩
      | succ k =>
        exact Or.inr ⟨k, route, there, object, by rwa [show i + 1 + k = i + (k + 1) by omega]⟩

theorem mem_looksOfProperty_iff {place : Address} {property : Tree} {l : Look} :
    l ∈ looksOfProperty place property ↔
      ∃ span key value, property = .node .keyValue span [key, value] ∧
        KeyNamed key "children" ∧ value.shape = .arrayLit ∧ l ∈ looksOf (place ++ [1]) value := by
  rcases keyValue_or_value?_eq_none property with ⟨span, key, value, rfl⟩ | bare
  · rw [looksOfProperty, List.mem_ite_nil_right, Bool.and_eq_true, decide_eq_true_eq,
      keyName?_eq_some_iff, isArray_iff]
    constructor
    · rintro ⟨⟨named, array⟩, inside⟩
      exact ⟨span, key, value, rfl, named, array, inside⟩
    · rintro ⟨_, _, _, same, named, array, inside⟩
      cases same
      exact ⟨⟨named, array⟩, inside⟩
  · rw [looksOfProperty_of_value?_eq_none place bare]
    constructor
    · exact fun member => (nomatch member)
    · rintro ⟨_, _, _, rfl, _⟩
      cases bare

/-- One step down: a look at an array is at an element of it, or at the children of one. -/
theorem mem_looksOf_step {outer : Address} {array : Tree} {l : Look} :
    l ∈ looksOf outer array ↔
      (∃ i element, array.parts[i]? = some element ∧
        l = .element (outer ++ [i]) array element) ∨
      ∃ i route k span key value, array.parts[i]? = some route ∧ route.shape = .objectLit ∧
        route.parts[k]? = some (.node .keyValue span [key, value]) ∧ KeyNamed key "children" ∧
          value.shape = .arrayLit ∧ l ∈ looksOf (outer ++ [i, k, 1]) value := by
  obtain ⟨shape, span, elements⟩ := array
  rw [looksOf, List.mem_append, mem_looksAt_iff, mem_looksBelow_iff]
  simp only [mem_looksOfProperties_iff, mem_looksOfProperty_iff, Nat.zero_add, Tree.parts_node,
    List.append_assoc, List.cons_append, List.nil_append]
  refine or_congr_right ?_
  constructor
  · rintro ⟨i, route, there, object, k, _, inside, span, key, value, rfl, named, isArray, below⟩
    exact ⟨i, route, k, span, key, value, there, object, inside, named, isArray, below⟩
  · rintro ⟨i, route, k, span, key, value, there, object, inside, named, isArray, below⟩
    exact ⟨i, route, there, object, k, _, inside, span, key, value, rfl, named, isArray, below⟩

/-- What is looked at in an array are its elements and those of the children of routes. -/
theorem mem_looksOf_iff {outer : Address} {array : Tree} {l : Look} :
    l ∈ looksOf outer array ↔
      ∃ address inner element, ElementAt array address inner element ∧
        l = .element (outer ++ address) inner element := by
  induction size : array.size using Nat.strongRecOn generalizing array outer with
  | ind n ih =>
    rw [mem_looksOf_step]
    constructor
    · rintro (⟨i, element, there, rfl⟩ |
        ⟨i, route, k, span, key, value, there, object, inside, named, isArray, below⟩)
      · exact ⟨[i], array, element, .here there, rfl⟩
      · have smaller := Setting.size_lt_of_children there inside
        obtain ⟨address, inner, element, place, rfl⟩ := (ih _ (size ▸ smaller) rfl).mp below
        refine ⟨_, inner, element, .child there object inside named isArray place, ?_⟩
        simp
    · rintro ⟨_, inner, element, place, rfl⟩
      cases place with
      | here there => exact Or.inl ⟨_, _, there, rfl⟩
      | child there object inside named isArray below =>
        have smaller := Setting.size_lt_of_children there inside
        refine Or.inr ⟨_, _, _, _, _, _, there, object, inside, named, isArray, ?_⟩
        exact (ih _ (size ▸ smaller) rfl).mpr ⟨_, inner, element, below, by simp⟩

/-- Routes are the elements that are object literals. -/
theorem ElementAt.routeAt {array inner element : Tree} {address : Address}
    (h : ElementAt array address inner element) (object : element.shape = .objectLit) :
    RouteAt array address element := by
  induction h with
  | here there => exact .element there object
  | child there route inside named isArray _ ih =>
    exact .child there route inside named isArray (ih object)

theorem RouteAt.elementAt {array route : Tree} {address : Address}
    (h : RouteAt array address route) :
    (∃ inner, ElementAt array address inner route) ∧ route.shape = .objectLit := by
  induction h with
  | element there object => exact ⟨⟨_, .here there⟩, object⟩
  | child there object inside named isArray _ ih =>
    obtain ⟨⟨inner, place⟩, route⟩ := ih
    exact ⟨⟨inner, .child there object inside named isArray place⟩, route⟩

namespace Setting

/-- The first property for the module of a route defers the import of a module. -/
def RefersTo (s : Setting) (properties : List Tree) (module : Path) : Prop :=
  ∃ property span key value specifier, FirstNamed properties "module" property ∧
    property = .node .keyValue span [key, value] ∧ DefersImport value specifier ∧
      (Project.routeModule s.project.root s.file.path specifier :
        Except (Halt CompileError) Path) = .ok module

theorem moduleOf?_eq_some_iff {s : Setting} {property : Tree} {module : Path} :
    s.moduleOf? property = some module ↔
      ∃ span key value specifier, property = .node .keyValue span [key, value] ∧
        DefersImport value specifier ∧
        (Project.routeModule s.project.root s.file.path specifier :
          Except (Halt CompileError) Path) = .ok module := by
  unfold moduleOf?
  constructor
  · intro h
    split at h
    · cases h
    · rename_i specifier deferred
      split at h
      · cases h
      · rename_i told
        cases h
        obtain ⟨span, key, value, form, defers⟩ := deferredImport_eq_ok_iff.mp deferred
        exact ⟨span, key, value, specifier, form, defers, told⟩
  · rintro ⟨span, key, value, specifier, form, defers, told⟩
    simp only [deferredImport_eq_ok_iff.mpr ⟨span, key, value, form, defers⟩, told]

theorem moduleOfRoute?_eq_some_iff {s : Setting} {properties : List Tree} {module : Path} :
    s.moduleOfRoute? properties = some module ↔ s.RefersTo properties module := by
  simp only [moduleOfRoute?, Option.bind_eq_some_iff, find?_eq_some_iff_firstNamed,
    moduleOf?_eq_some_iff, RefersTo]
  constructor
  · rintro ⟨property, first, span, key, value, specifier, told⟩
    exact ⟨property, span, key, value, specifier, first, told⟩
  · rintro ⟨property, span, key, value, specifier, first, told⟩
    exact ⟨property, first, span, key, value, specifier, told⟩

theorem needed?_eq_some_iff {s : Setting} {address : Address} {array element : Tree}
    {module : Path} :
    s.needed? (.element address array element) = some module ↔
      element.shape = .objectLit ∧ s.RefersTo element.parts module := by
  rw [← moduleOfRoute?_eq_some_iff, ← isObject_iff]
  exact Option.ite_none_right_eq_some

end Setting

/-- What is needed for the calls of a module are the modules that its routes refer to. -/
theorem needed_iff {s : Setting} {module : Tree} {path : Path} :
    (∃ l ∈ looks (calls module), s.needed? l = some path) ↔
      ∃ address route, IsRoute module address route ∧ s.RefersTo route.parts path := by
  constructor
  · rintro ⟨l, member, needed⟩
    obtain ⟨c, bound, inside⟩ := List.mem_flatMap.mp member
    rcases List.mem_cons.mp inside with rfl | inside
    · cases needed
    · split at inside
      · rename_i argument arguments
        obtain ⟨isArray, inside⟩ := List.mem_ite_nil_right.mp inside
        obtain ⟨address, inner, element, place, rfl⟩ := mem_looksOf_iff.mp inside
        obtain ⟨object, refers⟩ := Setting.needed?_eq_some_iff.mp needed
        have route := place.routeAt object
        exact ⟨_, element, ⟨c.address, c.call, argument, address, mem_calls_iff.mp bound, arguments,
          isArray_iff.mp isArray, rfl, route⟩, refers⟩
      · cases inside
  · rintro ⟨_, route, ⟨outer, call, array, inner, bound, arguments, isArray, rfl, place⟩, refers⟩
    obtain ⟨⟨own, element⟩, object⟩ := place.elementAt
    refine ⟨.element (outer ++ [1, 0] ++ inner) own route, ?_,
      Setting.needed?_eq_some_iff.mpr ⟨object, refers⟩⟩
    refine List.mem_flatMap.mpr ⟨⟨outer, call⟩, mem_calls_iff.mpr bound, ?_⟩
    rw [looksOfCall, arguments]
    refine List.mem_cons_of_mem _ ?_
    exact List.mem_ite_nil_right.mpr
      ⟨isArray_iff.mpr isArray, mem_looksOf_iff.mpr ⟨inner, own, route, element, rfl⟩⟩

/-- The modules that a routes file refers to, in the order of the looks. -/
def modulesOf (s : Setting) : List Path :=
  match s.file.read with
  | .ok m => (looks (calls m.tree)).filterMap s.needed?
  | .error _ => []

theorem mem_modulesOf_iff {s : Setting} {m : Module} (read : s.file.read = .ok m) {path : Path} :
    path ∈ modulesOf s ↔
      ∃ address route, IsRoute m.tree address route ∧ s.RefersTo route.parts path := by
  rw [modulesOf, read, ← needed_iff]
  exact List.mem_filterMap

end RouteManifest.Routes
