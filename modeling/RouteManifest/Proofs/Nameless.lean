import RouteManifest.Proofs.Properties

/-!
# Routes without their nameless properties

Spreads and properties with a key that is computed or a number have no name. Here they are left
out, at every level of an array of routes; what the other properties are called, their order, and
what holds of them stay as they were.
-/

namespace RouteManifest.Routes

open Script

mutual

/-- An array without the nameless properties of its routes and of the routes below them. -/
def namedOnly : Tree → Tree
  | .node shape span elements => .node shape span (namedOnlyRoutes elements)

def namedOnlyRoutes : List Tree → List Tree
  | [] => []
  | .node shape span properties :: rest =>
    .node shape span (namedOnlyProperties properties) :: namedOnlyRoutes rest

def namedOnlyProperties : List Tree → List Tree
  | [] => []
  | property :: rest =>
    if (propertyName? property).isSome then
      namedOnlyProperty property :: namedOnlyProperties rest
    else namedOnlyProperties rest

def namedOnlyProperty : Tree → Tree
  | .node .keyValue span [key, value] =>
    if keyName? key = some "children" && isArray value then
      .node .keyValue span [key, namedOnly value]
    else .node .keyValue span [key, value]
  | property => property

end

theorem shape_namedOnly (t : Tree) : (namedOnly t).shape = t.shape := by
  cases t
  rw [namedOnly]
  rfl

theorem parts_namedOnly (t : Tree) :
    (namedOnly t).parts = t.parts.map fun route =>
      route.withParts (namedOnlyProperties route.parts) := by
  obtain ⟨shape, span, elements⟩ := t
  rw [namedOnly]
  change namedOnlyRoutes elements = elements.map _
  induction elements with
  | nil => rw [namedOnlyRoutes]; rfl
  | cons element rest ih =>
    obtain ⟨own, place, properties⟩ := element
    rw [namedOnlyRoutes, ih]
    rfl

theorem namedOnlyProperties_eq (properties : List Tree) :
    namedOnlyProperties properties =
      (properties.filter fun p => (propertyName? p).isSome).map namedOnlyProperty := by
  induction properties with
  | nil => rw [namedOnlyProperties]; rfl
  | cons property rest ih =>
    rw [namedOnlyProperties]
    by_cases named : (propertyName? property).isSome = true
    · simp [named, ih]
    · simp [named, ih]

theorem namedOnlyProperty_of_value?_eq_none {property : Tree} (bare : value? property = none) :
    namedOnlyProperty property = property := by
  unfold namedOnlyProperty
  split
  · cases bare
  · rfl

/-- Only the value of a property can differ, and only below an array of children. -/
theorem namedOnlyProperty_cases (property : Tree) :
    namedOnlyProperty property = property ∨
      ∃ span key value, property = .node .keyValue span [key, value] ∧
        KeyNamed key "children" ∧ value.shape = .arrayLit ∧
          namedOnlyProperty property = .node .keyValue span [key, namedOnly value] := by
  rcases keyValue_or_value?_eq_none property with ⟨span, key, value, rfl⟩ | bare
  · rw [namedOnlyProperty]
    split
    · rename_i array
      rw [Bool.and_eq_true, decide_eq_true_eq, keyName?_eq_some_iff, isArray_iff] at array
      exact Or.inr ⟨span, key, value, rfl, array.1, array.2, rfl⟩
    · exact Or.inl rfl
  · exact Or.inl (namedOnlyProperty_of_value?_eq_none bare)

theorem propertyName?_namedOnlyProperty (property : Tree) :
    propertyName? (namedOnlyProperty property) = propertyName? property := by
  rcases namedOnlyProperty_cases property with same | ⟨span, key, value, rfl, _, _, told⟩
  · rw [same]
  · rw [told]
    rfl

theorem namedOnlyProperty_of_module {property : Tree} (named : Named property "module") :
    namedOnlyProperty property = property := by
  rcases namedOnlyProperty_cases property with same | ⟨span, key, value, rfl, children, _, _⟩
  · exact same
  · have both := (propertyName?_eq_some_iff.mpr named).symm.trans
      (propertyName?_eq_some_iff.mpr (.keyed (Or.inl rfl) children))
    simp at both

theorem find?_namedOnlyProperties (properties : List Tree) (name : String) :
    ((namedOnlyProperties properties).find? fun p => propertyName? p = some name) =
      (properties.find? fun p => propertyName? p = some name).map namedOnlyProperty := by
  induction properties with
  | nil =>
    rw [namedOnlyProperties]
    rfl
  | cons property rest ih =>
    rw [namedOnlyProperties]
    by_cases own : propertyName? property = some name
    · simp [own, propertyName?_namedOnlyProperty]
    · by_cases named : (propertyName? property).isSome = true
      · simp [own, named, propertyName?_namedOnlyProperty, ih]
      · simp [own, named, ih]

theorem firstNamed_namedOnly {properties : List Tree} {property : Tree} :
    FirstNamed (namedOnlyProperties properties) "module" property ↔
      FirstNamed properties "module" property := by
  rw [← find?_eq_some_iff_firstNamed, ← find?_eq_some_iff_firstNamed, find?_namedOnlyProperties]
  cases found : properties.find? fun p => propertyName? p = some "module" with
  | none => rfl
  | some first =>
    have named := (find?_eq_some_iff_firstNamed.mp found).1
    rw [Option.map_some, namedOnlyProperty_of_module named]

theorem mem_namedOnlyProperties {properties : List Tree} {property : Tree} :
    property ∈ namedOnlyProperties properties ↔
      ∃ p ∈ properties, (∃ name, Named p name) ∧ namedOnlyProperty p = property := by
  simp only [namedOnlyProperties_eq, List.mem_map, List.mem_filter, Option.isSome_iff_exists,
    propertyName?_eq_some_iff, and_assoc]

theorem childrenShaped_namedOnly {properties : List Tree} :
    ChildrenShaped (namedOnlyProperties properties) ↔ ChildrenShaped properties := by
  constructor
  · intro shaped property member named
    have kept := mem_namedOnlyProperties.mpr ⟨property, member, ⟨_, named⟩, rfl⟩
    rcases namedOnlyProperty_cases property with same | ⟨span, key, value, form, _, array, _⟩
    · rw [same] at kept
      exact shaped property kept named
    · exact ⟨span, key, value, form, array⟩
  · intro shaped property member named
    obtain ⟨p, inside, _, rfl⟩ := mem_namedOnlyProperties.mp member
    rw [← propertyName?_eq_some_iff, propertyName?_namedOnlyProperty,
      propertyName?_eq_some_iff] at named
    obtain ⟨span, key, value, rfl, array⟩ := shaped p inside named
    rcases namedOnlyProperty_cases (.node .keyValue span [key, value]) with
      same | ⟨_, _, _, form, _, _, told⟩
    · exact ⟨span, key, value, same, array⟩
    · cases form
      exact ⟨span, key, _, told, (shape_namedOnly value).trans array⟩

theorem namedOnlyProperty_of_children {span : Span} {key array : Tree}
    (named : KeyNamed key "children") (array_shape : array.shape = .arrayLit) :
    namedOnlyProperty (.node .keyValue span [key, array]) =
      .node .keyValue span [key, namedOnly array] := by
  have test : (keyName? key = some "children" && isArray array) = true := by
    rw [Bool.and_eq_true, decide_eq_true_eq]
    exact ⟨keyName?_eq_some_iff.mpr named, isArray_iff.mpr array_shape⟩
  rw [namedOnlyProperty, if_pos test]

/-- The arrays of children of a route whose properties for children are sound are those of the
route with its nameless properties, each without the nameless properties below. -/
theorem mem_children_namedOnly {properties : List Tree} (shaped : ChildrenShaped properties)
    {span : Span} {key value : Tree} (named : KeyNamed key "children") :
    .node .keyValue span [key, value] ∈ namedOnlyProperties properties ↔
      ∃ array, .node .keyValue span [key, array] ∈ properties ∧ namedOnly array = value := by
  constructor
  · intro member
    obtain ⟨p, inside, _, told⟩ := mem_namedOnlyProperties.mp member
    have same : propertyName? p = some "children" := by
      rw [← propertyName?_namedOnlyProperty, told]
      exact propertyName?_eq_some_iff.mpr (.keyed (Or.inl rfl) named)
    obtain ⟨place, k, array, rfl, isArray⟩ := shaped p inside (propertyName?_eq_some_iff.mp same)
    have children : KeyNamed k "children" := keyName?_eq_some_iff.mp same
    rw [namedOnlyProperty_of_children children isArray] at told
    cases told
    exact ⟨array, inside, rfl⟩
  · rintro ⟨array, member, rfl⟩
    obtain ⟨_, _, _, same, isArray⟩ := shaped _ member (.keyed (Or.inl rfl) named)
    cases same
    exact mem_namedOnlyProperties.mpr ⟨_, member, ⟨_, .keyed (Or.inl rfl) named⟩,
      namedOnlyProperty_of_children named isArray⟩

end RouteManifest.Routes
