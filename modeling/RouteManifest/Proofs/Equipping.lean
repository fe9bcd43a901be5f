import RouteManifest.Proofs.Positions
import RouteManifest.Proofs.Receivers

/-!
# Routes with further export names

Properties for export names are never looked at: whatever of them is put behind the properties of
routes, each route keeps its properties for children and for its module, an array stays well formed,
and its routes stay where they are. The tree in which that is found may have been read from another
text, as long as it is alike.
-/

namespace RouteManifest.Routes

open Script

/-- Additions to a tree that keep to the elements of array literals: what is added are properties
for export names, and the elements are object literals. The cases of a `switch` are no such array. -/
structure KeepsToElements (more : Address → List Tree) (t : Tree) : Prop where
  made : ∀ address, ∀ p ∈ more address, ∃ names, p = exportsProperty names
  objects : ∀ address, more address ≠ [] → ∃ u, t.at? address = some u ∧ u.shape = .objectLit
  inArrays : ∀ address k, more (address ++ [k]) ≠ [] →
    ∃ array, t.at? address = some array ∧ array.shape = .arrayLit
  noCases : ∀ address k u, more (address ++ [1, k]) ≠ [] → t.at? address = some u →
    u.shape ≠ .switchStmt

/-- A tree is another one with further export names for elements of its arrays, up to positions. -/
structure Equipped (more : Address → List Tree) (t u : Tree) : Prop
    extends KeepsToElements more t where
  grown : Tree.Grown more t u

namespace KeepsToElements

variable {more : Address → List Tree} {t : Tree}

/-- Nothing is added to a tree. -/
theorem of_nothing (t : Tree) : KeepsToElements (fun _ => []) t := by
  refine ⟨fun _ p member => ?_, fun _ added => ?_, fun _ _ added => ?_, fun _ _ _ added => ?_⟩
  · cases member
  · exact absurd rfl added
  · exact absurd rfl added
  · exact absurd rfl added

theorem nothing (h : KeepsToElements more t) (other : t.shape ≠ .objectLit) : more [] = [] := by
  refine Classical.byContradiction fun added => ?_
  obtain ⟨_, here, object⟩ := h.objects [] added
  cases here
  exact other object

theorem nothing_below (h : KeepsToElements more t) (other : t.shape ≠ .arrayLit) (k : Nat) :
    more [k] = [] := by
  refine Classical.byContradiction fun added => ?_
  obtain ⟨array, here, isArray⟩ := h.inArrays [] k added
  cases here
  exact other isArray

/-- Nothing is added where there is nothing. -/
theorem nothing_behind (h : KeepsToElements more t) {k : Nat} (gone : t.parts[k]? = none) :
    (fun below => more (k :: below)) = fun _ => [] := by
  funext below
  refine Classical.byContradiction fun added => ?_
  obtain ⟨_, found, _⟩ := h.objects (k :: below) added
  rw [Tree.at?_cons, gone] at found
  cases found

theorem at? (h : KeepsToElements more t) {p : Tree} {outer : Address}
    (there : t.at? outer = some p) : KeepsToElements (fun below => more (outer ++ below)) p := by
  have down : ∀ below, t.at? (outer ++ below) = p.at? below := fun below => by
    rw [Tree.at?_append, there, Option.bind_some]
  refine ⟨fun address => h.made _, fun address added => ?_, fun address i added => ?_,
    fun address i u added found => ?_⟩
  · rw [← down]
    exact h.objects (outer ++ address) added
  · rw [← List.append_assoc] at added
    rw [← down]
    exact h.inArrays (outer ++ address) i added
  · rw [← List.append_assoc] at added
    exact h.noCases (outer ++ address) i u added ((down address).trans found)

theorem part (h : KeepsToElements more t) {p : Tree} {k : Nat} (there : t.parts[k]? = some p) :
    KeepsToElements (fun below => more (k :: below)) p := by
  have here : t.at? [k] = some p := by
    rw [Tree.at?_cons, there]
    rfl
  exact h.at? here

/-- A missing part is no exception. -/
theorem part_number (h : KeepsToElements more t) (k : Nat) :
    KeepsToElements (fun below => more (k :: below)) (t.part k) := by
  cases there : t.parts[k]? with
  | some p =>
    rw [Tree.part_eq_of_getElem? there]
    exact h.part there
  | none =>
    rw [h.nothing_behind there]
    exact of_nothing _

end KeepsToElements

namespace Equipped

variable {more : Address → List Tree} {t u : Tree}

theorem part (h : Equipped more t u) {k : Nat} {p : Tree} (there : t.parts[k]? = some p) :
    ∃ q, u.parts[k]? = some q ∧ Equipped (fun below => more (k :: below)) p q := by
  obtain ⟨q, found, grown⟩ := h.grown.part there
  exact ⟨q, found, h.toKeepsToElements.part there, grown⟩

theorem at? (h : Equipped more t u) {address : Address} {p : Tree} (there : t.at? address = some p) :
    ∃ q, u.at? address = some q ∧ Equipped (fun below => more (address ++ below)) p q := by
  obtain ⟨q, found, grown⟩ := h.grown.at? there
  exact ⟨q, found, h.toKeepsToElements.at? there, grown⟩

/-- A node is one that was there, or it stands in a property for export names. -/
theorem at?_or_added (h : Equipped more t u) {address : Address} {q : Tree}
    (found : u.at? address = some q) :
    (∃ p, t.at? address = some p ∧ Equipped (fun below => more (address ++ below)) p q) ∨
      ∃ (added : Tree) (inner : Address) (names : List String),
        added.placeless = (exportsProperty names).placeless ∧ added.at? inner = some q := by
  rcases h.grown.at?_or_added found with ⟨p, there, grown⟩ | ⟨outer, _, inner, p, added, _, rest⟩
  · exact Or.inl ⟨p, there, h.toKeepsToElements.at? there, grown⟩
  · obtain ⟨member, alike, below⟩ := rest
    obtain ⟨names, rfl⟩ := h.made outer p member
    exact Or.inr ⟨added, inner, names, alike, below⟩

/-- A part is one that was there, or a property for export names. -/
theorem part_or_added (h : Equipped more t u) {k : Nat} {q : Tree} (found : u.parts[k]? = some q) :
    (∃ p, t.parts[k]? = some p ∧ Equipped (fun below => more (k :: below)) p q) ∨
      t.parts[k]? = none ∧ ∃ names, q.placeless = (exportsProperty names).placeless := by
  rcases h.grown.part_or_added found with ⟨p, there, grown⟩ | ⟨behind, p, added, alike⟩
  · exact Or.inl ⟨p, there, h.toKeepsToElements.part there, grown⟩
  · obtain ⟨names, rfl⟩ := h.made [] p added
    exact Or.inr ⟨behind, names, alike⟩

theorem part_of_nothing (h : Equipped more t u) (nothing : more [] = []) {k : Nat} {q : Tree}
    (found : u.parts[k]? = some q) :
    ∃ p, t.parts[k]? = some p ∧ Equipped (fun below => more (k :: below)) p q := by
  obtain ⟨p, there, grown⟩ := h.grown.part_of_nothing nothing found
  exact ⟨p, there, h.toKeepsToElements.part there, grown⟩

/-- A node to which nothing is added has as many parts as it had. -/
theorem length_of_nothing (h : Equipped more t u) (nothing : more [] = []) :
    u.parts.length = t.parts.length := by
  rw [h.grown.length, nothing, List.length_nil, Nat.add_zero]

theorem gone_of_nothing (h : Equipped more t u) (nothing : more [] = []) {k : Nat}
    (gone : t.parts[k]? = none) : u.parts[k]? = none := by
  have := h.length_of_nothing nothing
  have := List.getElem?_eq_none_iff.mp gone
  exact List.getElem?_eq_none_iff.mpr (by omega)

/-- A node to which nothing is added has the parts that it had, the missing ones included. -/
theorem part_number (h : Equipped more t u) (nothing : more [] = []) (k : Nat) :
    Equipped (fun below => more (k :: below)) (t.part k) (u.part k) := by
  refine ⟨h.toKeepsToElements.part_number k, ?_⟩
  cases there : t.parts[k]? with
  | some p =>
    obtain ⟨q, found, equipped⟩ := h.part there
    rw [Tree.part_eq_of_getElem? there, Tree.part_eq_of_getElem? found]
    exact equipped.grown
  | none =>
    rw [Tree.part_eq_absent there, Tree.part_eq_absent (h.gone_of_nothing nothing there),
      h.nothing_behind there]
    exact .of_placeless rfl

/-- The only part of a node stays its only part. -/
theorem parts_eq_singleton (h : Equipped more t u) (nothing : more [] = []) {p : Tree}
    (alone : t.parts = [p]) :
    ∃ q, u.parts = [q] ∧ Equipped (fun below => more (0 :: below)) p q := by
  have length := h.length_of_nothing nothing
  obtain ⟨q, found, part⟩ := h.part (k := 0) (by rw [alone]; rfl)
  rw [alone] at length
  match all : u.parts, length with
  | [_], _ =>
    rw [all] at found
    cases found
    exact ⟨q, rfl, part⟩

/-- The only part of a node was so before. -/
theorem of_parts_eq_singleton (h : Equipped more t u) (nothing : more [] = []) {q : Tree}
    (alone : u.parts = [q]) :
    ∃ p, t.parts = [p] ∧ Equipped (fun below => more (0 :: below)) p q := by
  have length := h.length_of_nothing nothing
  rw [alone] at length
  match all : t.parts, length with
  | [p], _ =>
    obtain ⟨_, same, part⟩ := h.parts_eq_singleton nothing all
    cases alone.symm.trans same
    exact ⟨p, rfl, part⟩

/-- A list of parts in which nothing is added has the length that it had. -/
theorem length_part (h : Equipped more t u) (nothing : more [] = []) {k : Nat}
    (nothing' : more [k] = []) : (u.part k).parts.length = (t.part k).parts.length :=
  (h.part_number nothing k).length_of_nothing nothing'

end Equipped

/-- The name of a key, by its shape. -/
theorem keyName?_eq (key : Tree) :
    keyName? key = match key.shape.placeless with
      | .ident name _ _ => some name
      | .stringLit value _ => some value
      | _ => none := by
  unfold keyName?
  cases key.shape with
  | _ => rfl

theorem keyName?_eq_of_alike {one two : Tree} (alike : one.shape.placeless = two.shape.placeless) :
    keyName? one = keyName? two := by
  rw [keyName?_eq one, keyName?_eq two, alike]

/-- The name of a property, by its shape. -/
theorem propertyName?_eq (property : Tree) :
    propertyName? property = match property.shape.placeless with
      | .ident name _ _ => some name
      | .keyValue | .assignProp | .getterProp | .setterProp | .methodProp =>
        keyName? (property.part 0)
      | _ => none := by
  unfold propertyName?
  cases property.shape with
  | _ => rfl

theorem propertyName?_eq_of_alike {one two : Tree}
    (alike : one.shape.placeless = two.shape.placeless)
    (key : (one.part 0).shape.placeless = (two.part 0).shape.placeless) :
    propertyName? one = propertyName? two := by
  rw [propertyName?_eq one, propertyName?_eq two, alike, keyName?_eq_of_alike key]

theorem keyNamed_iff_of_alike {one two : Tree} (alike : one.shape.placeless = two.shape.placeless)
    {name : String} : KeyNamed one name ↔ KeyNamed two name := by
  rw [← keyName?_eq_some_iff, keyName?_eq_of_alike alike, keyName?_eq_some_iff]

/-- What was added goes by no name that is looked for. -/
theorem not_named_added {q : Tree} {names : List String}
    (alike : q.placeless = (exportsProperty names).placeless) {name : String}
    (other : name ≠ exportsKey) : ¬ Named q name := by
  intro named
  obtain ⟨shape, parts⟩ := Tree.placeless_eq_iff.mp alike
  have key : (q.part 0).shape.placeless = ((exportsProperty names).part 0).shape.placeless := by
    have first := congrArg (fun parts : List Tree => (parts.getD 0 .absent).shape) parts
    cases there : q.parts with
    | nil =>
      rw [there] at parts
      cases parts
    | cons k rest =>
      rw [there] at first
      simp only [Tree.part, there]
      simpa [exportsProperty] using first
  have same := propertyName?_eq_of_alike shape key
  rw [propertyName?_eq_some_iff.mpr named] at same
  exact other (Option.some.inj same)

namespace Equipped

variable {more : Address → List Tree} {t u : Tree}

theorem named_iff (h : Equipped more t u) {name : String} : Named u name ↔ Named t name := by
  rw [← propertyName?_eq_some_iff, ← propertyName?_eq_some_iff]
  by_cases object : t.shape = .objectLit
  · have object' := (h.grown.shape_iff rfl).mpr object
    simp [propertyName?, object, object']
  · have key := (h.part_number (h.nothing object) 0).grown.shape
    rw [propertyName?_eq_of_alike h.grown.shape key]

theorem keyNamed_iff (h : Equipped more t u) {name : String} : KeyNamed u name ↔ KeyNamed t name :=
  keyNamed_iff_of_alike h.grown.shape

/-- A key and a value stay a key and a value. -/
theorem keyValue (h : Equipped more t u) {span : Span} {key value : Tree}
    (form : t = .node .keyValue span [key, value]) :
    ∃ span' key' value', u = .node .keyValue span' [key', value'] ∧
      Equipped (fun below => more (0 :: below)) key key' ∧
        Equipped (fun below => more (1 :: below)) value value' := by
  subst form
  obtain ⟨key', first, keys⟩ := h.part (k := 0) rfl
  obtain ⟨value', second, values⟩ := h.part (k := 1) rfl
  have length := h.length_of_nothing (h.nothing (by simp))
  have shape : u.shape = .keyValue := (h.grown.shape_iff rfl).mpr rfl
  obtain ⟨shape', span', parts⟩ := u
  cases shape
  match parts, length with
  | [_, _], _ =>
    cases first
    cases second
    exact ⟨span', _, _, rfl, keys, values⟩

/-- What is a key and a value was so before. -/
theorem of_keyValue (h : Equipped more t u) {span : Span} {key value : Tree}
    (form : u = .node .keyValue span [key, value]) :
    ∃ span' key' value', t = .node .keyValue span' [key', value'] ∧
      Equipped (fun below => more (0 :: below)) key' key ∧
        Equipped (fun below => more (1 :: below)) value' value := by
  have shape : t.shape = .keyValue := (h.grown.shape_iff rfl).mp (by rw [form]; rfl)
  have length := h.length_of_nothing (h.nothing (by simp [shape]))
  rw [form] at length
  obtain ⟨shape', span', parts⟩ := t
  cases shape
  match parts, length with
  | [key', value'], _ =>
    obtain ⟨_, _, _, form', keys, values⟩ := h.keyValue rfl
    cases form.symm.trans form'
    exact ⟨span', key', value', rfl, keys, values⟩

/-- A deferred import stays the deferred import of the same module. -/
theorem defersImport (h : Equipped more t u) {specifier : String}
    (defers : DefersImport t specifier) : DefersImport u specifier := by
  obtain ⟨plain, noParameters, isCall, isImport, raw, span, parts, argument⟩ := defers
  have nothing := h.nothing (by simp [plain])
  have nothing' := h.nothing_below (by simp [plain])
  have body := h.part_number nothing 1
  have inBody := body.nothing (by simp [isCall])
  have inBody' := body.nothing_below (by simp [isCall])
  refine ⟨(h.grown.shape_iff rfl).mpr plain, ?_, (body.grown.shape_iff rfl).mpr isCall,
    ((body.part_number inBody 0).grown.shape_iff rfl).mpr isImport, ?_⟩
  · rw [← List.length_eq_zero_iff, h.length_part nothing (nothing' 0), noParameters]
    rfl
  · obtain ⟨q, alone, alike⟩ := (body.part_number inBody 1).parts_eq_singleton (inBody' 1) argument
    obtain ⟨raw', form⟩ := (Shape.stringLit_iff_of_placeless alike.grown.shape).mpr ⟨raw, rfl⟩
    obtain ⟨shape, span', parts'⟩ := q
    cases form
    exact ⟨raw', span', parts', alone⟩

end Equipped

/-- The first property with a name, by its number. -/
theorem firstNamed_iff_getElem? {properties : List Tree} {name : String} {property : Tree} :
    FirstNamed properties name property ↔
      ∃ k : Nat, properties[k]? = some property ∧ Named property name ∧
        ∀ (j : Nat) (p : Tree), j < k → properties[j]? = some p → ¬ Named p name := by
  constructor
  · rintro ⟨named, before, after, rfl, none⟩
    refine ⟨before.length, by simp, named, fun j p less there => ?_⟩
    rw [List.getElem?_append_left less] at there
    exact none p (List.mem_of_getElem? there)
  · rintro ⟨k, there, named, none⟩
    obtain ⟨bound, rfl⟩ := List.getElem?_eq_some_iff.mp there
    refine ⟨named, properties.take k, properties.drop (k + 1), ?_, fun p member => ?_⟩
    · rw [List.getElem_cons_drop, List.take_append_drop]
    · obtain ⟨j, found⟩ := List.mem_iff_getElem?.mp member
      have less : j < k := by
        have := (List.getElem?_eq_some_iff.mp found).1
        rw [List.length_take] at this
        omega
      rw [List.getElem?_take_of_lt less] at found
      exact none j p less found

namespace Setting

variable {s s' : Setting} {more : Address → List Tree}

/-- A route refers to the module that it referred to. -/
theorem ModuleNames.equipped {route route' : Tree} (h : Equipped more route route')
    (reads : ∀ specifier names, s.Reads specifier names → s'.Reads specifier names)
    {names : Option (List String)} (told : s.ModuleNames route.parts names) :
    s'.ModuleNames route'.parts names := by
  cases names with
  | none =>
    intro q member named
    obtain ⟨k, found⟩ := List.mem_iff_getElem?.mp member
    rcases h.part_or_added found with ⟨p, there, part⟩ | ⟨_, names, alike⟩
    · exact told p (List.mem_of_getElem? there) (part.named_iff.mp named)
    · exact not_named_added alike (by decide) named
  | some names =>
    obtain ⟨property, first, span, key, value, specifier, form, defers, read⟩ := told
    obtain ⟨k, there, named, none⟩ := firstNamed_iff_getElem?.mp first
    obtain ⟨q, found, part⟩ := h.part there
    obtain ⟨span', key', value', form', _, values⟩ := part.keyValue form
    refine ⟨q, firstNamed_iff_getElem?.mpr ⟨k, found, part.named_iff.mpr named, ?_⟩, span', key',
      value', specifier, form', values.defersImport defers, reads specifier names read⟩
    intro j p less there' named'
    rcases h.part_or_added there' with ⟨p', before, part'⟩ | ⟨_, names', alike⟩
    · exact none j p' less before (part'.named_iff.mp named')
    · exact not_named_added alike (by decide) named'

end Setting

theorem ChildrenShaped.equipped {more : Address → List Tree} {route route' : Tree}
    (h : Equipped more route route') (shaped : ChildrenShaped route.parts) :
    ChildrenShaped route'.parts := by
  intro q member named
  obtain ⟨k, found⟩ := List.mem_iff_getElem?.mp member
  rcases h.part_or_added found with ⟨p, there, part⟩ | ⟨_, names, alike⟩
  · obtain ⟨span, key, value, form, isArray⟩ :=
      shaped p (List.mem_of_getElem? there) (part.named_iff.mp named)
    obtain ⟨span', key', value', form', _, values⟩ := part.keyValue form
    exact ⟨span', key', value', form', (values.grown.shape_iff rfl).mpr isArray⟩
  · exact absurd named (not_named_added alike (by decide))

/-- A route stays where it is. -/
theorem RouteAt.equipped {array route : Tree} {address : Address}
    (place : RouteAt array address route) {more : Address → List Tree} {array' : Tree}
    (h : Equipped more array array') :
    ∃ route', RouteAt array' address route' ∧
      Equipped (fun below => more (address ++ below)) route route' := by
  induction place generalizing more array' with
  | element there object =>
    obtain ⟨route', found, part⟩ := h.part there
    exact ⟨route', .element found ((part.grown.shape_iff rfl).mpr object), part⟩
  | child there object inside named isArray _ ih =>
    obtain ⟨element', found, part⟩ := h.part there
    obtain ⟨property', found', part'⟩ := part.part inside
    obtain ⟨_, key', value', rfl, keys, values⟩ := part'.keyValue rfl
    obtain ⟨route', place', equipped⟩ := ih values
    exact ⟨route', .child found ((part.grown.shape_iff rfl).mpr object) found'
      (keys.keyNamed_iff.mpr named) ((values.grown.shape_iff rfl).mpr isArray) place', equipped⟩

/-- No other routes come about. -/
theorem RouteAt.of_equipped {array' route' : Tree} {address : Address}
    (place : RouteAt array' address route') {more : Address → List Tree} {array : Tree}
    (h : Equipped more array array') (isArray : array.shape = .arrayLit) :
    ∃ route, RouteAt array address route ∧
      Equipped (fun below => more (address ++ below)) route route' := by
  induction place generalizing more array with
  | element found object =>
    obtain ⟨route, there, part⟩ := h.part_of_nothing (h.nothing (by simp [isArray])) found
    exact ⟨route, .element there ((part.grown.shape_iff rfl).mp object), part⟩
  | child found object inside named isArray' _ ih =>
    obtain ⟨element, there, part⟩ := h.part_of_nothing (h.nothing (by simp [isArray])) found
    rcases part.part_or_added inside with ⟨property, there', part'⟩ | ⟨_, names, alike⟩
    · obtain ⟨_, key, value, rfl, keys, values⟩ := part'.of_keyValue rfl
      have array := (values.grown.shape_iff rfl).mp isArray'
      obtain ⟨route, place', equipped⟩ := ih values array
      exact ⟨route, .child there ((part.grown.shape_iff rfl).mp object) there'
        (keys.keyNamed_iff.mp named) array place', equipped⟩
    · exact absurd (.keyed (Or.inl rfl) named) (not_named_added alike (by decide))

/-- A well formed array stays well formed. -/
theorem Setting.WellFormed.equipped {s s' : Setting} {array : Tree} (wellFormed : s.WellFormed array)
    (reads : ∀ specifier names, s.Reads specifier names → s'.Reads specifier names)
    {more : Address → List Tree} {array' : Tree} (h : Equipped more array array')
    (isArray : array.shape = .arrayLit) : s'.WellFormed array' := by
  induction wellFormed generalizing more array' with
  | @array array objects children below modules ih =>
    have elements : ∀ element' ∈ array'.parts, ∃ element ∈ array.parts, ∃ inner,
        Equipped inner element element' := by
      intro element' member
      obtain ⟨k, found⟩ := List.mem_iff_getElem?.mp member
      obtain ⟨element, there, part⟩ := h.part_of_nothing (h.nothing (by simp [isArray])) found
      exact ⟨element, List.mem_of_getElem? there, _, part⟩
    refine .array ?_ ?_ ?_ ?_
    · intro element' member
      obtain ⟨element, there, _, part⟩ := elements element' member
      exact (part.grown.shape_iff rfl).mpr (objects element there)
    · intro element' member
      obtain ⟨element, there, _, part⟩ := elements element' member
      exact (children element there).equipped part
    · intro element' member span key value inside named
      obtain ⟨element, there, _, part⟩ := elements element' member
      obtain ⟨k, found⟩ := List.mem_iff_getElem?.mp inside
      rcases part.part_or_added found with ⟨property, there', part'⟩ | ⟨_, names, alike⟩
      · obtain ⟨span', key', value', rfl, keys, values⟩ := part'.of_keyValue rfl
        have named' := keys.keyNamed_iff.mp named
        have member' := List.mem_of_getElem? there'
        obtain ⟨_, _, _, same, isArray'⟩ :=
          children element there _ member' (.keyed (Or.inl rfl) named')
        cases same
        exact ih element there span' key' value' member' named' values isArray'
      · exact absurd (.keyed (Or.inl rfl) named) (not_named_added alike (by decide))
    · intro element' member
      obtain ⟨element, there, _, part⟩ := elements element' member
      obtain ⟨names, told⟩ := (s.moduleNames_ok_iff element.parts).mpr (modules element there)
      exact (s'.moduleNames_ok_iff element'.parts).mp ⟨names, told.equipped part reads⟩

end RouteManifest.Routes
