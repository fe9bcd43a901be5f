import RouteManifest.Proofs.Nameless
import RouteManifest.Proofs.Rewriting

/-!
# Which arrays of routes are accepted

An array of routes is accepted exactly if it is well formed at every level: the grammar below says
so by the form of the syntax alone, but for the modules, which must be there to be read. Properties
without a name are no part of it, and leaving them out changes nothing.
-/

namespace RouteManifest.Routes

open Script

namespace Setting

/-- Planning for an array ends with a plan in a session in which nothing was done before. -/
def Accepts (s : Setting) (array : Tree) : Prop :=
  ∃ plan, ((s.plan array).run.run Session.fresh).1 = .ok plan

/-- A well formed array of routes: its elements are object literals, their properties for children
hold well formed arrays, and the first property for the module of each, if there is one, is the
deferred import of a module that can be read. -/
inductive WellFormed (s : Setting) : Tree → Prop
  | array {array : Tree}
      (objects : ∀ element ∈ array.parts, element.shape = .objectLit)
      (children : ∀ element ∈ array.parts, ChildrenShaped element.parts)
      (below : ∀ element ∈ array.parts, ∀ span key value,
        .node .keyValue span [key, value] ∈ element.parts → KeyNamed key "children" →
          WellFormed s value)
      (modules : ∀ element ∈ array.parts, ∀ property,
        FirstNamed element.parts "module" property → ∃ names, s.Defers property names) :
      WellFormed s array

/-- Something comes of an array by recursion. -/
def Rewrites (s : Setting) (array : Tree) : Prop := ∃ tree, s.rewritten array = .ok tree

theorem planArray_ok_iff_rewrites (s : Setting) (array : Tree) :
    (∃ plan, s.planArray array = .ok plan) ↔ s.Rewrites array := by
  rw [Rewrites, ← (s.agree_rewritten array).map_eq]
  cases s.planArray array with
  | ok plan => exact ⟨fun _ => ⟨_, rfl⟩, fun _ => ⟨_, rfl⟩⟩
  | error halt => exact ⟨fun ⟨_, h⟩ => (nomatch h), fun ⟨_, h⟩ => (nomatch h)⟩

theorem rewrittenProperties_eq_mapM (s : Setting) (properties : List Tree) :
    s.rewrittenProperties properties = properties.mapM s.rewrittenProperty := by
  induction properties with
  | nil => rfl
  | cons property rest ih => rw [rewrittenProperties, List.mapM_cons, ih]

theorem rewrittenBelow_eq_mapM (s : Setting) (elements : List Tree) :
    s.rewrittenBelow elements = elements.mapM fun element => do
      return element.withParts (← s.rewrittenProperties element.parts) := by
  induction elements with
  | nil => rfl
  | cons element rest ih =>
    obtain ⟨shape, span, properties⟩ := element
    rw [rewrittenBelow, List.mapM_cons, ih]
    simp [Tree.withParts, Tree.parts, Tree.shape, Tree.span]

theorem rewrittenProperty_ok_iff (s : Setting) (property : Tree) :
    (∃ tree, s.rewrittenProperty property = .ok tree) ↔
      ∀ span key value, property = .node .keyValue span [key, value] → KeyNamed key "children" →
        value.shape = .arrayLit → s.Rewrites value := by
  rcases keyValue_or_value?_eq_none property with ⟨span, key, value, rfl⟩ | bare
  · rw [rewrittenProperty]
    split
    · rename_i array
      rw [Bool.and_eq_true, decide_eq_true_eq, keyName?_eq_some_iff, isArray_iff] at array
      simp only [bind_eq_ok_iff]
      constructor
      · rintro ⟨_, tree, told, _⟩ _ _ _ same _ _
        cases same
        exact ⟨tree, told⟩
      · intro below
        obtain ⟨tree, told⟩ := below span key value rfl array.1 array.2
        exact ⟨_, tree, told, rfl⟩
    · rename_i other
      rw [Bool.and_eq_true, decide_eq_true_eq, keyName?_eq_some_iff, isArray_iff] at other
      constructor
      · rintro _ _ _ _ same named array
        cases same
        exact absurd ⟨named, array⟩ other
      · exact fun _ => ⟨_, rfl⟩
  · rw [rewrittenProperty_of_value?_eq_none s bare]
    constructor
    · rintro _ span key value rfl
      cases bare
    · exact fun _ => ⟨_, rfl⟩

theorem rewrittenBelow_ok_iff (s : Setting) (elements : List Tree) :
    (∃ trees, s.rewrittenBelow elements = .ok trees) ↔
      ∀ element ∈ elements, ∀ property ∈ element.parts,
        ∃ tree, s.rewrittenProperty property = .ok tree := by
  rw [rewrittenBelow_eq_mapM, mapM_ok_iff]
  refine forall₂_congr fun element _ => ?_
  rw [← mapM_ok_iff, ← rewrittenProperties_eq_mapM]
  constructor
  · rintro ⟨_, told⟩
    obtain ⟨trees, told, _⟩ := bind_eq_ok_iff.mp told
    exact ⟨trees, told⟩
  · rintro ⟨trees, told⟩
    exact ⟨_, bind_eq_ok_iff.mpr ⟨trees, told, rfl⟩⟩

theorem rewrites_iff (s : Setting) (array : Tree) :
    s.Rewrites array ↔
      (∀ element ∈ array.parts, ∃ names, s.received array element = .ok names) ∧
        ∀ element ∈ array.parts, ∀ property ∈ element.parts,
          ∃ tree, s.rewrittenProperty property = .ok tree := by
  obtain ⟨shape, span, elements⟩ := array
  rw [← mapM_ok_iff, ← rewrittenBelow_ok_iff, Rewrites, rewritten]
  simp only [Tree.parts, bind_eq_ok_iff]
  constructor
  · rintro ⟨_, level, looked, below, told, _⟩
    exact ⟨⟨level, looked⟩, below, told⟩
  · rintro ⟨⟨level, looked⟩, below, told⟩
    exact ⟨_, level, looked, below, told, rfl⟩

theorem moduleNames_ok_iff (s : Setting) (properties : List Tree) :
    (∃ names, s.ModuleNames properties names) ↔
      ∀ property, FirstNamed properties "module" property → ∃ names, s.Defers property names := by
  constructor
  · rintro ⟨names, told⟩ property first
    cases names with
    | none =>
      obtain ⟨named, before, after, split, _⟩ := first
      exact absurd named (told property (by simp [split]))
    | some names =>
      obtain ⟨property', first', defers⟩ := told
      have same := (find?_eq_some_iff_firstNamed.mpr first').symm.trans
        (find?_eq_some_iff_firstNamed.mpr first)
      cases same
      exact ⟨names, defers⟩
  · intro defers
    cases found : properties.find? fun p => propertyName? p = some "module" with
    | none =>
      refine ⟨none, fun p member named => ?_⟩
      have called := propertyName?_eq_some_iff.mpr named
      exact List.find?_eq_none.mp found p member (by simpa using called)
    | some property =>
      have first := find?_eq_some_iff_firstNamed.mp found
      obtain ⟨names, told⟩ := defers property first
      exact ⟨some names, property, first, told⟩

theorem received_ok_iff (s : Setting) (array element : Tree) :
    (∃ names, s.received array element = .ok names) ↔
      element.shape = .objectLit ∧ ChildrenShaped element.parts ∧
        ∀ property, FirstNamed element.parts "module" property →
          ∃ names, s.Defers property names := by
  simp only [received_eq_ok_iff, exists_and_left, moduleNames_ok_iff]

theorem rewrites_of_wellFormed {s : Setting} {array : Tree} (h : s.WellFormed array) :
    s.Rewrites array := by
  induction h with
  | array objects children below modules ih =>
    rw [rewrites_iff]
    constructor
    · intro element member
      rw [received_ok_iff]
      exact ⟨objects element member, children element member, modules element member⟩
    · intro element member property inside
      rw [rewrittenProperty_ok_iff]
      rintro span key value rfl named _
      exact ih element member span key value inside named

theorem wellFormed_of_rewrites {s : Setting} {array : Tree} (h : s.Rewrites array) :
    s.WellFormed array := by
  induction size : array.size using Nat.strongRecOn generalizing array with
  | ind n ih =>
    obtain ⟨received, below⟩ := (s.rewrites_iff array).mp h
    simp only [received_ok_iff] at received
    refine .array (fun element member => (received element member).1)
      (fun element member => (received element member).2.1) ?_
      (fun element member => (received element member).2.2)
    intro element member span key value inside named
    obtain ⟨_, _, _, same, array⟩ := (received element member).2.1 _ inside
      (.keyed (Or.inl rfl) named)
    cases same
    have told := (s.rewrittenProperty_ok_iff _).mp (below element member _ inside)
    have inProperty : value.size < (.node .keyValue span [key, value] : Tree).size :=
      Tree.size_lt_of_mem_parts (List.mem_cons_of_mem key List.mem_cons_self)
    have inElement := Tree.size_lt_of_mem_parts inside
    have inArray := Tree.size_lt_of_mem_parts member
    exact ih value.size (by omega) (told span key value rfl named array) rfl

theorem planArray_ok_iff (s : Setting) (array : Tree) :
    (∃ plan, s.planArray array = .ok plan) ↔ s.WellFormed array :=
  (s.planArray_ok_iff_rewrites array).trans ⟨wellFormed_of_rewrites, rewrites_of_wellFormed⟩

theorem accepts_iff (s : Setting) (array : Tree) : s.Accepts array ↔ s.WellFormed array := by
  rw [Accepts, (s.answers_plan array).run_fresh, s.planArray_ok_iff]

theorem wellFormed_namedOnly_of {s : Setting} {array : Tree} (h : s.WellFormed array) :
    s.WellFormed (namedOnly array) := by
  induction h with
  | @array array objects children below modules ih =>
    have elements : ∀ route ∈ (namedOnly array).parts, ∃ element ∈ array.parts,
        route.shape = element.shape ∧ route.parts = namedOnlyProperties element.parts := by
      intro route member
      rw [parts_namedOnly] at member
      obtain ⟨element, inside, rfl⟩ := List.mem_map.mp member
      exact ⟨element, inside, rfl, rfl⟩
    refine .array ?_ ?_ ?_ ?_
    · intro route member
      obtain ⟨element, inside, shape, _⟩ := elements route member
      exact shape.trans (objects element inside)
    · intro route member
      obtain ⟨element, inside, _, parts⟩ := elements route member
      rw [parts]
      exact childrenShaped_namedOnly.mpr (children element inside)
    · intro route member span key value inRoute named
      obtain ⟨element, inside, _, parts⟩ := elements route member
      rw [parts, mem_children_namedOnly (children element inside) named] at inRoute
      obtain ⟨array, own, rfl⟩ := inRoute
      exact ih element inside span key array own named
    · intro route member property first
      obtain ⟨element, inside, _, parts⟩ := elements route member
      rw [parts, firstNamed_namedOnly] at first
      exact modules element inside property first

theorem wellFormed_of_namedOnly {s : Setting} {tree : Tree} (h : s.WellFormed tree) :
    ∀ array, namedOnly array = tree → s.WellFormed array := by
  induction h with
  | @array tree objects children below modules ih =>
    rintro array rfl
    have kept : ∀ element ∈ array.parts,
        element.withParts (namedOnlyProperties element.parts) ∈ (namedOnly array).parts := by
      intro element member
      rw [parts_namedOnly]
      exact List.mem_map_of_mem member
    have shaped : ∀ element ∈ array.parts, ChildrenShaped element.parts := fun element member =>
      childrenShaped_namedOnly.mp (children _ (kept element member))
    refine .array ?_ shaped ?_ ?_
    · intro element member
      have object := objects _ (kept element member)
      exact object
    · intro element member span key value inside named
      have inRoute := (mem_children_namedOnly (shaped element member) named).mpr
        ⟨value, inside, rfl⟩
      exact ih _ (kept element member) span key (namedOnly value) inRoute named value rfl
    · intro element member property first
      exact modules _ (kept element member) property (firstNamed_namedOnly.mpr first)

/-- An array of routes is accepted exactly if it is well formed, and properties without a name have
no influence on that, wherever they stand. -/
theorem accepts_iff_wellFormed (s : Setting) (array : Tree) :
    (s.Accepts array ↔ s.WellFormed array) ∧
      (s.Accepts (namedOnly array) ↔ s.Accepts array) := by
  refine ⟨s.accepts_iff array, ?_⟩
  rw [s.accepts_iff, s.accepts_iff]
  exact ⟨fun h => wellFormed_of_namedOnly h array rfl, wellFormed_namedOnly_of⟩

end Setting

end RouteManifest.Routes
