import RouteManifest.Routes.Planning
import RouteManifest.Proofs.Answers
import RouteManifest.Proofs.Properties

/-!
# Routes rewritten by recursion

The same rewriting of an array of routes without a stack of waiting arrays, without a cache and
without a plan: every module is read where it is referred to, and the arrays below the routes of
an array are rewritten by recursion once the routes themselves have been looked at. It is what the
work on a stack is measured against.
-/

namespace RouteManifest.Routes

open Script

/-- A route with the export names of its module, if it receives any. -/
def receive : Option (List String) → Tree → Tree
  | some names, route => withExports names route
  | none, route => route

namespace Setting

/-- A property named `children` is a key and an array. -/
def childrenAlone (s : Setting) (property : Tree) : Except (Halt CompileError) Unit :=
  match property with
  | .node .keyValue _ [_, value] =>
    if isArray value then .ok ()
    else .error (.error (.childrenShape (s.file.location value.span) .notArray))
  | _ => .error (.error (.childrenShape (s.file.location property.span) .notAssignment))

/-- The names that the module of a property exports, read from the file of the module. -/
def namesOf (s : Setting) (property : Tree) : Except (Halt CompileError) (List String) :=
  match deferredImport property with
  | .error span => .error (.error (.moduleShape (s.file.location span)))
  | .ok specifier => do
    let module ← Project.routeModule s.project.root s.file.path specifier
    let found ← (s.project.extract module).mapError
      (Halt.map (.extraction (s.file.location property.span) specifier))
    return found.names

/-- The names that an element of an array receives, the routes below it left out. -/
def received (s : Setting) (array element : Tree) :
    Except (Halt CompileError) (Option (List String)) :=
  match element.shape with
  | .objectLit => do
    (element.parts.filter fun p => propertyName? p = some "children").forM s.childrenAlone
    match element.parts.find? fun p => propertyName? p = some "module" with
    | some property => return some (← s.namesOf property)
    | none => return none
  | .spread dots => .error (.error (.routeShape (s.file.location dots)))
  | .absent => .error (.error (.routeShape (s.file.location array.span)))
  | _ => .error (.error (.routeShape (s.file.location element.span)))

mutual

/-- An array of routes with the export names of all modules, or the first fault: all its elements
come before anything below the first of them. -/
def rewritten (s : Setting) : Tree → Except (Halt CompileError) Tree
  | .node shape span elements => do
    let level ← elements.mapM (s.received (.node shape span elements))
    let below ← rewrittenBelow s elements
    return .node shape span (List.zipWith receive level below)

/-- The elements of an array with the arrays below them rewritten, in order. -/
def rewrittenBelow (s : Setting) : List Tree → Except (Halt CompileError) (List Tree)
  | [] => return []
  | .node shape span properties :: rest => do
    let properties ← rewrittenProperties s properties
    return .node shape span properties :: (← rewrittenBelow s rest)

def rewrittenProperties (s : Setting) : List Tree → Except (Halt CompileError) (List Tree)
  | [] => return []
  | property :: rest => do
    let property ← rewrittenProperty s property
    return property :: (← rewrittenProperties s rest)

def rewrittenProperty (s : Setting) : Tree → Except (Halt CompileError) Tree
  | .node .keyValue span [key, value] => do
    if keyName? key = some "children" && isArray value then
      return .node .keyValue span [key, ← rewritten s value]
    else return .node .keyValue span [key, value]
  | property => return property

end

/-- The module that a specifier means in the routes file exports these names now. -/
def Reads (s : Setting) (specifier : String) (names : List String) : Prop :=
  ∃ module file,
    (Project.routeModule s.project.root s.file.path specifier : Except (Halt CompileError) Path) =
        .ok module ∧
      s.project.extract module = .ok ⟨file, names⟩

/-- The names of the module that a property defers the import of. -/
def Defers (s : Setting) (property : Tree) (names : List String) : Prop :=
  ∃ span key value specifier, property = .node .keyValue span [key, value] ∧
    DefersImport value specifier ∧ s.Reads specifier names

theorem namesOf_eq_ok_iff {s : Setting} {property : Tree} {names : List String} :
    s.namesOf property = .ok names ↔ s.Defers property names := by
  constructor
  · intro h
    unfold namesOf at h
    cases found : deferredImport property with
    | error span =>
      rw [found] at h
      cases h
    | ok specifier =>
      obtain ⟨span, key, value, form, defers⟩ := deferredImport_eq_ok_iff.mp found
      simp only [found, bind_eq_ok_iff, mapError_eq_ok_iff] at h
      obtain ⟨module, place, ⟨file, names'⟩, read, told⟩ := h
      cases told
      exact ⟨span, key, value, specifier, form, defers, module, file, place, read⟩
  · rintro ⟨span, key, value, specifier, form, defers, module, file, place, read⟩
    have found := deferredImport_eq_ok_iff.mpr ⟨span, key, value, form, defers⟩
    simp only [namesOf, found, bind_eq_ok_iff, mapError_eq_ok_iff]
    exact ⟨module, place, ⟨file, names⟩, read, rfl⟩

theorem childrenAlone_eq_ok_iff {s : Setting} {property : Tree} :
    s.childrenAlone property = .ok () ↔
      ∃ span key value, property = .node .keyValue span [key, value] ∧ value.shape = .arrayLit := by
  unfold childrenAlone
  split
  · rename_i span key value
    constructor
    · intro h
      split at h
      · rename_i array
        exact ⟨span, key, value, rfl, isArray_iff.mp array⟩
      · cases h
    · rintro ⟨_, _, _, same, array⟩
      cases same
      rw [if_pos (isArray_iff.mpr array)]
  · rename_i other
    constructor
    · intro h
      cases h
    · rintro ⟨_, _, _, same, _⟩
      exact absurd same (other _ _ _)

theorem childrenShaped_iff {s : Setting} {properties : List Tree} :
    (properties.filter fun p => propertyName? p = some "children").forM s.childrenAlone = .ok () ↔
      ChildrenShaped properties := by
  simp only [forM_eq_ok_iff, List.mem_filter, decide_eq_true_eq, propertyName?_eq_some_iff,
    childrenAlone_eq_ok_iff, ChildrenShaped, and_imp]

/-- The names that the first property for the module of a route gives, if there is one. -/
def ModuleNames (s : Setting) (properties : List Tree) : Option (List String) → Prop
  | none => ∀ p ∈ properties, ¬ Named p "module"
  | some names => ∃ property, FirstNamed properties "module" property ∧ s.Defers property names

theorem received_eq_ok_iff {s : Setting} {array element : Tree} {names : Option (List String)} :
    s.received array element = .ok names ↔
      element.shape = .objectLit ∧ ChildrenShaped element.parts ∧
        s.ModuleNames element.parts names := by
  unfold received
  split
  · rename_i object
    rw [bind_eq_ok_iff]
    constructor
    · rintro ⟨_, shaped, told⟩
      refine ⟨object, childrenShaped_iff.mp shaped, ?_⟩
      split at told
      · rename_i property found
        obtain ⟨names', exported, same⟩ := bind_eq_ok_iff.mp told
        cases same
        exact ⟨property, find?_eq_some_iff_firstNamed.mp found, namesOf_eq_ok_iff.mp exported⟩
      · rename_i missing
        cases told
        intro p member named
        have := List.find?_eq_none.mp missing p member
        exact this (by simpa using propertyName?_eq_some_iff.mpr named)
    · rintro ⟨_, shaped, told⟩
      refine ⟨(), childrenShaped_iff.mpr shaped, ?_⟩
      cases names with
      | none =>
        have missing : (element.parts.find? fun p => propertyName? p = some "module") = none := by
          rw [List.find?_eq_none]
          intro p member named
          exact told p member (propertyName?_eq_some_iff.mp (by simpa using named))
        rw [missing]
        rfl
      | some names =>
        obtain ⟨property, first, defers⟩ := told
        rw [find?_eq_some_iff_firstNamed.mpr first]
        exact bind_eq_ok_iff.mpr ⟨names, namesOf_eq_ok_iff.mpr defers, rfl⟩
  · rename_i spread
    exact ⟨fun h => (nomatch h), fun h => absurd h.1 (by simp [spread])⟩
  · rename_i hole
    exact ⟨fun h => (nomatch h), fun h => absurd h.1 (by simp [hole])⟩
  · rename_i object _ _
    exact ⟨fun h => (nomatch h), fun h => absurd h.1 object⟩

end Setting

end RouteManifest.Routes
