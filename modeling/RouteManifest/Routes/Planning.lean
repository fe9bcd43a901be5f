import RouteManifest.Extraction
import RouteManifest.Routes.Plan

/-!
# Planning for an array of routes

The routes of an array are looked at one after another, those below them only then, all below the
first before any below the second. Arrays that wait for their turn lie on a stack. The first fault
ends the work.
-/

namespace RouteManifest

open Script

/-- A routes file: where it is and what it says. -/
structure RoutesFile where
  path : Path
  text : List Char
  deriving DecidableEq, Repr, Inhabited

/-- Where a span of the file begins. -/
def RoutesFile.location (f : RoutesFile) (span : Span) : Location :=
  .ofPosition f.path.text f.text span.lo

namespace Routes

/-- An array of routes and its address. -/
structure Pending where
  address : Address
  array : Tree
  deriving Inhabited

/-- The arrays of children among the properties of a route from number `k` on. -/
def arraysOfRoute (route : Address) (k : Nat) : List Tree → List Pending
  | [] => []
  | property :: rest =>
    let own := (childArray? property).toList.map fun array => ⟨route ++ [k, 1], array⟩
    own ++ arraysOfRoute route (k + 1) rest

/-- The arrays of children right below the routes of an array from number `i` on. -/
def arraysBelow (address : Address) (i : Nat) : List Tree → List Pending
  | [] => []
  | route :: rest =>
    arraysOfRoute (address ++ [i]) 0 route.parts ++ arraysBelow address (i + 1) rest

/-- The number of nodes that wait. -/
def weight : List Pending → Nat
  | [] => 0
  | p :: rest => p.array.size + weight rest

theorem weight_append (p q : List Pending) : weight (p ++ q) = weight p + weight q := by
  induction p with
  | nil => simp [weight]
  | cons first rest ih => simp only [List.cons_append, weight, ih, Nat.add_assoc]

theorem size_lt_of_value {property value : Tree} (h : value? property = some value) :
    value.size < property.size := by
  unfold value? at h
  split at h
  · cases h
    simp only [Tree.size, Tree.size.sizes]
    omega
  · cases h

theorem size_lt_of_childArray {property array : Tree} (h : childArray? property = some array) :
    array.size < property.size := by
  unfold childArray? at h
  split at h
  · exact size_lt_of_value (Option.filter_eq_some_iff.1 h).1
  · cases h

theorem weight_arraysOfRoute (route : Address) (k : Nat) (properties : List Tree) :
    weight (arraysOfRoute route k properties) ≤ Tree.size.sizes properties := by
  induction properties generalizing k with
  | nil => simp [arraysOfRoute, weight]
  | cons property rest ih =>
    simp only [arraysOfRoute, weight_append, Tree.size.sizes]
    have := ih (k + 1)
    cases h : childArray? property with
    | none =>
      simp [weight] at *
      omega
    | some array =>
      have := size_lt_of_childArray h
      simp [weight] at *
      omega

theorem weight_arraysBelow (address : Address) (i : Nat) (routes : List Tree) :
    weight (arraysBelow address i routes) ≤ Tree.size.sizes routes := by
  induction routes generalizing i with
  | nil => simp [arraysBelow, weight]
  | cons route rest ih =>
    simp only [arraysBelow, weight_append, Tree.size.sizes]
    have := ih (i + 1)
    have := weight_arraysOfRoute (address ++ [i]) 0 route.parts
    have := route.size_eq
    omega

/-- What planning goes by. -/
structure Setting where
  project : Project
  file : RoutesFile

namespace Setting

/-- The object literal that an element of an array of routes is. -/
def route (s : Setting) (array element : Tree) : Except CompileError Tree :=
  match element.shape with
  | .objectLit => .ok element
  | .spread dots => .error (.routeShape (s.file.location dots))
  | .absent => .error (.routeShape (s.file.location array.span))
  | _ => .error (.routeShape (s.file.location element.span))

/-- Every property for children holds an array. -/
def checkChildren (s : Setting) : List Tree → Except CompileError Unit
  | [] => .ok ()
  | property :: rest =>
    if propertyName? property = some "children" then
      match childrenFault? property with
      | some (span, fault) => .error (.childrenShape (s.file.location span) fault)
      | none => s.checkChildren rest
    else s.checkChildren rest

/-- The export names of the module that a property refers to. -/
def moduleExports (s : Setting) (property : Tree) : Work CompileError (List String) :=
  match deferredImport property with
  | .error span => Work.fail (.moduleShape (s.file.location span))
  | .ok specifier => do
    let module ← Work.ofExcept (Project.routeModule s.project.root s.file.path specifier)
    Work.record (.moduleReferenced specifier module)
    (s.project.exportsOf module).mapError
      (.extraction (s.file.location property.span) specifier ·)

/-- The export names that a route receives, if it refers to a module. -/
def routeExports (s : Setting) (route : Tree) : Work CompileError (Option (List String)) := do
  Work.ofExcept ((s.checkChildren route.parts).mapError .error)
  match route.parts.find? fun property => propertyName? property = some "module" with
  | some property => return some (← s.moduleExports property)
  | none => return none

/-- The plan for the elements of an array from number `i` on, those below them left out. -/
def planElements (s : Setting) (p : Pending) (i : Nat) : List Tree → Work CompileError Plan
  | [] => return []
  | element :: rest => do
    let route ← Work.ofExcept ((s.route p.array element).mapError .error)
    let names ← s.routeExports route
    let additions := names.toList.map fun names => ⟨p.address ++ [i], names⟩
    return additions ++ (← s.planElements p (i + 1) rest)

/-- The plan for all arrays that wait, and for those below them. -/
def planPending (s : Setting) : List Pending → Work CompileError Plan
  | [] => return []
  | p :: rest => do
    let additions ← s.planElements p 0 p.array.parts
    return additions ++ (← s.planPending (arraysBelow p.address 0 p.array.parts ++ rest))
termination_by pending => weight pending
decreasing_by
  have := weight_arraysBelow p.address 0 p.array.parts
  have := p.array.size_eq
  rw [weight_append]
  simp only [weight] at *
  omega

end Setting

/-- How many routes lie in the arrays that wait and below them. -/
def countPending : List Pending → Nat
  | [] => 0
  | p :: rest =>
    p.array.parts.length + countPending (arraysBelow p.address 0 p.array.parts ++ rest)
termination_by pending => weight pending
decreasing_by
  have := weight_arraysBelow p.address 0 p.array.parts
  have := p.array.size_eq
  rw [weight_append]
  simp only [weight] at *
  omega

/-- The plan for an array of routes and all that lie below it, by addresses from the array on. -/
def Setting.plan (s : Setting) (array : Tree) : Work CompileError Plan := do
  let plan ← s.planPending [⟨[], array⟩]
  Work.record (.routesRead s.file.path (countPending [⟨[], array⟩]))
  return plan

end Routes

end RouteManifest
