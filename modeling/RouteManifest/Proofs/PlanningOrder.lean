import RouteManifest.Proofs.CacheFilling
import RouteManifest.Proofs.Frame

/-!
# The order in which routes are looked at

Compiling a module looks at its calls one after another, and behind a call at the elements of its
array: at all elements of an array from left to right, then at what lies below them, all below one
before anything below the next. A plan is what these looks add, one after another, and the first of
them that fails is the fault of the whole. What a look comes to may depend on what a cache
remembers; which looks there are does not.
-/

namespace RouteManifest

open Script

namespace Routes

/-- Something that is looked at, at its address in the module: a call that marks routes, or an
element of an array of routes. -/
inductive Look where
  | call (address : Address) (call : Tree)
  | element (address : Address) (array element : Tree)

def Look.address : Look → Address
  | call address _ | element address _ _ => address

def isObject (t : Tree) : Bool := t.shape matches .objectLit

/-- The looks at the elements of an array from number `i` on, those below them left out. -/
def looksAt (outer : Address) (array : Tree) (i : Nat) : List Tree → List Look
  | [] => []
  | element :: rest =>
    .element (outer ++ [i]) array element :: looksAt outer array (i + 1) rest

mutual

/-- The looks at an array: all its elements come before anything below the first of them. -/
def looksOf (outer : Address) : Tree → List Look
  | .node shape span elements =>
    looksAt outer (.node shape span elements) 0 elements ++ looksBelow outer 0 elements

/-- The looks below the elements of an array from number `i` on. -/
def looksBelow (outer : Address) (i : Nat) : List Tree → List Look
  | [] => []
  | .node shape span properties :: rest =>
    let own :=
      if isObject (.node shape span properties) then looksOfProperties (outer ++ [i]) 0 properties
      else []
    own ++ looksBelow outer (i + 1) rest

def looksOfProperties (route : Address) (k : Nat) : List Tree → List Look
  | [] => []
  | property :: rest =>
    looksOfProperty (route ++ [k]) property ++ looksOfProperties route (k + 1) rest

def looksOfProperty (place : Address) : Tree → List Look
  | .node .keyValue _ [key, value] =>
    if keyName? key = some "children" && isArray value then looksOf (place ++ [1]) value else []
  | _ => []

end

/-- The looks at a call: at the call, and then at its array if that is its argument. -/
def looksOfCall (c : Call) : List Look :=
  .call c.address c.call ::
    match (c.call.part 1).parts with
    | [argument] => if isArray argument then looksOf (c.address ++ [1, 0]) argument else []
    | _ => []

/-- The looks at calls, all of one call before any of the next. -/
def looks (calls : List Call) : List Look := calls.flatMap looksOfCall

theorem isObject_iff {t : Tree} : isObject t = true ↔ t.shape = .objectLit := by
  unfold isObject
  cases t.shape with
  | objectLit => simp
  | _ => simp

theorem looksOfProperty_of_value?_eq_none (place : Address) {property : Tree}
    (bare : value? property = none) : looksOfProperty place property = [] := by
  unfold looksOfProperty
  split
  · cases bare
  · rfl

namespace Setting

/-- The names of the module of a property, of which a cache remembers some. -/
def namesFrom (s : Setting) (c : Cache) (property : Tree) :
    Except (Halt CompileError) (List String) :=
  match deferredImport property with
  | .error span => .error (.error (.moduleShape (s.file.location span)))
  | .ok specifier => do
    let module ← Project.routeModule s.project.root s.file.path specifier
    (s.project.namesIn c module).mapError
      (Halt.map (.extraction (s.file.location property.span) specifier))

/-- What a look comes to: a fault, or the names that the element receives. -/
def outcome (s : Setting) (c : Cache) :
    Look → Except (Halt CompileError) (Option (List String))
  | .call _ call =>
    match (call.part 1).parts with
    | [argument] =>
      if isArray argument then .ok none
      else .error (.error (.callArgument (s.file.location call.span)))
    | arguments => .error (.error (.callArity (s.file.location call.span) arguments.length))
  | .element _ array element => do
    let route ← (s.route array element).mapError Halt.error
    (s.checkChildren route.parts).mapError Halt.error
    match route.parts.find? fun p => propertyName? p = some "module" with
    | some property => return some (← s.namesFrom c property)
    | none => return none

/-- The fault of a look, if it has one. -/
def fault? (s : Setting) (c : Cache) (l : Look) : Option (Halt CompileError) :=
  errorOf? (s.outcome c l)

/-- The module that a property defers the import of. -/
def moduleOf? (s : Setting) (property : Tree) : Option Path :=
  match deferredImport property with
  | .error _ => none
  | .ok specifier =>
    match (Project.routeModule s.project.root s.file.path specifier :
      Except (Halt CompileError) Path) with
    | .error _ => none
    | .ok module => some module

/-- The module that a route refers to by its first property for it. -/
def moduleOfRoute? (s : Setting) (properties : List Tree) : Option Path :=
  (properties.find? fun p => propertyName? p = some "module").bind s.moduleOf?

/-- The module whose names a look needs. -/
def needed? (s : Setting) : Look → Option Path
  | .element _ _ element => if isObject element then s.moduleOfRoute? element.parts else none
  | .call _ _ => none

/-- The plan that looks make, one after another, with nothing remembered before. -/
def planAlong (s : Setting) : List Look → Except (Halt CompileError) Plan
  | [] => return []
  | l :: rest => do
    let names ← s.outcome .empty l
    return names.toList.map (⟨l.address, ·⟩) ++ (← s.planAlong rest)

/-- The looks up to the first that fails, with that one. -/
def untilFault (s : Setting) : List Look → List Look
  | [] => []
  | l :: rest =>
    match s.outcome .empty l with
    | .ok _ => l :: s.untilFault rest
    | .error _ => [l]

theorem namesFrom_empty (s : Setting) (property : Tree) :
    s.namesFrom .empty property = s.namesOf property := by
  unfold namesFrom namesOf
  cases deferredImport property with
  | error span => rfl
  | ok specifier =>
    refine bind_congr fun module => ?_
    change ((s.project.extract module).map (·.names)).mapError _ = _
    cases s.project.extract module with
    | error halt => rfl
    | ok found => rfl

theorem outcome_empty (s : Setting) (address : Address) (array element : Tree) :
    s.outcome .empty (.element address array element) = s.received array element := by
  have same : s.namesFrom .empty = s.namesOf := funext s.namesFrom_empty
  rw [received_eq, ← same]
  rfl

theorem planAlong_append (s : Setting) (first second : List Look) :
    s.planAlong (first ++ second) = do
      let p ← s.planAlong first
      let q ← s.planAlong second
      return p ++ q := by
  induction first with
  | nil => simp [planAlong]
  | cons l rest ih => simp [planAlong, ih, -bind_pure_comp]

theorem errorOf?_planAlong (s : Setting) (looks : List Look) :
    errorOf? (s.planAlong looks) = looks.findSome? (s.fault? .empty) := by
  induction looks with
  | nil => rfl
  | cons l rest ih =>
    rw [List.findSome?_cons, ← ih, planAlong, fault?]
    cases s.outcome .empty l with
    | error halt => rfl
    | ok names => cases s.planAlong rest <;> rfl

/-- Plans agree if the looks agree up to the first that fails. -/
theorem planAlong_congr {s t : Setting} {looks : List Look}
    (agree : ∀ l ∈ s.untilFault looks, s.outcome .empty l = t.outcome .empty l) :
    s.planAlong looks = t.planAlong looks := by
  induction looks with
  | nil => rfl
  | cons l rest ih =>
    have here : s.outcome .empty l = t.outcome .empty l := by
      refine agree l ?_
      unfold untilFault
      split
      · exact List.mem_cons_self
      · exact List.mem_cons_self
    rw [planAlong, planAlong, ← here]
    cases told : s.outcome .empty l with
    | error halt => rfl
    | ok names =>
      rw [untilFault, told] at agree
      rw [ih fun m member => agree m (List.mem_cons_of_mem l member)]

theorem planAlong_looksAt (s : Setting) (outer : Address) (array : Tree) (i : Nat)
    (elements : List Tree) :
    s.planAlong (looksAt outer array i elements) = do
      let level ← elements.mapM (s.received array)
      return Plan.below outer (additions i level) := by
  induction elements generalizing i with
  | nil => rfl
  | cons element rest ih =>
    rw [looksAt, planAlong, ih, outcome_empty, List.mapM_cons]
    simp [additions, Plan.below, Look.address, Function.comp_def, -bind_pure_comp]

mutual

/-- The plan for an array is what the looks at it make. -/
theorem planAlong_looksOf (s : Setting) : ∀ (array : Tree) (outer : Address),
    s.planAlong (looksOf outer array) = do return Plan.below outer (← s.planArray array)
  | .node shape span elements, outer => by
    have below := planAlong_looksBelow s elements outer 0
    rw [looksOf, planAlong_append, planAlong_looksAt, planArray]
    cases looked : elements.mapM (s.received (.node shape span elements)) with
    | error halt => rfl
    | ok level =>
      -- once every element was looked at, each of them is a route, with what lies below it
      have routes : ∀ element ∈ elements, element.shape = .objectLit := by
        intro element member
        obtain ⟨names, received⟩ := mapM_ok_iff.mp ⟨level, looked⟩ element member
        exact (received_eq_ok_iff.mp received).1
      simp [below routes, Plan.below_append, -bind_pure_comp]

theorem planAlong_looksBelow (s : Setting) : ∀ (elements : List Tree) (outer : Address) (i : Nat),
    (∀ element ∈ elements, element.shape = .objectLit) →
    s.planAlong (looksBelow outer i elements) = do
      return Plan.below outer (← s.planBelow i elements)
  | [], _, _, _ => rfl
  | .node shape span properties :: rest, outer, i, routes => by
    have inside := planAlong_looksOfProperties s properties (outer ++ [i]) 0
    have others := planAlong_looksBelow s rest outer (i + 1) fun element member =>
      routes element (List.mem_cons_of_mem _ member)
    have object := isObject_iff.mpr (routes _ List.mem_cons_self)
    rw [looksBelow, if_pos object, planAlong_append, inside, others, planBelow]
    simp [Plan.below_append, Plan.below_below, -bind_pure_comp]

theorem planAlong_looksOfProperties (s : Setting) :
    ∀ (properties : List Tree) (route : Address) (k : Nat),
    s.planAlong (looksOfProperties route k properties) = do
      return Plan.below route (← s.planProperties k properties)
  | [], _, _ => rfl
  | property :: rest, route, k => by
    have first := planAlong_looksOfProperty s property (route ++ [k])
    have others := planAlong_looksOfProperties s rest route (k + 1)
    rw [looksOfProperties, planAlong_append, first, others, planProperties]
    simp [Plan.below_append, Plan.below_below, -bind_pure_comp]

theorem planAlong_looksOfProperty (s : Setting) : ∀ (property : Tree) (place : Address),
    s.planAlong (looksOfProperty place property) = do
      return Plan.below place (← s.planProperty property)
  | .node shape span parts, place => by
    rcases keyValue_or_value?_eq_none (.node shape span parts) with ⟨_, key, value, same⟩ | bare
    · cases same
      have inside := planAlong_looksOf s value (place ++ [1])
      rw [looksOfProperty, planProperty]
      split
      · rw [inside]
        simp [Plan.below_below, -bind_pure_comp]
      · rfl
    · rw [looksOfProperty_of_value?_eq_none place bare, planProperty_of_value?_eq_none s bare]
      rfl

end

/-- The plan for a call is what the looks at it make. -/
theorem planAlong_looksOfCall (s : Setting) (c : Call) :
    s.planAlong (looksOfCall c) = do return Plan.below c.address (← s.callPlan c.call) := by
  rw [looksOfCall, planAlong, outcome, callPlan]
  rcases (c.call.part 1).parts with _ | ⟨argument, _ | ⟨other, rest⟩⟩
  · rfl
  · by_cases array : isArray argument = true
    · simp only [array, if_true, planAlong_looksOf]
      change (do return [] ++ (← (do return Plan.below _ (← s.planArray argument)))) = _
      simp [Plan.below_below, -bind_pure_comp]
    · simp only [array]
      rfl
  · rfl

/-- The plan for calls is what the looks at them make. -/
theorem planAlong_looks (s : Setting) (calls : List Call) :
    s.planAlong (looks calls) = s.callPlans calls := by
  induction calls with
  | nil => rfl
  | cons c rest ih =>
    rw [looks, List.flatMap_cons, planAlong_append, planAlong_looksOfCall, ← looks, ih]
    simp [callPlans, -bind_pure_comp]

end Setting

end Routes

end RouteManifest
