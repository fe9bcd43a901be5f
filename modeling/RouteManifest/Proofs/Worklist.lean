import RouteManifest.Proofs.Addresses
import RouteManifest.Proofs.Recursion

/-!
# Waiting arrays and recursion

Planning takes waiting arrays off a stack and remembers the modules that were read. Its answer is
that of a recursion which has neither: the arrays that wait are planned for one after another, and
all below an array before the next. The plan is still by addresses.
-/

namespace RouteManifest.Routes

open Script

/-- The additions to the elements of an array from number `i` on. -/
def additions (i : Nat) : List (Option (List String)) → Plan
  | [] => []
  | names :: rest => names.toList.map (⟨[i], ·⟩) ++ additions (i + 1) rest

namespace Setting

mutual

/-- The plan for an array by recursion, by addresses from the array on. -/
def planArray (s : Setting) : Tree → Except (Halt CompileError) Plan
  | .node shape span elements => do
    let level ← elements.mapM (s.received (.node shape span elements))
    return additions 0 level ++ (← planBelow s 0 elements)

def planBelow (s : Setting) (i : Nat) : List Tree → Except (Halt CompileError) Plan
  | [] => return []
  | .node _ _ properties :: rest => do
    let first ← planProperties s 0 properties
    return Plan.below [i] first ++ (← planBelow s (i + 1) rest)

def planProperties (s : Setting) (k : Nat) : List Tree → Except (Halt CompileError) Plan
  | [] => return []
  | property :: rest => do
    let first ← planProperty s property
    return Plan.below [k] first ++ (← planProperties s (k + 1) rest)

def planProperty (s : Setting) : Tree → Except (Halt CompileError) Plan
  | .node .keyValue _ [key, value] => do
    if keyName? key = some "children" && isArray value then
      return Plan.below [1] (← planArray s value)
    else return []
  | _ => return []

end

/-- The plan for arrays that wait, by recursion for each. -/
def planStack (s : Setting) : List Pending → Except (Halt CompileError) Plan
  | [] => return []
  | p :: rest => do
    let first ← s.planArray p.array
    return Plan.below p.address first ++ (← planStack s rest)

theorem planStack_append (s : Setting) (first second : List Pending) :
    s.planStack (first ++ second) = do
      let p ← s.planStack first
      let q ← s.planStack second
      return p ++ q := by
  induction first with
  | nil => simp [planStack]
  | cons p rest ih => simp [planStack, ih, -bind_pure_comp]

theorem planProperty_eq (s : Setting) (property : Tree) :
    s.planProperty property =
      match childArray? property with
      | some array => do return Plan.below [1] (← s.planArray array)
      | none => return [] := by
  rcases keyValue_or_value?_eq_none property with ⟨span, key, value, rfl⟩ | bare
  · rw [planProperty, childArray?_keyValue]
    split
    · rfl
    · rfl
  · have none : childArray? property = none := by simp [childArray?, bare]
    rw [none]
    unfold planProperty
    split
    · cases bare
    · rfl

theorem planStack_arraysOfRoute (s : Setting) (route : Address) (k : Nat)
    (properties : List Tree) :
    s.planStack (arraysOfRoute route k properties) = do
      return Plan.below route (← s.planProperties k properties) := by
  induction properties generalizing k with
  | nil => rfl
  | cons property rest ih =>
    rw [arraysOfRoute, planStack_append, ih, planProperties, planProperty_eq]
    cases childArray? property with
    | none => simp [planStack, Plan.below, -bind_pure_comp]
    | some array =>
      simp [planStack, Plan.below_append, Plan.below_below, -bind_pure_comp]

theorem planStack_arraysBelow (s : Setting) (address : Address) (i : Nat)
    (elements : List Tree) :
    s.planStack (arraysBelow address i elements) = do
      return Plan.below address (← s.planBelow i elements) := by
  induction elements generalizing i with
  | nil => rfl
  | cons element rest ih =>
    obtain ⟨shape, span, properties⟩ := element
    rw [arraysBelow, planStack_append, ih, planBelow, planStack_arraysOfRoute]
    simp [Tree.parts, Plan.below_append, Plan.below_below, -bind_pure_comp]

/-- What waits is planned for one array after another, all below an array before the next. -/
theorem planStack_cons (s : Setting) (p : Pending) (rest : List Pending) :
    s.planStack (p :: rest) = do
      let level ← p.array.parts.mapM (s.received p.array)
      let others ← s.planStack (arraysBelow p.address 0 p.array.parts ++ rest)
      return Plan.below p.address (additions 0 level) ++ others := by
  obtain ⟨address, shape, span, elements⟩ := p
  rw [planStack_append, planStack_arraysBelow, planStack, planArray]
  simp [Tree.parts, Plan.below_append, -bind_pure_comp]

theorem childrenAlone_eq (s : Setting) (property : Tree) :
    s.childrenAlone property =
      match childrenFault? property with
      | some (span, fault) => .error (.error (.childrenShape (s.file.location span) fault))
      | none => .ok () := by
  rcases keyValue_or_value?_eq_none property with ⟨span, key, value, rfl⟩ | bare
  · simp only [childrenAlone, childrenFault?, value?]
    split
    · rfl
    · rfl
  · simp only [childrenFault?, bare]
    unfold childrenAlone
    split
    · cases bare
    · rfl

/-- The properties for children are checked one after another. -/
theorem checkChildren_eq_forM (s : Setting) (properties : List Tree) :
    (s.checkChildren properties).mapError Halt.error =
      (properties.filter fun p => propertyName? p = some "children").forM s.childrenAlone := by
  induction properties with
  | nil => rfl
  | cons property rest ih =>
    rw [checkChildren]
    by_cases named : propertyName? property = some "children"
    · rw [if_pos named, List.filter_cons_of_pos (by simpa using named)]
      change _ = (do s.childrenAlone property; List.forM _ s.childrenAlone)
      rw [childrenAlone_eq, ← ih]
      cases childrenFault? property with
      | some fault => rfl
      | none => rfl
    · rw [if_neg named, List.filter_cons_of_neg (by simpa using named), ih]

/-- What an element receives, as the steps by which it is looked at. -/
theorem received_eq (s : Setting) (array element : Tree) :
    s.received array element = do
      let route ← (s.route array element).mapError Halt.error
      (s.checkChildren route.parts).mapError Halt.error
      match route.parts.find? fun p => propertyName? p = some "module" with
      | some property => return some (← s.namesOf property)
      | none => return none := by
  unfold received
  split
  · rename_i object
    rw [← checkChildren_eq_forM]
    simp only [route, object]
    rfl
  · rename_i spread
    simp only [route, spread]
    rfl
  · rename_i hole
    simp only [route, hole]
    rfl
  · rename_i object spread hole
    have other : s.route array element = .error (.routeShape (s.file.location element.span)) := by
      unfold route
      split
      · exact absurd ‹_› object
      · exact absurd ‹_› (spread _)
      · exact absurd ‹_› hole
      · rfl
    rw [other]
    rfl

theorem answers_moduleExports (s : Setting) (property : Tree) :
    Answers s.project (s.moduleExports property) (s.namesOf property) := by
  unfold moduleExports namesOf
  cases deferredImport property with
  | error span => exact Answers.fail _
  | ok specifier =>
    refine Answers.bind (Answers.ofExcept _) fun module => ?_
    have told := (Answers.exportsOf s.project module).mapError
      (CompileError.extraction (s.file.location property.span) specifier)
    have whole := Answers.bind (Answers.record (.moduleReferenced specifier module)) fun _ => told
    cases read : s.project.extract module with
    | ok found =>
      rw [read] at whole
      exact whole
    | error halt =>
      rw [read] at whole
      exact whole

theorem answers_routeExports (s : Setting) (route : Tree) :
    Answers s.project (s.routeExports route) (do
      (s.checkChildren route.parts).mapError Halt.error
      match route.parts.find? fun p => propertyName? p = some "module" with
      | some property => return some (← s.namesOf property)
      | none => return none) := by
  refine Answers.bind (Answers.ofExcept _) fun _ => ?_
  cases route.parts.find? fun p => propertyName? p = some "module" with
  | some property => exact (s.answers_moduleExports property).bind fun names => Answers.pure _
  | none => exact Answers.pure _

theorem answers_planElements (s : Setting) (p : Pending) (i : Nat) (elements : List Tree) :
    Answers s.project (s.planElements p i elements) (do
      let level ← elements.mapM (s.received p.array)
      return Plan.below p.address (additions i level)) := by
  induction elements generalizing i with
  | nil => exact Answers.pure _
  | cons element rest ih =>
    have steps : (do
        let level ← (element :: rest).mapM (s.received p.array)
        return Plan.below p.address (additions i level)) = (do
        let route ← (s.route p.array element).mapError Halt.error
        let names ← (do
          (s.checkChildren route.parts).mapError Halt.error
          match route.parts.find? fun p => propertyName? p = some "module" with
          | some property => return some (← s.namesOf property)
          | none => return none : Except (Halt CompileError) (Option (List String)))
        let others ← (do
          let level ← rest.mapM (s.received p.array)
          return Plan.below p.address (additions (i + 1) level))
        return (names.toList.map fun names => ⟨p.address ++ [i], names⟩) ++ others) := by
      rw [List.mapM_cons, received_eq]
      simp [additions, Plan.below, Function.comp_def, -bind_pure_comp]
    rw [steps]
    refine Answers.bind (Answers.ofExcept _) fun route => ?_
    refine Answers.bind (s.answers_routeExports route) fun names => ?_
    exact (ih (i + 1)).bind fun others => Answers.pure _

/-- The stack gives way to recursion: the arrays that wait are planned for one after another. -/
theorem answers_planPending (s : Setting) (pending : List Pending) :
    Answers s.project (s.planPending pending) (s.planStack pending) := by
  induction pending using planPending.induct with
  | case1 =>
    rw [planPending]
    exact Answers.pure _
  | case2 p rest ih =>
    rw [planPending, planStack_cons]
    have level := s.answers_planElements p 0 p.array.parts
    have whole := level.bind fun additions => ih.bind fun others =>
      Answers.pure (p := s.project) (additions ++ others)
    simpa [-bind_pure_comp] using whole

theorem answers_plan (s : Setting) (array : Tree) :
    Answers s.project (s.plan array) (s.planArray array) := by
  have whole := (s.answers_planPending [⟨[], array⟩]).bind fun plan =>
    (Answers.record (.routesRead s.file.path (countPending [⟨[], array⟩]))).bind fun _ =>
      Answers.pure (p := s.project) plan
  have alone : s.planStack [⟨[], array⟩] = s.planArray array := by
    simp [planStack, Plan.below_nil, -bind_pure_comp]
  simpa [plan, alone, -bind_pure_comp] using whole

end Setting

end RouteManifest.Routes
