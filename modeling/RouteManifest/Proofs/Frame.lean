import RouteManifest.Compile
import RouteManifest.Proofs.Calls
import RouteManifest.Proofs.Receivers

/-!
# What compiling changes

A module is compiled exactly if every call that marks routes has one argument, a well formed array.
The compiled module is then the module as it was read, with one property behind the others in each
route that refers to a module, and with nothing else changed. Calls may stand inside the routes of
other calls: a call is never on the way from another call to its routes, so that no two calls share
a route.
-/

namespace RouteManifest.Routes

open Script

/-- At an address of a module stands a route: an address of the array that is the argument of a call
leads to it. -/
def IsRoute (module : Tree) (address : Address) (route : Tree) : Prop :=
  ∃ outer call array inner, BoundCall module outer call ∧ (call.part 1).parts = [array] ∧
    array.shape = .arrayLit ∧ address = outer ++ 1 :: 0 :: inner ∧ RouteAt array inner route

/-- The properties for the names that nodes receive. -/
def exportsProperties (received : Address → Option (List String)) (address : Address) : List Tree :=
  (received address).toList.map exportsProperty

/-- A module that does not import the function has no calls of it. -/
theorem calls_eq_nil {module : Tree} (unbound : (bindings module).isEmpty = true) :
    calls module = [] := by
  refine List.eq_nil_iff_forall_not_mem.mpr fun c member => ?_
  obtain ⟨binding, _, introduced⟩ := (mem_calls_iff.mp member).bound
  rw [← mem_bindings_iff, List.isEmpty_iff.mp unbound] at introduced
  cases introduced

namespace Setting

/-- The plan for a call by recursion, by addresses from the call on. -/
def callPlan (s : Setting) (call : Tree) : Except (Halt CompileError) Plan :=
  match (call.part 1).parts with
  | [argument] => do
    if isArray argument then return Plan.below [1, 0] (← s.planArray argument)
    else .error (.error (.callArgument (s.file.location call.span)))
  | arguments => .error (.error (.callArity (s.file.location call.span) arguments.length))

/-- The plans for calls, one after another. -/
def callPlans (s : Setting) (calls : List Call) : Except (Halt CompileError) Plan := do
  let plans ← calls.mapM fun c => do return Plan.below c.address (← s.callPlan c.call)
  return plans.flatten

/-- The plan for a module by recursion. -/
def modulePlan (s : Setting) (module : Tree) : Except (Halt CompileError) Plan :=
  s.callPlans (calls module)

theorem answers_planCall (s : Setting) (call : Tree) :
    Answers s.project (s.planCall call) (s.callPlan call) := by
  unfold planCall callPlan
  rcases (call.part 1).parts with _ | ⟨argument, _ | ⟨other, rest⟩⟩
  · exact Answers.fail _
  · by_cases array : isArray argument = true
    · simp only [array, if_true]
      exact (s.answers_plan argument).bind fun plan => Answers.pure _
    · simp only [array]
      exact Answers.fail _
  · exact Answers.fail _

theorem callPlans_cons (s : Setting) (c : Call) (rest : List Call) :
    s.callPlans (c :: rest) = do
      let first ← s.callPlan c.call
      let others ← s.callPlans rest
      return Plan.below c.address first ++ others := by
  simp [callPlans, -bind_pure_comp]

theorem answers_planCalls (s : Setting) (calls : List Call) :
    Answers s.project (s.planCalls calls) (s.callPlans calls) := by
  induction calls with
  | nil => exact Answers.pure _
  | cons c rest ih =>
    rw [callPlans_cons]
    refine (s.answers_planCall c.call).bind fun first => ?_
    exact ih.bind fun others => Answers.pure _

theorem answers_planModule (s : Setting) (module : Tree) :
    Answers s.project (s.planModule module) (s.modulePlan module) := by
  by_cases unbound : (bindings module).isEmpty = true
  · have work : s.planModule module = do
        Work.record (.noRoutes s.file.path)
        return [] := if_pos unbound
    rw [work, modulePlan, calls_eq_nil unbound]
    exact (Answers.record (p := s.project) _).bind fun _ => Answers.pure _
  · have work : s.planModule module = do
        let plan ← s.planCalls (calls module)
        let session ← get
        Work.record (.compiled s.file.path (calls module).length session.cache.extractions)
        return plan := if_neg unbound
    have whole := (s.answers_planCalls (calls module)).bind fun plan =>
      (Answers.told fun session => Answers.record (p := s.project)
        (.compiled s.file.path (calls module).length session.cache.extractions)).bind fun _ =>
          Answers.pure (p := s.project) plan
    rw [work, modulePlan]
    simpa [-bind_pure_comp] using whole

/-- A call is accepted if its one argument is a well formed array. -/
def AcceptsCall (s : Setting) (call : Tree) : Prop :=
  ∃ array, (call.part 1).parts = [array] ∧ array.shape = .arrayLit ∧ s.WellFormed array

theorem callPlan_eq_ok_iff {s : Setting} {call : Tree} {plan : Plan} :
    s.callPlan call = .ok plan ↔
      ∃ array inner, (call.part 1).parts = [array] ∧ array.shape = .arrayLit ∧
        s.planArray array = .ok inner ∧ plan = Plan.below [1, 0] inner := by
  unfold callPlan
  constructor
  · intro h
    split at h
    · rename_i array arguments
      split at h
      · rename_i isArray
        obtain ⟨inner, planned, same⟩ := bind_eq_ok_iff.mp h
        cases same
        exact ⟨array, inner, arguments, isArray_iff.mp isArray, planned, rfl⟩
      · cases h
    · cases h
  · rintro ⟨array, inner, arguments, isArray, planned, rfl⟩
    rw [arguments]
    exact (if_pos (isArray_iff.mpr isArray)).trans (bind_eq_ok_iff.mpr ⟨inner, planned, rfl⟩)

theorem callPlan_ok_iff (s : Setting) (call : Tree) :
    (∃ plan, s.callPlan call = .ok plan) ↔ s.AcceptsCall call := by
  simp only [callPlan_eq_ok_iff, AcceptsCall, ← planArray_ok_iff]
  constructor
  · rintro ⟨_, array, inner, arguments, isArray, planned, _⟩
    exact ⟨array, arguments, isArray, inner, planned⟩
  · rintro ⟨array, arguments, isArray, inner, planned⟩
    exact ⟨_, array, inner, arguments, isArray, planned, rfl⟩

theorem callPlans_eq_ok_iff {s : Setting} {calls : List Call} {plan : Plan} :
    s.callPlans calls = .ok plan ↔
      ∃ plans, (calls.mapM fun c => do return Plan.below c.address (← s.callPlan c.call)) =
        .ok plans ∧ plan = plans.flatten := by
  rw [callPlans, bind_eq_ok_iff]
  refine exists_congr fun plans => and_congr_right fun _ => ?_
  exact ⟨fun h => by cases h; rfl, fun h => by cases h; rfl⟩

theorem modulePlan_ok_iff (s : Setting) (module : Tree) :
    (∃ plan, s.modulePlan module = .ok plan) ↔
      ∀ address call, BoundCall module address call → s.AcceptsCall call := by
  have each : (∃ plan, s.modulePlan module = .ok plan) ↔
      ∀ c ∈ calls module, s.AcceptsCall c.call := by
    simp only [modulePlan, callPlans_eq_ok_iff, ← callPlan_ok_iff]
    constructor
    · rintro ⟨_, plans, told, _⟩ c member
      obtain ⟨_, planned⟩ := mapM_ok_iff.mp ⟨plans, told⟩ c member
      obtain ⟨plan, planned, _⟩ := bind_eq_ok_iff.mp planned
      exact ⟨plan, planned⟩
    · intro each
      obtain ⟨plans, told⟩ := mapM_ok_iff.mpr fun c member => by
        obtain ⟨plan, planned⟩ := each c member
        exact ⟨Plan.below c.address plan, bind_eq_ok_iff.mpr ⟨plan, planned, rfl⟩⟩
      exact ⟨_, plans, told, rfl⟩
  rw [each]
  constructor
  · intro accepted address call bound
    exact accepted ⟨address, call⟩ (mem_calls_iff.mpr bound)
  · intro accepted c member
    exact accepted c.address c.call (mem_calls_iff.mp member)

theorem mem_callPlan_iff {s : Setting} {call : Tree} {plan : Plan} (h : s.callPlan call = .ok plan)
    {address : Address} {names : List String} :
    ⟨address, names⟩ ∈ plan ↔
      ∃ array inner route, (call.part 1).parts = [array] ∧ array.shape = .arrayLit ∧
        address = 1 :: 0 :: inner ∧ RouteAt array inner route ∧
          s.ModuleNames route.parts (some names) := by
  obtain ⟨array, below, arguments, isArray, planned, rfl⟩ := callPlan_eq_ok_iff.mp h
  rw [Plan.mem_below_iff]
  constructor
  · rintro ⟨inner, rfl, member⟩
    obtain ⟨route, place, modules⟩ := (mem_planArray_iff planned).mp member
    exact ⟨array, inner, route, arguments, isArray, rfl, place, modules⟩
  · rintro ⟨_, inner, route, arguments', _, rfl, place, modules⟩
    cases arguments.symm.trans arguments'
    exact ⟨inner, rfl, (mem_planArray_iff planned).mpr ⟨route, place, modules⟩⟩

theorem mem_modulePlan_iff {s : Setting} {module : Tree} {plan : Plan}
    (h : s.modulePlan module = .ok plan) {address : Address} {names : List String} :
    ⟨address, names⟩ ∈ plan ↔
      ∃ route, IsRoute module address route ∧ s.ModuleNames route.parts (some names) := by
  obtain ⟨plans, told, rfl⟩ := callPlans_eq_ok_iff.mp h
  rw [List.mem_flatten]
  constructor
  · rintro ⟨plan, member, inside⟩
    obtain ⟨k, place⟩ := List.mem_iff_getElem?.mp member
    obtain ⟨c, there, own⟩ := (getElem?_of_mapM_eq_ok told).mp place
    obtain ⟨first, planned, same⟩ := bind_eq_ok_iff.mp own
    cases same
    obtain ⟨_, rfl, inFirst⟩ := Plan.mem_below_iff.mp inside
    obtain ⟨array, inner, route, arguments, isArray, rfl, place, modules⟩ :=
      (mem_callPlan_iff planned).mp inFirst
    have bound := mem_calls_iff.mp (List.mem_of_getElem? there)
    exact ⟨route, ⟨c.address, c.call, array, inner, bound, arguments, isArray, rfl, place⟩, modules⟩
  · rintro ⟨route, ⟨outer, call, array, inner, bound, arguments, isArray, rfl, place⟩, modules⟩
    have member : ⟨outer, call⟩ ∈ calls module := mem_calls_iff.mpr bound
    obtain ⟨k, there⟩ := List.mem_iff_getElem?.mp member
    obtain ⟨_, own⟩ := mapM_ok_iff.mp ⟨plans, told⟩ _ member
    obtain ⟨plan, planned, _⟩ := bind_eq_ok_iff.mp own
    have inside := (mem_callPlan_iff planned).mpr
      ⟨array, inner, route, arguments, isArray, rfl, place, modules⟩
    refine ⟨Plan.below outer plan, ?_, Plan.mem_below_iff.mpr ⟨_, rfl, inside⟩⟩
    exact List.mem_of_getElem? ((getElem?_of_mapM_eq_ok told).mpr
      ⟨_, there, bind_eq_ok_iff.mpr ⟨plan, planned, rfl⟩⟩)

end Setting

theorem at?_argument {call array : Tree} (arguments : (call.part 1).parts = [array])
    (address : Address) : call.at? (1 :: 0 :: address) = array.at? address := by
  have part : call.parts[1]? = some (call.part 1) :=
    Tree.getElem?_parts fun missing => by cases missing ▸ arguments
  rw [Tree.at?_cons, part, Option.bind_some, Tree.at?_cons, arguments]
  rfl

/-- No call stands on the way from another to a route of it. -/
theorem eq_nil_of_call_on_the_way {module call array route : Tree} {outer between inner : Address}
    (here : module.at? outer = some call) (arguments : (call.part 1).parts = [array])
    (isArray : array.shape = .arrayLit) (place : RouteAt array inner route) {last : Address}
    (way : 1 :: 0 :: inner = between ++ 1 :: 0 :: last) {other : Tree}
    (there : module.at? (outer ++ between) = some other) (isCall : other.shape = .call) :
    between = [] := by
  rw [Tree.at?_append, here, Option.bind_some] at there
  match between, way with
  | [], _ => rfl
  | [_], way => cases way
  | _ :: _ :: between, way =>
    cases way
    rw [at?_argument arguments] at there
    exact absurd isCall (place.shape_ne_call isArray rfl there)

theorem IsRoute.at?_eq {module route : Tree} {address : Address}
    (h : IsRoute module address route) : module.at? address = some route := by
  obtain ⟨outer, call, array, inner, bound, arguments, _, rfl, place⟩ := h
  rw [Tree.at?_append, bound.here, Option.bind_some, at?_argument arguments, place.at?_eq]

/-- A route belongs to one call, however calls stand inside the routes of others. -/
theorem outer_unique {module call call' array array' route route' : Tree}
    {outer outer' inner inner' : Address} (bound : BoundCall module outer call)
    (bound' : BoundCall module outer' call') (arguments : (call.part 1).parts = [array])
    (arguments' : (call'.part 1).parts = [array']) (isArray : array.shape = .arrayLit)
    (isArray' : array'.shape = .arrayLit) (place : RouteAt array inner route)
    (place' : RouteAt array' inner' route')
    (same : outer ++ 1 :: 0 :: inner = outer' ++ 1 :: 0 :: inner') : outer = outer' := by
  rcases List.append_eq_append_iff.mp same with ⟨between, rfl, way⟩ | ⟨between, rfl, way⟩
  · have none := eq_nil_of_call_on_the_way bound.here arguments isArray place way bound'.here
      bound'.isCall
    rw [none, List.append_nil]
  · have none := eq_nil_of_call_on_the_way bound'.here arguments' isArray' place' way bound.here
      bound.isCall
    rw [none, List.append_nil]

namespace Setting

theorem distinct_modulePlan {s : Setting} {module : Tree} {plan : Plan}
    (h : s.modulePlan module = .ok plan) : plan.Distinct := by
  obtain ⟨plans, told, rfl⟩ := callPlans_eq_ok_iff.mp h
  have own : ∀ {k : Nat} {p : Plan}, plans[k]? = some p → ∃ c inner,
      (calls module)[k]? = some c ∧ s.callPlan c.call = .ok inner ∧
        p = Plan.below c.address inner := by
    intro k p place
    obtain ⟨c, there, own⟩ := (getElem?_of_mapM_eq_ok told).mp place
    obtain ⟨inner, planned, same⟩ := bind_eq_ok_iff.mp own
    cases same
    exact ⟨c, inner, there, planned, rfl⟩
  rw [Plan.Distinct, List.pairwise_flatten]
  constructor
  · intro p member
    obtain ⟨k, place⟩ := List.mem_iff_getElem?.mp member
    obtain ⟨c, inner, _, planned, rfl⟩ := own place
    obtain ⟨array, below, _, _, whole, rfl⟩ := callPlan_eq_ok_iff.mp planned
    exact ((distinct_planArray whole).below [1, 0]).below c.address
  · rw [List.pairwise_iff_getElem]
    rintro i j boundI boundJ before ⟨address, names⟩ one ⟨_, names'⟩ other rfl
    obtain ⟨c, p, thereC, plannedC, sameC⟩ := own (List.getElem?_eq_getElem boundI)
    obtain ⟨d, q, thereD, plannedD, sameD⟩ := own (List.getElem?_eq_getElem boundJ)
    rw [sameC] at one
    rw [sameD] at other
    obtain ⟨_, rfl, inC⟩ := Plan.mem_below_iff.mp one
    obtain ⟨_, same, inD⟩ := Plan.mem_below_iff.mp other
    obtain ⟨_, _, _, arguments, isArray, rfl, place, _⟩ := (mem_callPlan_iff plannedC).mp inC
    obtain ⟨_, _, _, arguments', isArray', rfl, place', _⟩ := (mem_callPlan_iff plannedD).mp inD
    have one := outer_unique (mem_calls_iff.mp (List.mem_of_getElem? thereC))
      (mem_calls_iff.mp (List.mem_of_getElem? thereD)) arguments arguments' isArray isArray' place
      place' same
    obtain ⟨boundC, isC⟩ := List.getElem?_eq_some_iff.mp thereC
    obtain ⟨boundD, isD⟩ := List.getElem?_eq_some_iff.mp thereD
    have apart := List.pairwise_iff_getElem.mp (pairwise_callsIn (bindings module) [] false module)
      i j boundC boundD before
    change (calls module)[i].address ≠ (calls module)[j].address at apart
    rw [isC, isD] at apart
    exact apart one

/-- A plan for a module speaks of places that are there. -/
theorem there_of_mem_modulePlan {s : Setting} {module : Tree} {plan : Plan}
    (h : s.modulePlan module = .ok plan) : ∀ a ∈ plan, module.at? a.address ≠ none := by
  rintro ⟨address, names⟩ member
  obtain ⟨route, place, _⟩ := (mem_modulePlan_iff h).mp member
  simp [place.at?_eq]

theorem moduleNames_of_isRoute {s : Setting} {module : Tree} {plan : Plan}
    (h : s.modulePlan module = .ok plan) {address : Address} {route : Tree}
    (place : IsRoute module address route) : ∃ names, s.ModuleNames route.parts names := by
  obtain ⟨outer, call, array, inner, bound, arguments, _, _, below⟩ := place
  obtain ⟨array', arguments', _, accepted⟩ :=
    (s.modulePlan_ok_iff module).mp ⟨plan, h⟩ outer call bound
  cases arguments.symm.trans arguments'
  exact accepted.moduleNames below

/-- What the nodes of a module receive: routes the names of their modules, and other nodes none. -/
structure Due (s : Setting) (module : Tree) (received : Address → Option (List String)) : Prop where
  routes : ∀ address route, IsRoute module address route →
    s.ModuleNames route.parts (received address)
  others : ∀ address names, received address = some names → ∃ route, IsRoute module address route

theorem due_iff {s : Setting} {module : Tree} {plan : Plan} (h : s.modulePlan module = .ok plan)
    (received : Address → Option (List String)) :
    s.Due module received ↔ received = plan.namesAt := by
  have planned : ∀ address names, plan.namesAt address = some names ↔
      ∃ route, IsRoute module address route ∧ s.ModuleNames route.parts (some names) := by
    intro address names
    rw [Plan.namesAt_eq_some_iff (distinct_modulePlan h), mem_modulePlan_iff h]
  have alone : ∀ address route route', IsRoute module address route →
      IsRoute module address route' → route = route' := fun address route route' place place' =>
    Option.some.inj (place.at?_eq.symm.trans place'.at?_eq)
  rw [eq_namesAt_iff alone (fun _ _ place => moduleNames_of_isRoute h place) planned]
  exact ⟨fun due => ⟨due.routes, due.others⟩, fun ⟨routes, others⟩ => ⟨routes, others⟩⟩

/-- Carrying out the plan for a module adds what is due to its nodes. -/
theorem carryOut_modulePlan {s : Setting} {module : Tree} {plan : Plan}
    (h : s.modulePlan module = .ok plan) :
    plan.carryOut module = module.extended (exportsProperties plan.namesAt) := by
  rw [plan.carryOut_eq_extended module (there_of_mem_modulePlan h)]
  congr 1
  funext address
  exact Plan.added_eq_of_distinct (distinct_modulePlan h) address

theorem answers_compiledModule (s : Setting) :
    Answers s.project s.compiledModule (do
      let m ← s.file.read
      let plan ← s.modulePlan m.tree
      return { m with tree := plan.carryOut m.tree }) := by
  unfold compiledModule
  refine (Answers.ofExcept _).bind fun m => ?_
  exact (s.answers_planModule m.tree).bind fun plan => Answers.pure _

end Setting

/-- There is a compiled text exactly if the file is a module of which every call is accepted. It is
then the text of the module with one property more, behind the others, in every route that refers to
a module; without these properties it is the module as it was read. -/
theorem compile_eq_ok_iff (p : Project) (f : RoutesFile) (withMap : Bool) (text : String) :
    (compile p f withMap).1 = .ok text ↔
      ∃ m received, f.read = .ok m ∧
        (∀ address call, BoundCall m.tree address call → (Setting.mk p f).AcceptsCall call) ∧
        (Setting.mk p f).Due m.tree received ∧
        text = f.print p.root withMap
          { m with tree := m.tree.extended (exportsProperties received) } ∧
        (m.tree.extended (exportsProperties received)).shortened
          (fun address => (exportsProperties received address).length) = m.tree := by
  have ran : (compile p f withMap).1 =
      ((Setting.mk p f).compiledModule.run.run Session.fresh).1.map (f.print p.root withMap) := rfl
  rw [ran, (Setting.mk p f).answers_compiledModule.run_fresh, map_eq_ok_iff]
  simp only [bind_eq_ok_iff]
  constructor
  · rintro ⟨_, ⟨m, read, plan, planned, same⟩, rfl⟩
    cases same
    have accepted := ((Setting.mk p f).modulePlan_ok_iff m.tree).mp ⟨plan, planned⟩
    refine ⟨m, plan.namesAt, read, accepted, (Setting.due_iff planned _).mpr rfl, ?_, ?_⟩
    · rw [Setting.carryOut_modulePlan planned]
    · exact Tree.shortened_extended _ _
  · rintro ⟨m, received, read, accepted, due, rfl, _⟩
    obtain ⟨plan, planned⟩ := ((Setting.mk p f).modulePlan_ok_iff m.tree).mpr accepted
    refine ⟨_, ⟨m, read, plan, planned, rfl⟩, ?_⟩
    rw [Setting.carryOut_modulePlan planned, (Setting.due_iff planned received).mp due]

end RouteManifest.Routes
