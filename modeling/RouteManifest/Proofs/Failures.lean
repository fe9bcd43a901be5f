import RouteManifest.Proofs.Accounting
import RouteManifest.Proofs.Isolation
import RouteManifest.Proofs.Traversal

/-!
# The first failure

Compiling ends with the fault of the first call that fails, told by the calls alone: calls are
ordered by their addresses, by which a call comes before the calls inside it and before all that
stands behind it. The calls from there on stay as they are, and what only routes behind the fault
refer to is not read.
-/

namespace RouteManifest.Routes

open Script

namespace Setting

/-- A call is taken if its one argument is an array of routes that is accepted. -/
def TakesCall (s : Setting) (call : Tree) : Prop :=
  ∃ array, (call.part 1).parts = [array] ∧ array.shape = .arrayLit ∧ s.Accepts array

/-- A call fails by the number of its arguments, by the form of its one argument, or by its
routes. -/
inductive CallFails (s : Setting) (call : Tree) : Halt CompileError → Prop
  | arity (count : (call.part 1).parts.length ≠ 1) :
      CallFails s call
        (.error (.callArity (s.file.location call.span) (call.part 1).parts.length))
  | argument {argument : Tree} (alone : (call.part 1).parts = [argument])
      (form : argument.shape ≠ .arrayLit) :
      CallFails s call (.error (.callArgument (s.file.location call.span)))
  | routes {array : Tree} {halt : Halt CompileError} (alone : (call.part 1).parts = [array])
      (isArray : array.shape = .arrayLit)
      (rejected : ((s.plan array).run.run Session.fresh).1 = .error halt) :
      CallFails s call halt

/-- A call fails, and all calls before it are taken. -/
structure FirstFailure (s : Setting) (module : Tree) (address : Address) (call : Tree)
    (halt : Halt CompileError) : Prop where
  bound : BoundCall module address call
  fails : s.CallFails call halt
  earlier : ∀ address' call', BoundCall module address' call' → address' < address →
    s.TakesCall call'

/-- A walk over a whole module from a session in which nothing was done before. -/
def walk (s : Setting) (module : Tree) : Tree × Walk :=
  s.visit (bindings module) false module ⟨Session.fresh, none⟩

/-- What a walk has done that stops at an address: nothing to the calls from there on, and of the
modules it has read those alone that are needed before the fault. -/
structure StopsAt (s : Setting) (module : Tree) (address : Address) : Prop where
  unchanged : ∀ later call, BoundCall module later call → ¬ later < address →
    (s.walk module).1.at? later = some call
  unread : ∀ path names, (s.walk module).2.session.cache.find? path = some names →
    ∃ needed ∈ s.neededBy .empty (looks (calls module)), needed.same path = true

theorem takesCall_iff (s : Setting) (call : Tree) :
    s.TakesCall call ↔ ∃ plan, s.callPlan call = .ok plan := by
  simp only [s.callPlan_ok_iff, TakesCall, AcceptsCall, s.accepts_iff]

theorem callPlan_eq_error_iff {s : Setting} {call : Tree} {halt : Halt CompileError} :
    s.callPlan call = .error halt ↔ s.CallFails call halt := by
  unfold callPlan
  constructor
  · intro h
    split at h
    · rename_i argument alone
      by_cases array : isArray argument = true
      · rw [if_pos array] at h
        refine .routes alone (isArray_iff.mp array) ?_
        rw [(s.answers_plan argument).run_fresh]
        cases planned : s.planArray argument with
        | ok plan =>
          rw [planned] at h
          cases h
        | error other =>
          rw [planned] at h
          cases h
          rfl
      · rw [if_neg array] at h
        cases h
        exact .argument alone fun form => array (isArray_iff.mpr form)
    · rename_i several
      cases h
      refine .arity fun one => ?_
      obtain ⟨argument, alone⟩ := List.length_eq_one_iff.mp one
      exact several argument alone
  · intro h
    cases h with
    | arity count =>
      split
      · rename_i alone
        rw [alone] at count
        exact absurd rfl count
      · rfl
    | argument alone form =>
      rw [alone]
      exact if_neg fun array => form (isArray_iff.mp array)
    | routes alone array rejected =>
      rw [(s.answers_plan _).run_fresh] at rejected
      rw [alone]
      refine (if_pos (isArray_iff.mpr array)).trans ?_
      rw [rejected]
      rfl

theorem callFault?_eq_none_iff {s : Setting} {c : Call} :
    s.callFault? c = none ↔ s.TakesCall c.call := by
  rw [takesCall_iff, callFault?, errorOf?_eq_none_iff]

theorem callFault?_eq_some_iff {s : Setting} {c : Call} {halt : Halt CompileError} :
    s.callFault? c = some halt ↔ s.CallFails c.call halt := by
  rw [← callPlan_eq_error_iff, callFault?, errorOf?_eq_some_iff]

theorem callPlans_eq (s : Setting) (calls : List Call) :
    s.callPlans calls =
      match calls.findSome? s.callFault? with
      | none => .ok (s.plansUntil calls)
      | some halt => .error halt := by
  induction calls with
  | nil => rfl
  | cons c rest ih =>
    rw [callPlans_cons, List.findSome?_cons, callFault?, plansUntil, ih]
    cases s.callPlan c.call with
    | error halt => rfl
    | ok plan => cases rest.findSome? s.callFault? <;> rfl

/-- The calls of a module up to one of them are those with smaller addresses. -/
theorem mem_before_iff {module : Tree} {before after : List Call} {c d : Call}
    (split : calls module = before ++ c :: after) :
    d ∈ before ↔ d ∈ calls module ∧ d.address < c.address := by
  have sorted := sorted_callsIn (bindings module) [] false module
  change (calls module).Pairwise _ at sorted
  rw [split, List.pairwise_append, List.pairwise_cons] at sorted
  obtain ⟨_, ⟨behind, _⟩, across⟩ := sorted
  rw [split, List.mem_append, List.mem_cons]
  constructor
  · exact fun member => ⟨Or.inl member, across d member c List.mem_cons_self⟩
  · rintro ⟨first | rfl | last, less⟩
    · exact first
    · exact absurd less (List.lt_irrefl _)
    · exact absurd (List.lt_trans less (behind d last)) (List.lt_irrefl _)

theorem firstFailure_iff {s : Setting} {module : Tree} {halt : Halt CompileError} :
    (calls module).findSome? s.callFault? = some halt ↔
      ∃ address call, s.FirstFailure module address call halt := by
  rw [List.findSome?_eq_some_iff]
  constructor
  · rintro ⟨before, c, after, split, fails, passed⟩
    refine ⟨c.address, c.call, mem_calls_iff.mp ?_, callFault?_eq_some_iff.mp fails, ?_⟩
    · rw [split]
      exact List.mem_append_right _ List.mem_cons_self
    · intro address call bound less
      have there : ⟨address, call⟩ ∈ calls module := mem_calls_iff.mpr bound
      exact callFault?_eq_none_iff.mp (passed _ ((mem_before_iff split).mpr ⟨there, less⟩))
  · rintro ⟨address, call, bound, fails, earlier⟩
    have member : ⟨address, call⟩ ∈ calls module := mem_calls_iff.mpr bound
    obtain ⟨before, after, split⟩ := List.append_of_mem member
    refine ⟨before, ⟨address, call⟩, after, split, callFault?_eq_some_iff.mpr fails, ?_⟩
    intro d inside
    obtain ⟨there, less⟩ := (mem_before_iff split).mp inside
    exact callFault?_eq_none_iff.mpr (earlier d.address d.call (mem_calls_iff.mp there) less)

/-- The plans of a walk are those for calls before the one that fails. -/
theorem plansUntil_of_split {s : Setting} {before after : List Call} {c : Call}
    (passed : ∀ d ∈ before, s.callFault? d = none) {halt : Halt CompileError}
    (fails : s.callFault? c = some halt) :
    s.plansUntil (before ++ c :: after) = s.plansUntil before := by
  have last : s.plansUntil (c :: after) = [] := by
    rw [plansUntil, errorOf?_eq_some_iff.mp fails]
  rw [plansUntil_append, List.findSome?_eq_none_iff.mpr passed, last, List.append_nil]

theorem mem_plansUntil {s : Setting} {calls : List Call} {a : Addition}
    (h : a ∈ s.plansUntil calls) :
    ∃ c ∈ calls, ∃ array inner route, (c.call.part 1).parts = [array] ∧ array.shape = .arrayLit ∧
      a.address = c.address ++ 1 :: 0 :: inner ∧ RouteAt array inner route := by
  induction calls with
  | nil => cases h
  | cons c rest ih =>
    rw [plansUntil] at h
    cases planned : s.callPlan c.call with
    | error halt =>
      rw [planned] at h
      cases h
    | ok plan =>
      rw [planned] at h
      rcases List.mem_append.mp h with own | others
      · obtain ⟨inner, split, inside⟩ := Plan.mem_below_iff.mp own
        obtain ⟨array, last, route, arguments, isArray, rfl, place, _⟩ :=
          (mem_callPlan_iff planned).mp inside
        exact ⟨c, List.mem_cons_self, array, last, route, arguments, isArray, split, place⟩
      · obtain ⟨d, member, told⟩ := ih others
        exact ⟨d, List.mem_cons_of_mem c member, told⟩

end Setting

theorem at?_extended {more : Address → List Tree} {t u : Tree} {address : Address}
    (found : t.at? address = some u) :
    (t.extended more).at? address = some (u.extended fun below => more (address ++ below)) := by
  induction address generalizing t more with
  | nil =>
    cases found
    rfl
  | cons i rest ih =>
    rw [Tree.at?_cons, Option.bind_eq_some_iff] at found
    obtain ⟨p, there, found⟩ := found
    have bound := (List.getElem?_eq_some_iff.mp there).1
    rw [Tree.at?_cons, Tree.extended_eq, Tree.parts_withParts,
      List.getElem?_append_left (by simpa using bound), List.getElem?_mapIdx, there]
    exact ih found

namespace Setting

theorem walk_eq (s : Setting) (module : Tree) :
    s.walk module = ((s.plansUntil (calls module)).carryOut module,
      s.walkOf (calls module) Session.fresh) :=
  s.visits (bindings module) false module Session.fresh (Cache.sound_empty s.project)

/-- No call before another in a module has a route inside that other one. -/
theorem not_inside_later {module array route other : Tree} {c : Call} {later inner below : Address}
    (member : c ∈ calls module) (arguments : (c.call.part 1).parts = [array])
    (isArray : array.shape = .arrayLit) (place : RouteAt array inner route)
    (bound : BoundCall module later other) (before : c.address ≠ later)
    (behind : ¬ later < c.address) :
    c.address ++ 1 :: 0 :: inner ≠ later ++ below := by
  intro same
  rcases List.append_eq_append_iff.mp same with ⟨between, rfl, way⟩ | ⟨between, inside, _⟩
  · cases between with
    | nil => exact before (List.append_nil _).symm
    | cons i between =>
      have found := bound.here
      rw [Tree.at?_append, (mem_calls_iff.mp member).here, Option.bind_some] at found
      obtain ⟨binding, name, introduced⟩ := bound.bound
      have isCall : isCallOf (bindings module) other = true :=
        isCallOf_iff.mpr ⟨bound.isCall, binding, name, mem_bindings_iff.mpr introduced⟩
      rw [no_call_on_the_way arguments isArray place way found] at isCall
      cases isCall
  · cases between with
    | nil => exact before (inside.trans (List.append_nil _))
    | cons i between =>
      refine behind ?_
      have less : later ++ [] < later ++ i :: between :=
        List.append_left_lt (List.nil_lt_cons i between)
      rwa [List.append_nil, ← inside] at less

theorem needed_of_walk {s : Setting} {module : Tree} {path : Path} {names : List String}
    (known : (s.walk module).2.session.cache.find? path = some names) :
    ∃ needed ∈ s.neededBy .empty (looks (calls module)), needed.same path = true := by
  rw [walk_eq, walkOf_eq] at known
  have told : s.Accounted (looks (calls module)) Session.fresh
      (s.planCalls (calls module) Session.fresh) :=
    (s.follows_planCalls .empty (calls module)).accounted
  rcases (told.known path names).mp known with before | ⟨_, needed, _⟩
  · cases before
  · exact needed

/-- The tree of a walk that stops at a call has all calls from there on as they were. -/
theorem at?_walk_of_later {s : Setting} {module : Tree} {address : Address} {call : Tree}
    {halt : Halt CompileError} (first : s.FirstFailure module address call halt) {later : Address}
    {other : Tree} (bound : BoundCall module later other) (behind : ¬ later < address) :
    (s.walk module).1.at? later = some other := by
  have member : ⟨address, call⟩ ∈ calls module := mem_calls_iff.mpr first.bound
  obtain ⟨before, after, split⟩ := List.append_of_mem member
  have passed : ∀ d ∈ before, s.callFault? d = none := fun d inside => by
    obtain ⟨there, less⟩ := (mem_before_iff split).mp inside
    exact callFault?_eq_none_iff.mpr
      (first.earlier d.address d.call (mem_calls_iff.mp there) less)
  have plan : s.plansUntil (calls module) = s.plansUntil before := by
    rw [split]
    exact plansUntil_of_split passed (callFault?_eq_some_iff.mpr first.fails)
  have there : ∀ a ∈ s.plansUntil before, module.at? a.address ≠ none := by
    intro a inside
    obtain ⟨c, own, array, inner, route, arguments, isArray, at', place⟩ := mem_plansUntil inside
    have isRoute : IsRoute module a.address route :=
      ⟨c.address, c.call, array, inner, mem_calls_iff.mp ((mem_before_iff split).mp own).1,
        arguments, isArray, at', place⟩
    rw [isRoute.at?_eq]
    exact Option.some_ne_none route
  have untouched : (fun below => (s.plansUntil before).added (later ++ below)) = fun _ => [] := by
    funext below
    refine List.map_eq_nil_iff.mpr (List.filter_eq_nil_iff.mpr fun a inside same => ?_)
    obtain ⟨c, own, array, inner, route, arguments, isArray, at', place⟩ := mem_plansUntil inside
    obtain ⟨among, less⟩ := (mem_before_iff split).mp own
    refine not_inside_later among arguments isArray place bound ?_ ?_
      (at'.symm.trans (of_decide_eq_true same))
    · rintro rfl
      exact behind less
    · exact fun earlier => behind (List.lt_trans earlier less)
  rw [walk_eq, plan, Plan.carryOut_eq_extended _ _ there, at?_extended bound.here, untouched,
    Tree.extended_nothing]

theorem fault_walk (s : Setting) (module : Tree) :
    (s.walk module).2.fault = (calls module).findSome? s.callFault? := by
  rw [walk_eq]
  exact (s.walkOf_sound (calls module) (Cache.sound_empty s.project)).1

theorem findSome?_callFault?_eq_none_iff {s : Setting} {module : Tree} :
    (calls module).findSome? s.callFault? = none ↔
      ∀ address call, BoundCall module address call → s.TakesCall call := by
  rw [List.findSome?_eq_none_iff]
  constructor
  · intro passed address call bound
    exact callFault?_eq_none_iff.mp (passed ⟨address, call⟩ (mem_calls_iff.mpr bound))
  · intro taken c member
    exact callFault?_eq_none_iff.mpr (taken _ _ (mem_calls_iff.mp member))

end Setting

/-- Compiling prints the tree of a walk, or ends with the fault that the walk has noted. -/
theorem compile_eq_walk {f : RoutesFile} {m : Module} (read : f.read = .ok m) (p : Project)
    (withMap : Bool) :
    (compile p f withMap).1 =
      match ((Setting.mk p f).walk m.tree).2.fault with
      | some halt => .error halt
      | none => .ok (f.print p.root withMap
          { m with tree := ((Setting.mk p f).walk m.tree).1 }) := by
  rw [compile_eq, read, Setting.fault_walk, Setting.walk_eq]
  change (do
    let plan ← (Setting.mk p f).modulePlan m.tree
    return f.print p.root withMap { m with tree := plan.carryOut m.tree }) = _
  rw [Setting.modulePlan, Setting.callPlans_eq]
  cases (calls m.tree).findSome? (Setting.mk p f).callFault? with
  | none => rfl
  | some halt => rfl

theorem compile_eq_error_iff {f : RoutesFile} {m : Module} (read : f.read = .ok m) (p : Project)
    (withMap : Bool) (halt : Halt CompileError) :
    (compile p f withMap).1 = .error halt ↔
      ∃ address call, (Setting.mk p f).FirstFailure m.tree address call halt := by
  rw [← Setting.firstFailure_iff, compile_eq_walk read, Setting.fault_walk]
  cases (calls m.tree).findSome? (Setting.mk p f).callFault? with
  | none => exact ⟨fun h => (nomatch h), fun h => (nomatch h)⟩
  | some other => exact ⟨fun h => by cases h; rfl, fun h => by cases h; rfl⟩

theorem compile_ok_iff {f : RoutesFile} {m : Module} (read : f.read = .ok m) (p : Project)
    (withMap : Bool) :
    (∃ text, (compile p f withMap).1 = .ok text) ↔
      ∀ address call, BoundCall m.tree address call → (Setting.mk p f).TakesCall call := by
  rw [← Setting.findSome?_callFault?_eq_none_iff, compile_eq_walk read, Setting.fault_walk]
  cases (calls m.tree).findSome? (Setting.mk p f).callFault? with
  | none => exact ⟨fun _ => rfl, fun _ => ⟨_, rfl⟩⟩
  | some halt => exact ⟨fun ⟨_, h⟩ => (nomatch h), fun h => (nomatch h)⟩

/-- For a module that parses, compiling is a walk over the calls of the module. It ends with a text
exactly if every call is taken, and else with the fault of the first call that fails. The walk then
does nothing to the calls from that one on, and of the files those alone matter that routes up to
the fault refer to. -/
theorem compile_first_failure {f : RoutesFile} {m : Module} (read : f.read = .ok m) (p : Project)
    (withMap : Bool) :
    ((compile p f withMap).1 =
      match ((Setting.mk p f).walk m.tree).2.fault with
      | some halt => .error halt
      | none => .ok (f.print p.root withMap { m with tree := ((Setting.mk p f).walk m.tree).1 })) ∧
    ((∃ text, (compile p f withMap).1 = .ok text) ↔
      ∀ address call, BoundCall m.tree address call → (Setting.mk p f).TakesCall call) ∧
    (∀ halt, (compile p f withMap).1 = .error halt ↔
      ∃ address call, (Setting.mk p f).FirstFailure m.tree address call halt) ∧
    ∀ address call halt, (Setting.mk p f).FirstFailure m.tree address call halt →
      (Setting.mk p f).StopsAt m.tree address ∧
      ∀ files', (∀ l ∈ (Setting.mk p f).untilFault (looks (calls m.tree)), ∀ path,
          (Setting.mk p f).needed? l = some path → Project.AgreeOn p.files files' p.root path) →
        (compile ⟨files', p.root⟩ f withMap).1 = .error halt := by
  refine ⟨compile_eq_walk read p withMap, compile_ok_iff read p withMap,
    compile_eq_error_iff read p withMap, fun address call halt first => ⟨⟨?_, ?_⟩, ?_⟩⟩
  · exact fun later other bound behind => Setting.at?_walk_of_later first bound behind
  · exact fun path names known => Setting.needed_of_walk known
  · intro files' agree
    have same : (compile p f withMap).1 = (compile ⟨files', p.root⟩ f withMap).1 :=
      compile_congr fun m' read' => by
        cases read.symm.trans read'
        exact agree
    exact same.symm.trans
      ((compile_eq_error_iff read p withMap halt).mpr ⟨address, call, first⟩)

/-- A routes file in which the first call has a fault in its routes and the second no argument. -/
def twiceFailingFile : RoutesFile :=
  ⟨⟨"r.ts"⟩, ("import\x7bdefineRoutes as d\x7dfrom\"rr-routes\";" ++
    "d([\x7bchildren:1\x7d]);d()").toList⟩

/-- The fault of the first call of a routes file that fails, if the file can be read. -/
def firstFault? (s : Setting) : Option (Halt CompileError) :=
  match s.file.read with
  | .ok m => (calls m.tree).findSome? s.callFault?
  | .error _ => none

theorem firstFault?_eq_some_iff {s : Setting} {halt : Halt CompileError} :
    firstFault? s = some halt ↔ ∃ m, s.file.read = .ok m ∧
      ∃ address call, s.FirstFailure m.tree address call halt := by
  simp only [← Setting.firstFailure_iff]
  unfold firstFault?
  cases s.file.read with
  | error stop => exact ⟨fun h => (nomatch h), fun ⟨_, h, _⟩ => (nomatch h)⟩
  | ok m => exact ⟨fun h => ⟨m, rfl, h⟩, fun ⟨_, same, h⟩ => by cases same; exact h⟩

theorem compile_of_firstFault? {s : Setting} {halt : Halt CompileError}
    (h : firstFault? s = some halt) (withMap : Bool) :
    (compile s.project s.file withMap).1 = .error halt := by
  obtain ⟨m, read, first⟩ := firstFault?_eq_some_iff.mp h
  exact (compile_eq_error_iff read s.project withMap halt).mpr first

/-- The fault is that of the first call; that the second one lacks its argument is not said. -/
theorem compile_twiceFailingFile :
    ∃ m, twiceFailingFile.read = .ok m ∧
      (compile ⟨⟨[], []⟩, ⟨"/"⟩⟩ twiceFailingFile false).1 =
        .error (.error (.childrenShape ⟨"r.ts", 0, 54⟩ .notArray)) := by
  have told : firstFault? ⟨⟨⟨[], []⟩, ⟨"/"⟩⟩, twiceFailingFile⟩ =
      some (.error (.childrenShape ⟨"r.ts", 0, 54⟩ .notArray)) := by
    decide +kernel
  obtain ⟨m, read, first⟩ := firstFault?_eq_some_iff.mp told
  exact ⟨m, read, ((compile_first_failure read ⟨⟨[], []⟩, ⟨"/"⟩⟩ false).2.2.1 _).mpr first⟩

end RouteManifest.Routes
