import RouteManifest.Proofs.Elements

/-!
# Which modules are read

The work on a module looks at its calls and routes in order, and stops at the first look that
fails. The modules of the looks before that one are needed, one after another, and the cache is
filled by them and by nothing else: neither the look that fails nor any look behind it adds to it.
The cache may be of any kind to begin with, and may say what no file says.
-/

namespace RouteManifest.Routes

open Script

namespace Setting

/-- The looks before the first that fails. -/
def completed (s : Setting) (c : Cache) (looks : List Look) : List Look :=
  looks.takeWhile fun l => (s.fault? c l).isNone

/-- The modules that are needed by the looks before the first that fails, in order. -/
def neededBy (s : Setting) (c : Cache) (looks : List Look) : List Path :=
  (s.completed c looks).filterMap s.needed?

/-- Work that looks in this order and does nothing else, in sessions whose caches say the same as
a given one. -/
def Follows {α : Type} (s : Setting) (base : Cache) (work : Work CompileError α)
    (looks : List Look) : Prop :=
  ∀ session : Session,
    (∀ module, s.project.namesIn session.cache module = s.project.namesIn base module) →
      errorOf? (work session).1 = looks.findSome? (s.fault? base) ∧
        session.cache.Filled s.project (s.neededBy base looks) (work session).2.cache

theorem neededBy_cons (s : Setting) (c : Cache) (l : Look) (rest : List Look) :
    s.neededBy c (l :: rest) =
      match s.fault? c l with
      | some _ => []
      | none => (s.needed? l).toList ++ s.neededBy c rest := by
  unfold neededBy completed
  cases told : s.fault? c l with
  | some halt => simp [told]
  | none =>
    rw [List.takeWhile_cons_of_pos (by simp [told])]
    cases needed : s.needed? l with
    | none => simp [needed]
    | some module => simp [needed]

theorem neededBy_append (s : Setting) (c : Cache) (first rest : List Look) :
    s.neededBy c (first ++ rest) =
      match first.findSome? (s.fault? c) with
      | some _ => s.neededBy c first
      | none => s.neededBy c first ++ s.neededBy c rest := by
  induction first with
  | nil => rfl
  | cons l others ih =>
    rw [List.cons_append, neededBy_cons, neededBy_cons, List.findSome?_cons, ih]
    cases s.fault? c l with
    | some halt => rfl
    | none =>
      cases others.findSome? (s.fault? c) with
      | some halt => rfl
      | none => rw [List.append_assoc]

namespace Follows

variable {α β : Type} {s : Setting} {base : Cache}

theorem pure (a : α) : s.Follows base (Pure.pure a) [] := fun _ _ => ⟨rfl, .done⟩

theorem record (event : Event) : s.Follows base (Work.record event) [] := fun _ _ => ⟨rfl, .done⟩

/-- Work may look at the session if what it follows does not depend on it. -/
theorem told {next : Session → Work CompileError α} {looks : List Look}
    (each : ∀ session, s.Follows base (next session) looks) :
    s.Follows base (get >>= next) looks :=
  fun session same => each session session same

/-- What comes next follows its looks, if none of the looks before it failed. -/
theorem bind {work : Work CompileError α} {next : α → Work CompileError β}
    {looks others : List Look} (first : s.Follows base work looks)
    (rest : looks.findSome? (s.fault? base) = none → ∀ a, s.Follows base (next a) others) :
    s.Follows base (work >>= next) (looks ++ others) := by
  intro session same
  obtain ⟨fault, filled⟩ := first session same
  rw [Work.run_bind, List.findSome?_append, neededBy_append]
  cases step : work session with
  | mk result left =>
    rw [step] at fault filled
    cases result with
    | error halt =>
      rw [← fault]
      exact ⟨rfl, filled⟩
    | ok a =>
      have passed : looks.findSome? (s.fault? base) = none := fault.symm
      have kept : ∀ module, s.project.namesIn left.cache module = s.project.namesIn base module :=
        fun module => (filled.namesIn_eq module).trans (same module)
      obtain ⟨fault', filled'⟩ := rest passed a left kept
      rw [passed]
      exact ⟨fault', filled.append filled'⟩

/-- A look that passes and needs no module goes without saying. -/
theorem passing {work : Work CompileError α} {l : Look} {looks : List Look}
    (passes : s.fault? base l = none) (free : s.needed? l = none)
    (h : s.Follows base work looks) : s.Follows base work (l :: looks) := by
  intro session same
  obtain ⟨fault, filled⟩ := h session same
  rw [List.findSome?_cons, neededBy_cons, passes, free]
  exact ⟨fault, filled⟩

theorem failing {e : CompileError} {l : Look} {looks : List Look}
    (fails : s.fault? base l = some (.error e)) :
    s.Follows base (Work.fail e : Work CompileError α) (l :: looks) := by
  intro session _
  rw [List.findSome?_cons, neededBy_cons, fails]
  exact ⟨rfl, .done⟩

/-- Work that ends with an answer after its looks. -/
theorem map {work : Work CompileError α} {looks : List Look} (first : s.Follows base work looks)
    (f : α → β) : s.Follows base (do return f (← work)) looks := by
  have whole := first.bind fun _ a => Follows.pure (f a)
  rwa [List.append_nil] at whole

end Follows

end Setting

/-- Work whose answer depends on the cache alone, and that fills the cache with a module if the
answer is no error. -/
def Fills {ε α : Type} (p : Project) (work : Work ε α) (answer : Cache → Except (Halt ε) α)
    (module : Option Path) : Prop :=
  ∀ session : Session, (work session).1 = answer session.cache ∧
    session.cache.Filled p
      (match answer session.cache with
        | .ok _ => module.toList
        | .error _ => [])
      (work session).2.cache

namespace Fills

variable {ε δ α β : Type} {p : Project} {module : Option Path}

theorem fail (e : ε) : Fills p (Work.fail e : Work ε α) (fun _ => .error (.error e)) module :=
  fun _ => ⟨rfl, .done⟩

theorem pure (a : α) : Fills p (Pure.pure a : Work ε α) (fun _ => .ok a) none :=
  fun _ => ⟨rfl, .done⟩

theorem ofExcept_bind {x : Except (Halt ε) α} {next : α → Work ε β}
    {answer : α → Cache → Except (Halt ε) β} {module : Option Path}
    (each : ∀ a, x = .ok a → Fills p (next a) (answer a) module) :
    Fills p (Work.ofExcept x >>= next) (fun c => x >>= fun a => answer a c) module := by
  cases x with
  | error halt => exact fun _ => ⟨rfl, .done⟩
  | ok a => exact each a rfl

theorem record_bind (event : Event) {next : Work ε α} {answer : Cache → Except (Halt ε) α}
    (rest : Fills p next answer module) :
    Fills p (Work.record event >>= fun _ => next) answer module :=
  fun session => rest { session with journal := event :: session.journal }

theorem mapError {work : Work ε α} {answer : Cache → Except (Halt ε) α} (f : ε → δ)
    (h : Fills p work answer module) :
    Fills p (work.mapError f) (fun c => (answer c).mapError (Halt.map f)) module := by
  intro session
  obtain ⟨said, filled⟩ := h session
  unfold Work.mapError
  cases step : work session with
  | mk result left =>
    rw [step] at said filled
    dsimp only at said filled ⊢
    rw [← said] at filled ⊢
    match result with
    | .ok a => exact ⟨rfl, filled⟩
    | .error (.error e) => exact ⟨rfl, filled⟩
    | .error (.breakdown message) => exact ⟨rfl, filled⟩

theorem map {work : Work ε α} {answer : Cache → Except (Halt ε) α}
    (h : Fills p work answer module) (f : α → β) :
    Fills p (do return f (← work)) (fun c => do return f (← answer c)) module := by
  intro session
  obtain ⟨said, filled⟩ := h session
  rw [Work.run_bind]
  cases step : work session with
  | mk result left =>
    rw [step] at said filled
    dsimp only at said filled ⊢
    rw [← said] at filled ⊢
    cases result with
    | ok a => exact ⟨rfl, filled⟩
    | error halt => exact ⟨rfl, filled⟩

theorem exportsOf (p : Project) (module : Path) :
    Fills p (p.exportsOf module) (fun c => p.namesIn c module) (some module) := by
  intro session
  dsimp only
  rw [Project.exportsOf_run]
  cases known : session.cache.find? module with
  | some names =>
    have told : p.namesIn session.cache module = .ok names := by rw [Project.namesIn, known]
    rw [told]
    exact ⟨rfl, .known known .done⟩
  | none =>
    have told : p.namesIn session.cache module = (p.extract module).map (·.names) := by
      rw [Project.namesIn, known]
    rw [told]
    cases read : p.extract module with
    | error halt => exact ⟨rfl, .done⟩
    | ok found => exact ⟨rfl, .read known read .done⟩

end Fills

namespace Setting

theorem fills_moduleExports (s : Setting) (property : Tree) :
    Fills s.project (s.moduleExports property) (fun c => s.namesFrom c property)
      (s.moduleOf? property) := by
  unfold moduleExports namesFrom moduleOf?
  cases deferredImport property with
  | error span => exact .fail _
  | ok specifier =>
    refine .ofExcept_bind fun module told => .record_bind _ ?_
    simp only [told]
    exact (Fills.exportsOf s.project module).mapError _

theorem route_eq_ok_iff {s : Setting} {array element route : Tree} :
    s.route array element = .ok route ↔ element.shape = .objectLit ∧ route = element := by
  unfold Setting.route
  split
  · rename_i object
    exact ⟨fun h => by cases h; exact ⟨object, rfl⟩, fun ⟨_, same⟩ => same ▸ rfl⟩
  · rename_i spread
    exact ⟨fun h => (nomatch h), fun h => absurd h.1 (by simp [spread])⟩
  · rename_i hole
    exact ⟨fun h => (nomatch h), fun h => absurd h.1 (by simp [hole])⟩
  · rename_i object _ _
    exact ⟨fun h => (nomatch h), fun h => absurd h.1 object⟩

/-- Looking at an element of an array. -/
def lookAt (s : Setting) (array element : Tree) : Work CompileError (Option (List String)) := do
  let route ← Work.ofExcept ((s.route array element).mapError .error)
  s.routeExports route

theorem fills_lookAt (s : Setting) (outer : Address) (array element : Tree) :
    Fills s.project (s.lookAt array element) (fun c => s.outcome c (.element outer array element))
      (s.needed? (.element outer array element)) := by
  refine .ofExcept_bind fun route told => .ofExcept_bind fun _ _ => ?_
  obtain ⟨object, rfl⟩ := route_eq_ok_iff.mp (mapError_eq_ok_iff.mp told)
  rw [needed?, if_pos (isObject_iff.mpr object), moduleOfRoute?]
  cases route.parts.find? fun p => propertyName? p = some "module" with
  | none => exact .pure _
  | some property => exact (s.fills_moduleExports property).map some

theorem namesFrom_congr {s : Setting} {c d : Cache}
    (same : ∀ module, s.project.namesIn c module = s.project.namesIn d module) (property : Tree) :
    s.namesFrom c property = s.namesFrom d property := by
  simp only [namesFrom, same]

theorem outcome_congr {s : Setting} {c d : Cache}
    (same : ∀ module, s.project.namesIn c module = s.project.namesIn d module) (l : Look) :
    s.outcome c l = s.outcome d l := by
  cases l with
  | call address call => rfl
  | element address array element => simp only [outcome, namesFrom_congr same]

theorem follows_lookAt (s : Setting) (base : Cache) (outer : Address) (array element : Tree) :
    s.Follows base (s.lookAt array element) [.element outer array element] := by
  intro session same
  obtain ⟨said, filled⟩ := s.fills_lookAt outer array element session
  dsimp only at said filled
  rw [outcome_congr same] at said filled
  rw [said, List.findSome?_cons, neededBy_cons, fault?]
  cases told : s.outcome base (.element outer array element) with
  | error halt =>
    rw [told] at filled
    exact ⟨rfl, filled⟩
  | ok names =>
    rw [told] at filled
    refine ⟨rfl, ?_⟩
    have alone : s.neededBy base [] = [] := rfl
    simpa [errorOf?, alone] using filled

theorem follows_planElements (s : Setting) (base : Cache) (outer : Address) (p : Pending)
    (i j : Nat) (elements : List Tree) :
    s.Follows base (s.planElements p i elements) (looksAt outer p.array j elements) := by
  induction elements generalizing i j with
  | nil => exact .pure _
  | cons element rest ih =>
    have steps : s.planElements p i (element :: rest) = do
        let names ← s.lookAt p.array element
        let additions := names.toList.map fun names => ⟨p.address ++ [i], names⟩
        return additions ++ (← s.planElements p (i + 1) rest) := by
      simp [planElements, lookAt, -bind_pure_comp]
    rw [steps]
    refine (s.follows_lookAt base (outer ++ [j]) p.array element).bind fun _ names => ?_
    exact (ih (i + 1) (j + 1)).map _

end Setting

/-- The looks at arrays that wait, by addresses from a place on. -/
def looksOfPending (outer : Address) (pending : List Pending) : List Look :=
  pending.flatMap fun p => looksOf (outer ++ p.address) p.array

theorem looksOfPending_append (outer : Address) (first second : List Pending) :
    looksOfPending outer (first ++ second) =
      looksOfPending outer first ++ looksOfPending outer second :=
  List.flatMap_append

theorem looksOfPending_cons (outer : Address) (p : Pending) (rest : List Pending) :
    looksOfPending outer (p :: rest) =
      looksOf (outer ++ p.address) p.array ++ looksOfPending outer rest :=
  List.flatMap_cons

theorem looksOfProperty_eq (place : Address) (property : Tree) :
    looksOfProperty place property =
      match childArray? property with
      | some array => looksOf (place ++ [1]) array
      | none => [] := by
  rcases keyValue_or_value?_eq_none property with ⟨span, key, value, rfl⟩ | bare
  · rw [looksOfProperty, childArray?_keyValue]
    split
    · rfl
    · rfl
  · have none : childArray? property = none := by simp [childArray?, bare]
    rw [none, looksOfProperty_of_value?_eq_none place bare]

theorem looksOfPending_arraysOfRoute (outer route : Address) (k : Nat) (properties : List Tree) :
    looksOfPending outer (arraysOfRoute route k properties) =
      looksOfProperties (outer ++ route) k properties := by
  induction properties generalizing k with
  | nil => rfl
  | cons property rest ih =>
    rw [arraysOfRoute, looksOfPending_append, ih, looksOfProperties, looksOfProperty_eq]
    cases childArray? property with
    | none => rfl
    | some array => simp [looksOfPending]

/-- The arrays below object literals are looked at in order. -/
theorem looksOfPending_arraysBelow (outer address : Address) (i : Nat) {elements : List Tree}
    (objects : ∀ element ∈ elements, element.shape = .objectLit) :
    looksOfPending outer (arraysBelow address i elements) =
      looksBelow (outer ++ address) i elements := by
  induction elements generalizing i with
  | nil => rfl
  | cons element rest ih =>
    obtain ⟨shape, span, properties⟩ := element
    rw [List.forall_mem_cons] at objects
    have object := isObject_iff.mpr objects.1
    rw [arraysBelow, looksOfPending_append, looksOfPending_arraysOfRoute, ih (i + 1) objects.2,
      looksBelow, if_pos object, List.append_assoc, Tree.parts_node]

namespace Setting

/-- No element of an array fails only if all are object literals. -/
theorem objects_of_passed {s : Setting} {base : Cache} {outer : Address} {array : Tree} {i : Nat}
    {elements : List Tree}
    (passed : (looksAt outer array i elements).findSome? (s.fault? base) = none) :
    ∀ element ∈ elements, element.shape = .objectLit := by
  intro element member
  obtain ⟨k, there⟩ := List.mem_iff_getElem?.mp member
  have look : Look.element (outer ++ [i + k]) array element ∈ looksAt outer array i elements :=
    mem_looksAt_iff.mpr ⟨k, element, there, rfl⟩
  have silent := List.findSome?_eq_none_iff.mp passed _ look
  obtain ⟨names, told⟩ := errorOf?_eq_none_iff.mp silent
  obtain ⟨route, found, _⟩ := bind_eq_ok_iff.mp told
  exact (route_eq_ok_iff.mp (mapError_eq_ok_iff.mp found)).1

/-- The stack of arrays that wait gives the order of the looks: all below one array before the
next. -/
theorem follows_planPending (s : Setting) (base : Cache) (outer : Address)
    (pending : List Pending) :
    s.Follows base (s.planPending pending) (looksOfPending outer pending) := by
  induction pending using planPending.induct with
  | case1 =>
    rw [planPending]
    exact .pure _
  | case2 p rest ih =>
    have level := s.follows_planElements base (outer ++ p.address) p 0 0 p.array.parts
    have onward (passed : (looksAt (outer ++ p.address) p.array 0 p.array.parts).findSome?
        (s.fault? base) = none) :
        s.Follows base (s.planPending (arraysBelow p.address 0 p.array.parts ++ rest))
          (looksBelow (outer ++ p.address) 0 p.array.parts ++ looksOfPending outer rest) := by
      rwa [looksOfPending_append,
        looksOfPending_arraysBelow outer p.address 0 (objects_of_passed passed)] at ih
    have steps := level.bind fun passed additions => (onward passed).map (additions ++ ·)
    obtain ⟨address, shape, span, elements⟩ := p
    rw [planPending, looksOfPending_cons, looksOf, List.append_assoc]
    exact steps

theorem follows_plan (s : Setting) (base : Cache) (outer : Address) (array : Tree) :
    s.Follows base (s.plan array) (looksOf outer array) := by
  have whole := (s.follows_planPending base outer [⟨[], array⟩]).bind fun _ plan =>
    (Follows.record (.routesRead s.file.path (countPending [⟨[], array⟩]))).map fun _ => plan
  simpa [looksOfPending, plan, -bind_pure_comp] using whole

theorem follows_planCall (s : Setting) (base : Cache) (c : Call) :
    s.Follows base (s.planCall c.call) (looksOfCall c) := by
  unfold planCall looksOfCall
  rcases arguments : (c.call.part 1).parts with _ | ⟨argument, _ | ⟨other, rest⟩⟩
  · exact .failing (by simp [fault?, outcome, arguments, errorOf?])
  · by_cases array : isArray argument = true
    · simp only [array, if_true]
      refine .passing (by simp [fault?, outcome, arguments, array, errorOf?]) rfl ?_
      exact (s.follows_plan base (c.address ++ [1, 0]) argument).map _
    · simp only [array]
      exact .failing (by simp [fault?, outcome, arguments, array, errorOf?])
  · exact .failing (by simp [fault?, outcome, arguments, errorOf?])

theorem follows_planCalls (s : Setting) (base : Cache) (calls : List Call) :
    s.Follows base (s.planCalls calls) (looks calls) := by
  induction calls with
  | nil => exact .pure _
  | cons c rest ih =>
    rw [looks, List.flatMap_cons]
    exact (s.follows_planCall base c).bind fun _ plan => ih.map (plan.below c.address ++ ·)

theorem follows_planModule (s : Setting) (base : Cache) (module : Tree) :
    s.Follows base (s.planModule module) (looks (calls module)) := by
  by_cases unbound : (bindings module).isEmpty = true
  · have work : s.planModule module = do
        Work.record (.noRoutes s.file.path)
        return [] := if_pos unbound
    rw [work, calls_eq_nil unbound]
    exact (Follows.record _).map fun _ => []
  · have work : s.planModule module = do
        let plan ← s.planCalls (calls module)
        let session ← get
        Work.record (.compiled s.file.path (calls module).length session.cache.extractions)
        return plan := if_neg unbound
    have told (plan : Plan) : s.Follows base (do
        let session ← get
        Work.record (.compiled s.file.path (calls module).length session.cache.extractions)
        return plan) [] := Follows.told fun session => (Follows.record _).map fun _ => plan
    have whole := (s.follows_planCalls base (calls module)).bind fun _ => told
    rw [work]
    rwa [List.append_nil] at whole

/-- What a run comes to that looks in this order: it ends with the fault of the first look that
fails, if one does, and of all modules it reads those, each once, that are needed before that and
are not known. -/
structure Accounted {α : Type} (s : Setting) (looks : List Look) (before : Session)
    (run : Except (Halt CompileError) α × Session) : Prop where
  fault : errorOf? run.1 = looks.findSome? (s.fault? before.cache)
  counted : run.2.cache.extractions =
    before.cache.extractions +
      (before.cache.unknownPlaces (s.neededBy before.cache looks)).card
  /-- what was known is kept as it is, and one entry is there for each module that was read -/
  entries : ∃ added, run.2.cache.entries = added ++ before.cache.entries ∧
    (added.map fun e => e.1.components).Nodup ∧
    (added.map fun e => e.1.components).toFinset =
      before.cache.unknownPlaces (s.neededBy before.cache looks)
  /-- nothing is known afterwards that was not known before or read -/
  known : ∀ module names, run.2.cache.find? module = some names ↔
    before.cache.find? module = some names ∨
      before.cache.find? module = none ∧
        (∃ m ∈ s.neededBy before.cache looks, m.same module = true) ∧
          ∃ file, s.project.extract module = .ok ⟨file, names⟩

theorem Follows.accounted {α : Type} {s : Setting} {work : Work CompileError α}
    {looks : List Look} {session : Session} (h : s.Follows session.cache work looks) :
    s.Accounted looks session (work session) := by
  obtain ⟨fault, filled⟩ := h session fun _ => rfl
  obtain ⟨added, entries, count, once, places⟩ := filled.entries
  refine ⟨fault, ?_, ⟨added, entries, once, places⟩, fun module names => filled.find?_eq_some_iff⟩
  rw [count, ← places, List.toFinset_card_of_nodup once, List.length_map]

/-- Planning reads each module once that is needed before the first fault and is not known, and no
other; so it is for an array of routes and for all calls of a module, in any session. Compiling
reads for the module of the routes file, if it can be read as one, and else reads nothing. -/
theorem accounted_plan_and_planModule (s : Setting) :
    (∀ array session, s.Accounted (looksOf [] array) session (s.plan array session)) ∧
      (∀ module session,
        s.Accounted (looks (calls module)) session (s.planModule module session)) ∧
      ∀ session, (s.compiledModule session).2 =
        match s.file.read with
        | .ok m => (s.planModule m.tree session).2
        | .error _ => session := by
  refine ⟨fun array session => (s.follows_plan _ [] array).accounted,
    fun module session => (s.follows_planModule _ module).accounted, fun session => ?_⟩
  unfold compiledModule
  cases s.file.read with
  | error halt => rfl
  | ok m =>
    change ((do return { m with tree := (← s.planModule m.tree).carryOut m.tree } :
      Work CompileError Module) session).2 = _
    rw [Work.run_bind]
    dsimp only
    cases s.planModule m.tree session with
    | mk result left =>
      cases result with
      | ok plan => rfl
      | error halt => rfl

end Setting

end RouteManifest.Routes
