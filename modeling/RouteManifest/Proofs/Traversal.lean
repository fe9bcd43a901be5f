import RouteManifest.Proofs.Nesting

/-!
# Calls visited one by one

The same work without a list of calls and without a plan for the whole: a walk over the module that
changes the tree as it goes. The routes of a call receive their names before the parts of the call
are visited, and the first fault is noted. The walk then goes on to its end, but leaves every call
that it still comes to as it is, with all that lies inside. It is what planning for a list of calls
is measured against.
-/

namespace RouteManifest.Routes

open Script

/-- What a walk carries along: the session, and the first fault that was met. -/
structure Walk where
  session : Session
  fault : Option (Halt CompileError)

def isCall (t : Tree) : Bool := t.shape matches .call

theorem isCall_iff {t : Tree} : isCall t = true ↔ t.shape = .call := by
  unfold isCall
  cases t.shape with
  | call => simp
  | _ => simp

/-- How many nodes of a tree are calls, whatever they call. -/
def callCount : Tree → Nat
  | .node shape span parts => (isCall (.node shape span parts)).toNat + inParts parts
where
  inParts : List Tree → Nat
    | [] => 0
    | p :: ps => callCount p + inParts ps

/-- What becomes of a node when a walk comes to it, before its parts are visited, if they are. -/
def Setting.arrive (s : Setting) (bindings : List Binding) (linked : Bool) (t : Tree) (w : Walk) :
    Option Tree × Walk :=
  if !linked && isCall t then
    if w.fault.isSome then (none, w)
    else if isCallOf bindings t then
      match s.planCall t w.session with
      | (.ok plan, session) => (some (plan.carryOut t), ⟨session, none⟩)
      | (.error halt, session) => (none, ⟨session, some halt⟩)
    else (some t, w)
  else (some t, w)

theorem callCount_eq (t : Tree) :
    callCount t = (isCall t).toNat + callCount.inParts t.parts := by
  cases t
  rfl

theorem inParts_callCount_append (first second : List Tree) :
    callCount.inParts (first ++ second) = callCount.inParts first + callCount.inParts second := by
  induction first with
  | nil => simp [callCount.inParts]
  | cons p ps ih => simp only [List.cons_append, callCount.inParts, ih, Nat.add_assoc]

theorem callCount_exportsProperty (names : List String) :
    callCount (exportsProperty names) = 0 := by
  have literals : callCount.inParts
      (names.map fun name => .node (.stringLit name none) .nowhere []) = 0 := by
    induction names with
    | nil => rfl
    | cons name rest ih => simpa [callCount.inParts, callCount, isCall] using ih
  simp [exportsProperty, callCount, callCount.inParts, isCall, literals]

theorem callCount_changeAt (names : List String) (t : Tree) (address : Address) :
    callCount (t.changeAt (withExports names) address) = callCount t := by
  induction address generalizing t with
  | nil =>
    have same : isCall (t.changeAt (withExports names) []) = isCall t := rfl
    have parts : (t.changeAt (withExports names) []).parts =
        t.parts ++ [exportsProperty names] := rfl
    rw [callCount_eq, callCount_eq t, same, parts, inParts_callCount_append]
    simp [callCount.inParts, callCount_exportsProperty]
  | cons i below ih =>
    have inside : ∀ (parts : List Tree) (i : Nat), callCount.inParts
        (parts.modify i fun p => p.changeAt (withExports names) below) =
          callCount.inParts parts := by
      intro parts
      induction parts with
      | nil => simp
      | cons p ps others =>
        intro i
        cases i with
        | zero => simp [callCount.inParts, ih]
        | succ i => simp [callCount.inParts, others]
    rw [Tree.changeAt_cons, callCount_eq, callCount_eq t, Tree.parts_withParts, inside]
    rfl

/-- Names that routes receive are no calls. -/
theorem callCount_carryOut (plan : Plan) (t : Tree) :
    callCount (plan.carryOut t) = callCount t := by
  induction plan generalizing t with
  | nil => rfl
  | cons a rest ih => exact (ih _).trans (callCount_changeAt a.names t a.address)

theorem shape_carryOut (plan : Plan) (t : Tree) : (plan.carryOut t).shape = t.shape := by
  induction plan generalizing t with
  | nil => rfl
  | cons a rest ih =>
    have first : (t.changeAt (withExports a.names) a.address).shape = t.shape := by
      cases a.address with
      | nil => rfl
      | cons i below => rfl
    exact (ih _).trans first

/-- What is left to visit behind a node holds fewer calls, or as many in fewer nodes. -/
theorem Setting.arrive_smaller {s : Setting} {bindings : List Binding} {linked : Bool}
    {t t' : Tree} {w w' : Walk} (h : s.arrive bindings linked t w = (some t', w')) :
    callCount.inParts t'.parts < callCount t ∨
      callCount.inParts t'.parts = callCount t ∧ Tree.size.sizes t'.parts < t.size := by
  have itself : callCount.inParts t.parts < callCount t ∨
      callCount.inParts t.parts = callCount t ∧ Tree.size.sizes t.parts < t.size := by
    have := callCount_eq t
    have := t.size_eq
    omega
  unfold arrive at h
  split at h
  · rename_i call
    split at h
    · cases h
    · split at h
      · split at h
        · rename_i plan session planned
          cases h
          -- the call itself is left behind
          have whole := callCount_carryOut plan t
          have own : isCall (plan.carryOut t) = true := by
            rw [isCall, shape_carryOut]
            exact (Bool.and_eq_true _ _ ▸ call).2
          rw [callCount_eq, own, Bool.toNat_true] at whole
          omega
        · cases h
      · cases h
        exact itself
  · cases h
    exact itself

namespace Setting

mutual

/-- The tree after a walk over it, and what the walk carries on. -/
def visit (s : Setting) (bindings : List Binding) (linked : Bool) (t : Tree) (w : Walk) :
    Tree × Walk :=
  match _arrived : s.arrive bindings linked t w with
  | (none, w) => (t, w)
  | (some t', w) =>
    let (parts, w) := visitAll s bindings (t'.shape matches .optionalChain _) t'.parts w
    (t'.withParts parts, w)
termination_by (callCount t, t.size, 0)
decreasing_by
  rcases arrive_smaller _arrived with fewer | ⟨same, smaller⟩
  · exact Prod.Lex.left _ _ fewer
  · rw [same]
    exact Prod.Lex.right _ (Prod.Lex.left _ _ smaller)

/-- Trees visited one after another. -/
def visitAll (s : Setting) (bindings : List Binding) (linked : Bool) (ts : List Tree) (w : Walk) :
    List Tree × Walk :=
  match ts with
  | [] => ([], w)
  | t :: rest =>
    let (first, w) := visit s bindings linked t w
    let (others, w) := visitAll s bindings linked rest w
    (first :: others, w)
termination_by (callCount.inParts ts, Tree.size.sizes ts, 1)
decreasing_by
  all_goals
    have := t.size_pos
    simp only [Prod.lex_def, callCount.inParts, Tree.size.sizes]
    omega

end

theorem visit_of_left {s : Setting} {bindings : List Binding} {linked : Bool} {t : Tree}
    {w w' : Walk} (h : s.arrive bindings linked t w = (none, w')) :
    s.visit bindings linked t w = (t, w') := by
  rw [visit]
  split
  · rename_i same
    cases h.symm.trans same
    rfl
  · rename_i same
    cases h.symm.trans same

theorem visit_of_entered {s : Setting} {bindings : List Binding} {linked : Bool} {t t' : Tree}
    {w w' : Walk} (h : s.arrive bindings linked t w = (some t', w')) :
    s.visit bindings linked t w =
      (t'.withParts
          (s.visitAll bindings (t'.shape matches .optionalChain _) t'.parts w').1,
        (s.visitAll bindings (t'.shape matches .optionalChain _) t'.parts w').2) := by
  rw [visit]
  split
  · rename_i same
    cases h.symm.trans same
  · rename_i same
    cases h.symm.trans same
    rfl

theorem visitAll_cons (s : Setting) (bindings : List Binding) (linked : Bool) (t : Tree)
    (rest : List Tree) (w : Walk) :
    s.visitAll bindings linked (t :: rest) w =
      let (first, w) := s.visit bindings linked t w
      let (others, w) := s.visitAll bindings linked rest w
      (first :: others, w) := by
  rw [visitAll]

theorem arrive_of_noted {s : Setting} {bindings : List Binding} {linked : Bool} {t : Tree}
    {w : Walk} (noted : w.fault.isSome = true) :
    s.arrive bindings linked t w = (none, w) ∨ s.arrive bindings linked t w = (some t, w) := by
  unfold arrive
  split
  · exact Or.inl rfl
  · exact Or.inr rfl

theorem visitAll_of_each {s : Setting} {bindings : List Binding} {linked : Bool} {w : Walk}
    {ts : List Tree} (each : ∀ t ∈ ts, s.visit bindings linked t w = (t, w)) :
    s.visitAll bindings linked ts w = (ts, w) := by
  induction ts with
  | nil => rw [visitAll]
  | cons t rest ih =>
    rw [List.forall_mem_cons] at each
    rw [visitAll_cons, each.1]
    dsimp only
    rw [ih each.2]

/-- Once a fault is noted, nothing changes any more. -/
theorem visit_of_noted {s : Setting} {bindings : List Binding} {w : Walk}
    (noted : w.fault.isSome = true) (linked : Bool) (t : Tree) :
    s.visit bindings linked t w = (t, w) := by
  induction t using Tree.parts_induction generalizing linked with
  | step t ih =>
    rcases arrive_of_noted (s := s) (t := t) noted with left | entered
    · exact visit_of_left left
    · rw [visit_of_entered entered, visitAll_of_each fun p member => ih p member _,
        Tree.withParts_parts]

/-- The fault of a call by itself. -/
def callFault? (s : Setting) (c : Call) : Option (Halt CompileError) := errorOf? (s.callPlan c.call)

/-- What is left of a walk after it came to calls, one after another. -/
def walkOf (s : Setting) : List Call → Session → Walk
  | [], session => ⟨session, none⟩
  | c :: rest, session =>
    match s.planCall c.call session with
    | (.ok _, session) => s.walkOf rest session
    | (.error halt, session) => ⟨session, some halt⟩

/-- The plans for the calls before the first that fails. -/
def plansUntil (s : Setting) : List Call → Plan
  | [] => []
  | c :: rest =>
    match s.callPlan c.call with
    | .ok plan => Plan.below c.address plan ++ s.plansUntil rest
    | .error _ => []

theorem walkOf_append (s : Setting) (first rest : List Call) (session : Session) :
    s.walkOf (first ++ rest) session =
      match s.walkOf first session with
      | ⟨session, none⟩ => s.walkOf rest session
      | w => w := by
  induction first generalizing session with
  | nil => rfl
  | cons c others ih =>
    rw [List.cons_append, walkOf, walkOf]
    cases s.planCall c.call session with
    | mk result left =>
      cases result with
      | ok plan => exact ih left
      | error halt => rfl

theorem walkOf_map_below (s : Setting) (outer : Address) (calls : List Call) (session : Session) :
    s.walkOf (calls.map (Call.below outer)) session = s.walkOf calls session := by
  induction calls generalizing session with
  | nil => rfl
  | cons c rest ih =>
    rw [List.map_cons, walkOf, walkOf]
    simp only [Call.below, ih]

theorem plansUntil_map_below (s : Setting) (outer : Address) (calls : List Call) :
    s.plansUntil (calls.map (Call.below outer)) = Plan.below outer (s.plansUntil calls) := by
  induction calls with
  | nil => rfl
  | cons c rest ih =>
    rw [List.map_cons, plansUntil, plansUntil]
    simp only [Call.below]
    cases s.callPlan c.call with
    | error halt => rfl
    | ok plan => simp only [ih, Plan.below_append, Plan.below_below]

theorem walkOf_eq (s : Setting) (calls : List Call) (session : Session) :
    s.walkOf calls session =
      ⟨(s.planCalls calls session).2, errorOf? (s.planCalls calls session).1⟩ := by
  induction calls generalizing session with
  | nil => rfl
  | cons c rest ih =>
    have steps : s.planCalls (c :: rest) session =
        (s.planCall c.call >>= fun plan =>
          (do return Plan.below c.address plan ++ (← s.planCalls rest) : Work _ _)) session := rfl
    rw [steps, Work.run_bind, walkOf]
    cases s.planCall c.call session with
    | mk result left =>
      cases result with
      | error halt => rfl
      | ok plan =>
        dsimp only
        rw [ih, Work.run_bind]
        cases s.planCalls rest left with
        | mk result left =>
          cases result with
          | ok others => rfl
          | error halt => rfl

/-- A walk comes to calls with the same faults as planning does, and goes on in a sound session. -/
theorem walkOf_sound (s : Setting) (calls : List Call) {session : Session}
    (sound : session.cache.Sound s.project) :
    (s.walkOf calls session).fault = calls.findSome? s.callFault? ∧
      (s.walkOf calls session).session.cache.Sound s.project := by
  induction calls generalizing session with
  | nil => exact ⟨rfl, sound⟩
  | cons c rest ih =>
    obtain ⟨said, kept⟩ := s.answers_planCall c.call session sound
    rw [walkOf, List.findSome?_cons, callFault?]
    cases step : s.planCall c.call session with
    | mk result left =>
      rw [step] at said kept
      rw [← said]
      cases result with
      | ok plan => exact ih kept
      | error halt => exact ⟨rfl, kept⟩

theorem plansUntil_append (s : Setting) (first rest : List Call) :
    s.plansUntil (first ++ rest) =
      match first.findSome? s.callFault? with
      | none => s.plansUntil first ++ s.plansUntil rest
      | some _ => s.plansUntil first := by
  induction first with
  | nil => rfl
  | cons c others ih =>
    rw [List.cons_append, plansUntil, plansUntil, List.findSome?_cons, callFault?]
    cases s.callPlan c.call with
    | error halt => rfl
    | ok plan =>
      simp only [ih, errorOf?]
      cases others.findSome? s.callFault? with
      | none => exact (List.append_assoc _ _ _).symm
      | some halt => rfl

/-- A walk goes into the parts of what is no call of a binding. -/
theorem arrive_of_unbound {s : Setting} {bindings : List Binding} {linked : Bool} {t : Tree}
    (unbound : ¬ (!linked && isCallOf bindings t) = true) (session : Session) :
    s.arrive bindings linked t ⟨session, none⟩ = (some t, ⟨session, none⟩) := by
  unfold arrive
  split
  · rename_i call
    have other : ¬ isCallOf bindings t = true := fun bound =>
      unbound (Bool.and_eq_true_iff.mpr ⟨(Bool.and_eq_true_iff.mp call).1, bound⟩)
    rw [if_neg other]
    rfl
  · rfl

/-- At a call of a binding, a walk does as planning for the call does. -/
theorem arrive_of_bound {s : Setting} {bindings : List Binding} {linked : Bool} {t : Tree}
    (bound : (!linked && isCallOf bindings t) = true) (session : Session) :
    s.arrive bindings linked t ⟨session, none⟩ =
      match s.planCall t session with
      | (.ok plan, session) => (some (plan.carryOut t), ⟨session, none⟩)
      | (.error halt, session) => (none, ⟨session, some halt⟩) := by
  obtain ⟨free, isCallOf⟩ := Bool.and_eq_true_iff.mp bound
  have call : (!linked && isCall t) = true := by
    rw [free, isCall, (isCallOf_iff.mp isCallOf).1]
    rfl
  rw [arrive, if_pos call, if_pos isCallOf]
  rfl

/-- What a walk over a tree does: it comes to the calls in it one after another. -/
def Visits (s : Setting) (bindings : List Binding) (linked : Bool) (t : Tree) : Prop :=
  ∀ session : Session, session.cache.Sound s.project →
    s.visit bindings linked t ⟨session, none⟩ =
      ((s.plansUntil (callsIn bindings [] linked t)).carryOut t,
        s.walkOf (callsIn bindings [] linked t) session)

theorem visitAll_eq {s : Setting} {bindings : List Binding} {linked : Bool} {ts : List Tree}
    (each : ∀ t ∈ ts, s.Visits bindings linked t) {session : Session}
    (sound : session.cache.Sound s.project) (u : Tree) (before : List Tree) :
    ∃ ts', s.visitAll bindings linked ts ⟨session, none⟩ =
        (ts', s.walkOf (callsIn.inParts bindings [] linked before.length ts) session) ∧
      (s.plansUntil (callsIn.inParts bindings [] linked before.length ts)).carryOut
        (u.withParts (before ++ ts)) = u.withParts (before ++ ts') := by
  induction ts generalizing session before with
  | nil => exact ⟨[], by rw [visitAll]; rfl, rfl⟩
  | cons t rest ih =>
    rw [List.forall_mem_cons] at each
    obtain ⟨first, others⟩ := each
    have own : callsIn bindings [before.length] linked t =
        (callsIn bindings [] linked t).map (Call.below [before.length]) :=
      callsIn_map_below bindings [before.length] [] linked t
    obtain ⟨fault, kept⟩ := s.walkOf_sound (callsIn bindings [] linked t) sound
    have faults : ((callsIn bindings [] linked t).map (Call.below [before.length])).findSome?
        s.callFault? = (callsIn bindings [] linked t).findSome? s.callFault? :=
      List.findSome?_map
    rw [visitAll_cons, first session sound, callsIn.inParts, List.nil_append, own, walkOf_append,
      walkOf_map_below, plansUntil_append, plansUntil_map_below, faults]
    cases walked : s.walkOf (callsIn bindings [] linked t) session with
    | mk left noted =>
      rw [walked] at fault kept
      rw [← fault]
      cases noted with
      | none =>
        obtain ⟨parts, ran, made⟩ := ih others kept
          (before ++ [(s.plansUntil (callsIn bindings [] linked t)).carryOut t])
        rw [List.length_append, List.length_singleton] at ran made
        refine ⟨(s.plansUntil (callsIn bindings [] linked t)).carryOut t :: parts, ?_, ?_⟩
        · dsimp only
          rw [ran]
        · dsimp only
          have first : (Plan.below [before.length]
              (s.plansUntil (callsIn bindings [] linked t))).carryOut
                (u.withParts (before ++ t :: rest)) =
              u.withParts
                (before ++ (s.plansUntil (callsIn bindings [] linked t)).carryOut t :: rest) :=
            carryOut_below_part _ u.shape u.span before t rest
          rw [Plan.carryOut_append]
          refine (congrArg _ first).trans ?_
          simpa using made
      | some halt =>
        have still : ∀ p ∈ rest, s.visit bindings linked p ⟨left, some halt⟩ =
            (p, ⟨left, some halt⟩) := fun p _ => visit_of_noted rfl linked p
        refine ⟨(s.plansUntil (callsIn bindings [] linked t)).carryOut t :: rest, ?_, ?_⟩
        · dsimp only
          rw [visitAll_of_each still]
        · exact carryOut_below_part _ u.shape u.span before t rest

/-- The parts of a tree are visited with the plan for all calls in them. -/
theorem visitAll_parts {s : Setting} {bindings : List Binding} {linked : Bool} {t : Tree}
    (each : ∀ p ∈ t.parts, s.Visits bindings linked p) {session : Session}
    (sound : session.cache.Sound s.project) :
    ∃ parts, s.visitAll bindings linked t.parts ⟨session, none⟩ =
        (parts, s.walkOf (callsIn.inParts bindings [] linked 0 t.parts) session) ∧
      (s.plansUntil (callsIn.inParts bindings [] linked 0 t.parts)).carryOut t =
        t.withParts parts := by
  have run := visitAll_eq each sound t []
  rwa [List.length_nil, List.nil_append, Tree.withParts_parts] at run

/-- What is left to visit behind the calls of a tree comes to an end. -/
theorem callCount_induction {motive : Tree → Prop}
    (step : ∀ t, (∀ t', callCount t' < callCount t ∨ callCount t' = callCount t ∧
      t'.size < t.size → motive t') → motive t) (t : Tree) : motive t := by
  induction count : callCount t using Nat.strongRecOn generalizing t with
  | ind n fewer =>
    induction size : t.size using Nat.strongRecOn generalizing t with
    | ind k smaller =>
      refine step t fun t' before => ?_
      rcases before with less | ⟨same, less⟩
      · exact fewer (callCount t') (by omega) t' rfl
      · exact smaller t'.size (by omega) t' (by omega) rfl

theorem callCount_le_of_mem {t : Tree} {ts : List Tree} (h : t ∈ ts) :
    callCount t ≤ callCount.inParts ts ∧ t.size ≤ Tree.size.sizes ts := by
  induction ts with
  | nil => cases h
  | cons first rest ih =>
    rw [callCount.inParts, Tree.size.sizes]
    rcases List.mem_cons.mp h with rfl | inside
    · omega
    · have := ih inside
      omega

theorem visits (s : Setting) (bindings : List Binding) (linked : Bool) (t : Tree) :
    s.Visits bindings linked t := by
  induction t using callCount_induction generalizing linked with
  | step t ih =>
    intro session sound
    have onward : ∀ {t' : Tree} {w : Walk},
        s.arrive bindings linked t ⟨session, none⟩ = (some t', w) →
          ∀ p ∈ t'.parts, ∀ linked, s.Visits bindings linked p := by
      intro t' w entered p member linked
      have less := arrive_smaller entered
      have := callCount_le_of_mem member
      exact ih p (by omega) linked
    by_cases bound : (!linked && isCallOf bindings t) = true
    · rw [callsIn_eq, if_pos bound, List.singleton_append, walkOf, plansUntil]
      have arrived := arrive_of_bound (s := s) bound session
      obtain ⟨said, kept⟩ := s.answers_planCall t session sound
      cases step : s.planCall t session with
      | mk result left =>
        rw [step] at arrived said kept
        dsimp only at arrived said kept ⊢
        rw [← said]
        cases result with
        | error halt => exact visit_of_left arrived
        | ok plan =>
          obtain ⟨parts, ran, made⟩ := visitAll_parts
            (fun p member => onward arrived p member (t.shape matches .optionalChain _)) kept
          have same := inParts_carryOut_callPlan said.symm bindings []
            (t.shape matches .optionalChain _)
          rw [same] at ran made
          rewrite [visit_of_entered arrived, shape_carryOut, ran, ← made, Plan.carryOut_append,
            Plan.below_nil]
          rfl
    · have entered := arrive_of_unbound (s := s) bound session
      obtain ⟨parts, ran, made⟩ := visitAll_parts
        (fun p member => onward entered p member (t.shape matches .optionalChain _)) sound
      rewrite [visit_of_entered entered, ran, callsIn_eq, if_neg bound, List.nil_append, ← made]
      rfl

end Setting

end RouteManifest.Routes
