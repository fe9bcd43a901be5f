import RouteManifest.Proofs.Frame

/-!
# Calls inside calls

What becomes of the calls of a tree when the tree is a part of another, and when the routes of the
outermost of them receive their export names: the calls inside it are the same calls at the same
addresses, in the same order, and none of them changes.
-/

namespace RouteManifest.Routes

open Script

/-- The same call seen from further up. -/
def Call.below (outer : Address) (c : Call) : Call := { c with address := outer ++ c.address }

theorem callsIn_eq (bindings : List Binding) (address : Address) (linked : Bool) (t : Tree) :
    callsIn bindings address linked t =
      (if !linked && isCallOf bindings t then [⟨address, t⟩] else []) ++
        callsIn.inParts bindings address (t.shape matches .optionalChain _) 0 t.parts := by
  obtain ⟨shape, span, parts⟩ := t
  exact callsIn_node bindings address linked shape span parts

theorem inParts_append (bindings : List Binding) (address : Address) (linked : Bool) (i : Nat)
    (first second : List Tree) :
    callsIn.inParts bindings address linked i (first ++ second) =
      callsIn.inParts bindings address linked i first ++
        callsIn.inParts bindings address linked (i + first.length) second := by
  induction first generalizing i with
  | nil => rfl
  | cons p ps ih =>
    rw [List.cons_append, callsIn.inParts, callsIn.inParts, ih, List.append_assoc,
      List.length_cons, show i + 1 + ps.length = i + (ps.length + 1) by omega]

theorem inParts_map_below {bindings : List Binding} {outer address : Address} {linked : Bool}
    {i : Nat} {parts : List Tree}
    (each : ∀ p ∈ parts, ∀ address linked, callsIn bindings (outer ++ address) linked p =
      (callsIn bindings address linked p).map (Call.below outer)) :
    callsIn.inParts bindings (outer ++ address) linked i parts =
      (callsIn.inParts bindings address linked i parts).map (Call.below outer) := by
  induction parts generalizing i with
  | nil => rfl
  | cons p ps ih =>
    rw [List.forall_mem_cons] at each
    rw [callsIn.inParts, callsIn.inParts, List.map_append, ih each.2, List.append_assoc, each.1]

theorem callsIn_map_below (bindings : List Binding) (outer address : Address) (linked : Bool)
    (t : Tree) :
    callsIn bindings (outer ++ address) linked t =
      (callsIn bindings address linked t).map (Call.below outer) := by
  induction t using Tree.parts_induction generalizing address linked with
  | step t ih =>
    rw [callsIn_eq, callsIn_eq, List.map_append, inParts_map_below ih]
    congr 1
    split
    · rfl
    · rfl

/-- Properties for export names hold no calls. -/
theorem callsIn_exportsProperty (bindings : List Binding) (address : Address) (linked : Bool)
    (names : List String) : callsIn bindings address linked (exportsProperty names) = [] := by
  have literals : ∀ (address : Address) (linked : Bool) (i : Nat),
      callsIn.inParts bindings address linked i
        (names.map fun name => .node (.stringLit name none) .nowhere []) = [] := by
    intro address linked i
    induction names generalizing i with
    | nil => rfl
    | cons name rest ih =>
      rw [List.map_cons, callsIn.inParts, ih, callsIn_node]
      simp [isCallOf, callsIn.inParts]
  simp [exportsProperty, callsIn_node, callsIn.inParts, isCallOf, literals]

theorem shape_extended (more : Address → List Tree) (t : Tree) :
    (t.extended more).shape = t.shape := by
  cases t
  rfl

/-- A node is a call of a binding whatever is added behind its parts, if that is no name. -/
theorem isCallOf_extended {bindings : List Binding} {more : Address → List Tree}
    (made : ∀ address, ∀ p ∈ more address, ∃ names, p = exportsProperty names) (t : Tree) :
    isCallOf bindings (t.extended more) = isCallOf bindings t := by
  have callee : Binding.of? ((t.extended more).part 0) = Binding.of? (t.part 0) := by
    rw [Tree.extended_eq]
    cases parts : t.parts with
    | cons p ps => simp [Tree.part, parts, Binding.of?, shape_extended]
    | nil =>
      cases added : more [] with
      | nil => simp [Tree.part, parts]
      | cons q qs =>
        obtain ⟨names, rfl⟩ := made [] q (by simp [added])
        simp [Tree.part, parts, exportsProperty, Binding.of?, Tree.absent]
  rw [isCallOf, isCallOf, shape_extended, callee]

theorem inParts_mapIdx {bindings : List Binding} {address : Address} {linked : Bool} {i : Nat}
    {parts : List Tree} {f : Nat → Tree → Tree}
    (same : ∀ k p, parts[k]? = some p → ∀ address,
      callsIn bindings address linked (f k p) = callsIn bindings address linked p) :
    callsIn.inParts bindings address linked i (parts.mapIdx f) =
      callsIn.inParts bindings address linked i parts := by
  induction parts generalizing i f with
  | nil => rfl
  | cons p ps ih =>
    have others := ih (i := i + 1) (f := fun k => f (k + 1)) fun k q there => same (k + 1) q there
    rw [List.mapIdx_cons, callsIn.inParts, callsIn.inParts, same 0 p rfl, others]

theorem inParts_eq_nil {bindings : List Binding} {address : Address} {linked : Bool} {i : Nat}
    {parts : List Tree} (made : ∀ p ∈ parts, ∃ names, p = exportsProperty names) :
    callsIn.inParts bindings address linked i parts = [] := by
  induction parts generalizing i with
  | nil => rfl
  | cons p ps ih =>
    rw [List.forall_mem_cons] at made
    obtain ⟨⟨names, rfl⟩, others⟩ := made
    rw [callsIn.inParts, callsIn_exportsProperty, ih others, List.append_nil]

/-- The calls inside a tree stay as they are when the tree is extended outside them. -/
theorem inParts_extended {bindings : List Binding} {more : Address → List Tree} {t : Tree}
    (made : ∀ address, ∀ p ∈ more address, ∃ names, p = exportsProperty names)
    (apart : ∀ i address u, t.at? (i :: address) = some u → isCallOf bindings u = true →
      ∀ below, more (i :: address ++ below) = []) (address : Address) (linked : Bool) :
    callsIn.inParts bindings address linked 0 (t.extended more).parts =
      callsIn.inParts bindings address linked 0 t.parts := by
  induction t using Tree.parts_induction generalizing more address linked with
  | step t ih =>
    rw [Tree.extended_eq, Tree.parts_withParts, inParts_append, inParts_eq_nil (made []),
      List.append_nil]
    refine inParts_mapIdx fun k p there address => ?_
    have found : ∀ below, t.at? (k :: below) = p.at? below := fun below => by
      rw [Tree.at?_cons, there, Option.bind_some]
    by_cases call : isCallOf bindings p = true
    · have nothing : (fun below => more (k :: below)) = fun _ => [] :=
        funext (apart k [] p (found []) call)
      rw [nothing, Tree.extended_nothing]
    · rw [callsIn_eq, callsIn_eq, isCallOf_extended (fun _ => made _), shape_extended,
        ih p (List.mem_of_getElem? there) (fun _ => made _)]
      · simp [call]
      · intro i below u inside isCall
        exact apart k (i :: below) u ((found _).trans inside) isCall

/-- No call of a binding stands inside another on the way to a route of it. -/
theorem no_call_on_the_way {bindings : List Binding} {call array route u : Tree} {i : Nat}
    {between inner below : Address} (arguments : (call.part 1).parts = [array])
    (isArray : array.shape = .arrayLit) (place : RouteAt array inner route)
    (way : 1 :: 0 :: inner = i :: between ++ below) (found : call.at? (i :: between) = some u) :
    isCallOf bindings u = false := by
  rw [Bool.eq_false_iff]
  intro isCall
  obtain ⟨shape, binding, bound, _⟩ := isCallOf_iff.mp isCall
  cases between with
  | nil =>
    -- the list of arguments is no call, since its first part is no name
    cases way
    rw [Tree.at?_cons, Option.bind_eq_some_iff] at found
    obtain ⟨_, inCall, same⟩ := found
    cases same
    rw [Tree.part_eq_of_getElem? inCall] at arguments
    have first : u.part 0 = array := Tree.part_eq_of_getElem? (by rw [arguments]; rfl)
    obtain ⟨_, name⟩ := of?_eq_some_iff.mp bound
    rw [first, isArray] at name
    cases name
  | cons j between =>
    cases way
    rw [at?_argument arguments] at found
    exact place.shape_ne_call isArray rfl found shape

/-- Planning for the routes of a call and carrying the plan out leaves the calls inside it as they
are. -/
theorem inParts_carryOut_callPlan {s : Setting} {call : Tree} {plan : Plan}
    (h : s.callPlan call = .ok plan) (bindings : List Binding) (address : Address)
    (linked : Bool) :
    callsIn.inParts bindings address linked 0 (plan.carryOut call).parts =
      callsIn.inParts bindings address linked 0 call.parts := by
  have there : ∀ a ∈ plan, call.at? a.address ≠ none := by
    rintro ⟨_, names⟩ member
    obtain ⟨array, inner, route, arguments, _, rfl, place, _⟩ :=
      (Setting.mem_callPlan_iff h).mp member
    rw [at?_argument arguments, place.at?_eq]
    exact Option.some_ne_none route
  rw [plan.carryOut_eq_extended call there]
  refine inParts_extended ?_ ?_ address linked
  · intro _ p member
    obtain ⟨a, _, rfl⟩ := List.mem_map.mp member
    exact ⟨a.names, rfl⟩
  · intro i between u found isCall below
    refine List.map_eq_nil_iff.mpr (List.filter_eq_nil_iff.mpr ?_)
    rintro ⟨_, names⟩ member same
    obtain ⟨array, inner, route, arguments, isArray, rfl, place, _⟩ :=
      (Setting.mem_callPlan_iff h).mp member
    have way := of_decide_eq_true same
    rw [no_call_on_the_way arguments isArray place way found] at isCall
    cases isCall

end RouteManifest.Routes
