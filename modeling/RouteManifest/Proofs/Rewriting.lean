import RouteManifest.Proofs.Worklist

/-!
# Plans carried out

Carrying out the plan for an array rewrites the array as the recursion does. An addition at an
address stays good while other additions are made, since they are made behind the parts that
addresses count. With the recursion in place of the stack, this gives the main statement: planning
in a fresh session and carrying out the plan is rewriting by recursion.
-/

namespace RouteManifest.Routes

open Script

theorem receive_node (names : Option (List String)) (shape : Shape) (span : Span)
    (properties : List Tree) :
    receive names (.node shape span properties) =
      .node shape span (properties ++ names.toList.map exportsProperty) := by
  cases names with
  | none => simp [receive]
  | some names => rfl

theorem carryOut_additions (shape : Shape) (span : Span) (before : List Tree)
    (level : List (Option (List String))) (elements : List Tree)
    (same : level.length = elements.length) :
    (additions before.length level).carryOut (.node shape span (before ++ elements)) =
      .node shape span (before ++ List.zipWith receive level elements) := by
  induction level generalizing before elements with
  | nil =>
    cases elements with
    | nil => rfl
    | cons element rest => cases same
  | cons names level ih =>
    cases elements with
    | nil => cases same
    | cons element rest =>
      have own : Plan.carryOut (names.toList.map (⟨[before.length], ·⟩))
          (.node shape span (before ++ element :: rest)) =
          .node shape span (before ++ receive names element :: rest) := by
        cases names with
        | none => rfl
        | some names => exact Tree.changeAt_part shape span before element rest _ []
      have others := ih (before ++ [receive names element]) rest (by simpa using same)
      rw [additions, Plan.carryOut_append, own]
      simpa using others

namespace Setting

theorem carryOut_below_part (plan : Plan) (shape : Shape) (span : Span) (before : List Tree)
    (part : Tree) (after : List Tree) :
    (Plan.below [before.length] plan).carryOut (.node shape span (before ++ part :: after)) =
      .node shape span (before ++ plan.carryOut part :: after) := by
  rw [Plan.carryOut_below, Tree.changeAt_part]
  rfl

theorem planProperty_of_value?_eq_none (s : Setting) {property : Tree}
    (bare : value? property = none) : s.planProperty property = pure [] := by
  unfold planProperty
  split
  · cases bare
  · rfl

theorem rewrittenProperty_of_value?_eq_none (s : Setting) {property : Tree}
    (bare : value? property = none) : s.rewrittenProperty property = pure property := by
  unfold rewrittenProperty
  split
  · cases bare
  · rfl

mutual

theorem agree_rewritten (s : Setting) : ∀ array : Tree,
    Agree (fun plan tree => Plan.carryOut plan array = tree) (s.planArray array) (s.rewritten array)
  | .node shape span elements => by
    rw [planArray, rewritten]
    cases looked : elements.mapM (s.received (.node shape span elements)) with
    | error e => exact .error e
    | ok level =>
      have same := length_of_mapM_eq_ok looked
      refine (agree_rewrittenBelow s shape span [] level elements same).bind fun plan below h => ?_
      refine .pure ?_
      rw [Plan.carryOut_append]
      exact (congrArg _ (carryOut_additions shape span [] level elements same)).trans h

theorem agree_rewrittenBelow (s : Setting) (shape : Shape) (span : Span) (before : List Tree)
    (level : List (Option (List String))) : ∀ elements : List Tree,
    level.length = elements.length →
    Agree (fun plan below =>
        Plan.carryOut plan (.node shape span (before ++ List.zipWith receive level elements)) =
          .node shape span (before ++ List.zipWith receive level below))
      (s.planBelow before.length elements) (s.rewrittenBelow elements)
  | [], _ => by
    rw [planBelow, rewrittenBelow]
    exact .pure (by simp [Plan.carryOut])
  | .node own place properties :: rest, same => by
    rw [planBelow, rewrittenBelow]
    cases level with
    | nil => cases same
    | cons names level =>
      have inside := agree_rewrittenProperties s own place []
        (names.toList.map exportsProperty) properties
      refine inside.bind fun first properties' h => ?_
      have others := agree_rewrittenBelow s shape span
        (before ++ [receive names (.node own place properties')]) level rest (by simpa using same)
      rw [List.length_append, List.length_singleton] at others
      refine others.bind fun plan below h' => .pure ?_
      have inner : Plan.carryOut first (receive names (.node own place properties)) =
          receive names (.node own place properties') := by
        rw [receive_node, receive_node]
        exact h
      rw [List.zipWith_cons_cons, Plan.carryOut_append, carryOut_below_part, inner]
      simpa using h'

theorem agree_rewrittenProperties (s : Setting) (shape : Shape) (span : Span)
    (before after : List Tree) : ∀ properties : List Tree,
    Agree (fun plan rewritten =>
        Plan.carryOut plan (.node shape span (before ++ properties ++ after)) =
          .node shape span (before ++ rewritten ++ after))
      (s.planProperties before.length properties) (s.rewrittenProperties properties)
  | [] => by
    rw [planProperties, rewrittenProperties]
    exact .pure rfl
  | property :: rest => by
    rw [planProperties, rewrittenProperties]
    refine (agree_rewrittenProperty s property).bind fun first property' h => ?_
    have others := agree_rewrittenProperties s shape span (before ++ [property']) after rest
    rw [List.length_append, List.length_singleton] at others
    refine others.bind fun plan rewritten h' => .pure ?_
    have split : before ++ property :: rest ++ after = before ++ property :: (rest ++ after) := by
      simp
    rw [Plan.carryOut_append, split, carryOut_below_part, h]
    simpa using h'

theorem agree_rewrittenProperty (s : Setting) : ∀ property : Tree,
    Agree (fun plan tree => Plan.carryOut plan property = tree)
      (s.planProperty property) (s.rewrittenProperty property)
  | .node shape span parts => by
    rcases keyValue_or_value?_eq_none (.node shape span parts) with ⟨_, key, value, same⟩ | bare
    · cases same
      rw [planProperty, rewrittenProperty]
      split
      · refine (agree_rewritten s value).bind fun plan value' h => .pure ?_
        rw [← h]
        exact carryOut_below_part plan .keyValue span [key] value []
      · exact .pure rfl
    · rw [planProperty_of_value?_eq_none s bare, rewrittenProperty_of_value?_eq_none s bare]
      exact .pure rfl

end

/-- Work on the stack, with a cache that is empty at first, rewrites an array of routes as the
recursion without either does: it ends with the same tree or with the same fault. -/
theorem plan_carryOut_eq_rewritten (s : Setting) (array : Tree) :
    ((s.plan array).run.run Session.fresh).1.map (fun plan => plan.carryOut array) =
      s.rewritten array := by
  rw [(s.answers_plan array).run_fresh]
  exact (s.agree_rewritten array).map_eq

end Setting

end RouteManifest.Routes
