import RouteManifest.Proofs.Addresses
import RouteManifest.Proofs.Places

/-!
# Levels and places

Resolving a tree gives every name the level of the scope that binds it among the scopes around its
place, and leaves everything else as it is.
-/

namespace RouteManifest.Script.Scope

namespace Place

/-- What a pass over the nodes that stand on their own makes of a node. -/
def pass (sub : Pass) : Place → Tree → Tree
  | plain env, t => sub env t
  | function known outer, f => functionNode sub outer known f
  | parameters known outer, t => t.withParts (Scope.parameters sub outer known t.parts).1
  | parameter known outer, p => (sub (known :: outer) p).setPart 0 (sub outer (p.part 0))
  | statements names outer, t => t.withParts (Scope.statements sub names outer t.parts)
  | clauses outer, t => t.withParts (cases sub outer [] t.parts)
  | clause known outer, c =>
    c.withParts [sub (known :: outer) (c.part 0),
      (c.part 1).withParts (Scope.statements sub (declaredByAll (c.part 1).parts ++ known) outer
        (c.part 1).parts)]
  | classBody own outer, c => (sub (own :: outer) c).setPart 2 (sub outer (c.part 2))
  | exported env, .node .functionExpr span [name, f] =>
    .node .functionExpr span [sub env name, functionNode sub env [] f]
  | exported env, t => t.withParts (t.parts.map (sub env))

/-- What a pass makes of a part with or without a place. -/
def turn (sub : Pass) : Option Place → Tree → Tree
  | some place, t => place.pass sub t
  | none, t => t

end Place

/-- The shape of a node with the level of its name, if it is one. -/
def levelled (env : Env) : Shape → Shape
  | .ident name _ isOptional => .ident name (level env name) isOptional
  | shape => shape

namespace Place

variable (sub : Pass) (env : Env)

@[simp] theorem turn_none (t : Tree) : turn sub none t = t := rfl

@[simp] theorem turn_some (place : Place) (t : Tree) :
    turn sub (some place) t = place.pass sub t := rfl

@[simp] theorem pass_plain (t : Tree) : (plain env).pass sub t = sub env t := rfl

@[simp] theorem pass_function (known : List String) (f : Tree) :
    (Place.function known env).pass sub f = functionNode sub env known f := rfl

@[simp] theorem turn_ofKey (k : Tree) : turn sub (ofKey env k) k = key sub env k := by
  unfold ofKey key
  exact apply_ite (fun place => turn sub place k) _ _ _

@[simp] theorem turn_ite (isComputed : Bool) (k : Tree) :
    turn sub (if isComputed then some (plain env) else none) k =
      if isComputed then sub env k else k := by
  cases isComputed with
  | true => rfl
  | false => rfl

theorem pass_ofBody (known : List String) (inner : Tree) :
    (ofBody known env inner).pass sub inner =
      if inner.shape matches .block then inner.withParts (body sub known env inner.parts)
      else sub (known :: env) inner := by
  unfold ofBody
  exact apply_ite (fun place : Place => place.pass sub inner) _ _ _

@[simp] theorem zipWith_turn_none (ps : List Tree) :
    List.zipWith (turn sub) (ps.map fun _ => none) ps = ps := by
  induction ps with
  | nil => rfl
  | cons p ps ih => simpa using ih

@[simp] theorem zipWith_turn_plain (ps : List Tree) :
    List.zipWith (turn sub) (ps.map fun _ => some (plain env)) ps = ps.map (sub env) := by
  induction ps with
  | nil => rfl
  | cons p ps ih => simpa using ih

end Place

theorem parameters_snd (sub : Pass) (outer : Env) (known : List String) (items : List Tree) :
    (parameters sub outer known items).2 = parameterNames known items items.length := by
  induction items generalizing known with
  | nil => rfl
  | cons p ps ih => exact ih _

theorem function_body (sub : Pass) (outer : Env) (known : List String) (items : List Tree)
    (inner : Tree) :
    (function sub outer known items inner).2.1 =
      (Place.ofBody (functionNames known items) outer inner).pass sub inner := by
  rw [Place.pass_ofBody, functionNames, ← parameters_snd sub outer]
  rfl

theorem function_env (sub : Pass) (outer : Env) (known : List String) (items : List Tree)
    (inner : Tree) :
    (function sub outer known items inner).2.2 = functionNames known items :: outer := by
  rw [functionNames, ← parameters_snd sub outer]
  rfl

theorem function_items (sub : Pass) (outer : Env) (known : List String) (items inner : Tree) :
    items.withParts (function sub outer known items.parts inner).1 =
      (Place.parameters (earlyNames items.parts ++ known) outer).pass sub items := rfl

theorem functionNode_eq (sub : Pass) (outer : Env) (known : List String) (f : Tree) :
    functionNode sub outer known f = f.withParts
      [(Place.parameters (earlyNames (f.part 0).parts ++ known) outer).pass sub (f.part 0),
        sub outer (f.part 1),
        (Place.ofBody (functionNames known (f.part 0).parts) outer (f.part 2)).pass sub (f.part 2),
        sub (functionNames known (f.part 0).parts :: outer) (f.part 3),
        sub (functionNames known (f.part 0).parts :: outer) (f.part 4)] := by
  rw [← function_body, ← function_env sub outer known _ (f.part 2),
    ← function_items _ _ _ _ (f.part 2)]
  rfl

theorem statements_eq (sub : Pass) (names : List String) (outer : Env) (items : List Tree) :
    statements sub names outer items = List.zipWith (Place.turn sub)
      (items.mapIdx fun i _ => some (.plain (statementNames names items i :: outer))) items := by
  induction items generalizing names with
  | nil => rfl
  | cons t ts ih =>
    rw [List.mapIdx_cons, List.zipWith_cons_cons, statements, ih]
    rfl

/-- What resolving makes of a node that stands on its own, by the places of its parts. -/
theorem resolveNode_eq (sub : Pass) (env : Env) (t : Tree)
    (h : ∀ flags, t.shape ≠ .function flags) :
    resolveNode sub env t = .node (levelled env t.shape) t.span
      (List.zipWith (Place.turn sub) (Place.ofParts env t) t.parts) := by
  unfold resolveNode
  -- one goal for each form of node, in which the places of its parts are those of that form
  split
  all_goals simp only [Place.ofParts, Tree.shape_node, Tree.span_node, Tree.parts_node, levelled,
    Place.zipWith_turn_none, Place.zipWith_turn_plain, List.zipWith_cons_cons,
    List.zipWith_nil_left, Place.turn_none, Place.turn_some, Place.pass_plain, Place.turn_ofKey,
    Place.turn_ite, function_items, function_body, function_env, List.append_nil,
    Place.pass_function, body, statements_eq]
  all_goals try rfl
  · exact absurd rfl (h _)
  · split
    · rfl
    · rfl

theorem resolveIn_succ (n : Nat) (env : Env) (t : Tree) (h : ∀ flags, t.shape ≠ .function flags) :
    resolveIn (n + 1) env t = .node (levelled env t.shape) t.span
      (List.zipWith (Place.turn (resolveIn n)) (Place.ofParts env t) t.parts) :=
  resolveNode_eq (resolveIn n) env t h

end RouteManifest.Script.Scope
