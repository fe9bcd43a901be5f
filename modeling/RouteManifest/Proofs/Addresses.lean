import RouteManifest.Routes.Plan

/-!
# Changes at addresses

How changes of a tree at addresses come together, and with them the parts of a plan: a plan for a
part of a tree, moved below the address of the part, is a change of that part and of nothing else.
-/

namespace RouteManifest.Script.Tree

theorem size_lt_of_mem_parts {t p : Tree} (h : p ∈ t.parts) : p.size < t.size := by
  have inside : ∀ ps : List Tree, p ∈ ps → p.size ≤ size.sizes ps := by
    intro ps member
    induction ps with
    | nil => cases member
    | cons q qs ih =>
      rw [size.sizes]
      rcases List.mem_cons.mp member with rfl | member
      · omega
      · have := ih member
        omega
  have := inside t.parts h
  rw [t.size_eq]
  omega

/-- What holds of a tree once it holds of its parts holds of every tree. -/
theorem parts_induction {motive : Tree → Prop}
    (step : ∀ t : Tree, (∀ p ∈ t.parts, motive p) → motive t) (t : Tree) : motive t := by
  induction size : t.size using Nat.strongRecOn generalizing t with
  | ind n ih =>
    refine step t fun p member => ih p.size ?_ p rfl
    have := size_lt_of_mem_parts member
    omega

theorem part_eq_of_getElem? {t p : Tree} {i : Nat} (h : t.parts[i]? = some p) : t.part i = p := by
  simp [part, List.getD, h]

theorem part_eq_absent {t : Tree} {i : Nat} (h : t.parts[i]? = none) : t.part i = absent := by
  simp [part, List.getD, h]

/-- A part is there if anything else than nothing is seen in its place. -/
theorem getElem?_parts {t : Tree} {i : Nat} (h : t.part i ≠ absent) :
    t.parts[i]? = some (t.part i) := by
  cases there : t.parts[i]? with
  | none => exact absurd (part_eq_absent there) h
  | some p => rw [part_eq_of_getElem? there]

theorem at?_cons (t : Tree) (i : Nat) (below : Address) :
    t.at? (i :: below) = t.parts[i]?.bind fun p => p.at? below := rfl

theorem at?_append (t : Tree) (a b : Address) :
    t.at? (a ++ b) = (t.at? a).bind fun u => u.at? b := by
  induction a generalizing t with
  | nil => rfl
  | cons i a ih =>
    simp only [List.cons_append, at?_cons, Option.bind_assoc]
    congr 1
    funext p
    exact ih p

@[simp] theorem shape_node (shape : Shape) (span : Span) (parts : List Tree) :
    (node shape span parts).shape = shape := rfl

@[simp] theorem span_node (shape : Shape) (span : Span) (parts : List Tree) :
    (node shape span parts).span = span := rfl

@[simp] theorem parts_node (shape : Shape) (span : Span) (parts : List Tree) :
    (node shape span parts).parts = parts := rfl

@[simp] theorem shape_withParts (t : Tree) (parts : List Tree) :
    (t.withParts parts).shape = t.shape := rfl

@[simp] theorem span_withParts (t : Tree) (parts : List Tree) :
    (t.withParts parts).span = t.span := rfl

@[simp] theorem parts_withParts (t : Tree) (parts : List Tree) :
    (t.withParts parts).parts = parts := rfl

@[simp] theorem withParts_parts (t : Tree) : t.withParts t.parts = t := by
  cases t
  rfl

@[simp] theorem withParts_withParts (t : Tree) (before after : List Tree) :
    (t.withParts before).withParts after = t.withParts after := rfl

theorem changeAt_cons (t : Tree) (change : Tree → Tree) (i : Nat) (below : Address) :
    t.changeAt change (i :: below) =
      t.withParts (t.parts.modify i fun p => p.changeAt change below) := rfl

/-- A change inside one part of a node, with the parts around it in sight. -/
theorem changeAt_part (shape : Shape) (span : Span) (before : List Tree) (part : Tree)
    (after : List Tree) (change : Tree → Tree) (below : Address) :
    (node shape span (before ++ part :: after)).changeAt change (before.length :: below) =
      node shape span (before ++ part.changeAt change below :: after) := by
  have inside : ((before ++ part :: after).modify before.length fun p => p.changeAt change below) =
      before ++ part.changeAt change below :: after :=
    List.modifyTailIdx_add (List.modifyHead _) 0 before (part :: after)
  exact congrArg (node shape span) inside

theorem changeAt_append (t : Tree) (change : Tree → Tree) (a b : Address) :
    t.changeAt change (a ++ b) = t.changeAt (fun u => u.changeAt change b) a := by
  induction a generalizing t with
  | nil => rfl
  | cons i a ih => simp only [List.cons_append, changeAt_cons, ih]

theorem changeAt_changeAt (t : Tree) (first second : Tree → Tree) (a : Address) :
    (t.changeAt first a).changeAt second a = t.changeAt (fun u => second (first u)) a := by
  induction a generalizing t with
  | nil => rfl
  | cons i a ih =>
    simp only [changeAt_cons, parts_withParts, withParts_withParts, List.modify_modify_eq]
    congr 2
    funext p
    exact ih p

theorem changeAt_id (t : Tree) (a : Address) : t.changeAt (fun u => u) a = t := by
  induction a generalizing t with
  | nil => rfl
  | cons i a ih =>
    have same : (fun p : Tree => p.changeAt (fun u => u) a) = id := funext ih
    rw [changeAt_cons, same, List.modify_id, withParts_parts]

end RouteManifest.Script.Tree

namespace RouteManifest.Routes.Plan

open Script

theorem carryOut_append (first second : Plan) (t : Tree) :
    carryOut (first ++ second) t = carryOut second (carryOut first t) :=
  List.foldl_append

theorem below_append (address : Address) (first second : Plan) :
    below address (first ++ second) = below address first ++ below address second :=
  List.map_append

theorem below_below (outer inner : Address) (plan : Plan) :
    below outer (below inner plan) = below (outer ++ inner) plan := by
  simp [below]

theorem below_nil (plan : Plan) : below [] plan = plan := by
  simp [below]

/-- A plan that was moved below an address changes only what stands there. -/
theorem carryOut_below (address : Address) (plan : Plan) (t : Tree) :
    carryOut (below address plan) t = t.changeAt plan.carryOut address := by
  induction plan generalizing t with
  | nil => exact (t.changeAt_id address).symm
  | cons a rest ih =>
    calc carryOut (below address (a :: rest)) t
      _ = carryOut (below address rest)
            (t.changeAt (withExports a.names) (address ++ a.address)) := rfl
      _ = (t.changeAt (withExports a.names) (address ++ a.address)).changeAt
            (carryOut rest) address := ih _
      _ = t.changeAt (carryOut (a :: rest)) address := by
        rw [Tree.changeAt_append, Tree.changeAt_changeAt]
        rfl

end RouteManifest.Routes.Plan
