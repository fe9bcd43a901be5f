import Mathlib.Data.List.Forall2
import RouteManifest.Proofs.Equipping
import RouteManifest.Script.Names

/-!
# Names in equipped trees

Code binds the same names wherever it stands in a text, and whatever export names are added to the
routes in it: a property for export names binds nothing, and nothing that binds a name is an element
of an array. Which names a pattern binds and which a statement declares is told here by the shape of
a node and by its parts, as it is for the parts in turn.
-/

namespace RouteManifest.Script

/-- The name that a node is, by its shape. -/
theorem Tree.name?_eq (t : Tree) :
    t.name? = match t.shape.placeless with
      | .ident name _ _ => some name
      | _ => none := by
  obtain ⟨shape, span, parts⟩ := t
  cases shape with
  | _ => rfl

theorem name?_eq_of_alike {t u : Tree} (alike : u.shape.placeless = t.shape.placeless) :
    u.name? = t.name? := by
  rw [u.name?_eq, t.name?_eq, alike]

theorem ofAll_boundNames_eq (items : List Tree) :
    boundNames.ofAll items = items.flatMap boundNames := by
  induction items with
  | nil => rfl
  | cons t ts ih => rw [boundNames.ofAll, ih, List.flatMap_cons]

/-- The names that a pattern binds, by its shape. -/
theorem boundNames_eq (t : Tree) :
    boundNames t = match t.shape.placeless with
      | .bindingIdent | .shorthandPattern => (t.part 0).name?.toList
      | .arrayPattern _ | .objectPattern _ | .restPattern _ | .assignPattern =>
        boundNames (t.part 0)
      | .keyValuePattern => if t.parts.length = 2 then boundNames (t.part 1) else []
      | .list => t.parts.flatMap boundNames
      | _ => [] := by
  obtain ⟨shape, span, parts⟩ := t
  cases shape with
  | bindingIdent =>
    match parts with
    | [] => rfl
    | .node shape _ _ :: _ => cases shape with
      | _ => rfl
  | shorthandPattern =>
    match parts with
    | [] => rfl
    | .node shape _ _ :: _ => cases shape with
      | _ => rfl
  | keyValuePattern =>
    match parts with
    | [] | [_] | [_, _] => rfl
    | _ :: _ :: _ :: _ => rfl
  | list => exact ofAll_boundNames_eq parts
  | _ =>
    cases parts with
    | nil => rfl
    | cons p ps => rfl

theorem ofAll_declared_eq (inBlock : Bool) (items : List Tree) :
    declared.ofAll inBlock items = items.flatMap (declared inBlock) := by
  induction items with
  | nil => rfl
  | cons t ts ih => rw [declared.ofAll, ih, List.flatMap_cons]

/-- The name of a function or class that a module exports as its default. -/
def defaultName (declaration : Tree) : List String :=
  match declaration.shape.placeless with
  | .functionExpr | .classExpr => (declaration.part 0).name?.toList
  | _ => []

theorem headNames_eq (t : Tree) :
    headNames t = match t.shape.placeless with
      | .variableDecl kind _ => if kind = "var" then variableNames t.parts else []
      | _ => [] := by
  obtain ⟨shape, span, parts⟩ := t
  unfold headNames
  split
  · rename_i form
    cases form
    rfl
  · rename_i other
    cases shape with
    | variableDecl kind isDeclare =>
      have notVar : kind ≠ "var" := fun same => by
        subst same
        exact other _ _ _ rfl
      exact (if_neg notVar).symm
    | _ => rfl

/-- The names that a statement declares, by its shape. -/
theorem declared_eq (inBlock : Bool) (t : Tree) :
    declared inBlock t = match t.shape.placeless with
      | .variableDecl kind _ => if inBlock && kind ≠ "var" then [] else variableNames t.parts
      | .usingDecl _ => if inBlock then [] else variableNames t.parts
      | .functionDecl _ | .classDecl _ | .enumDecl _ _ | .namespaceDecl _ false =>
        if inBlock then [] else (t.part 0).name?.toList
      | .exportDecl => if t.parts.length = 1 then declared inBlock (t.part 0) else []
      | .exportDefaultDecl => if t.parts.length = 1 then defaultName (t.part 0) else []
      | .importDecl _ => importedNames (t.part 0)
      | .block => t.parts.flatMap (declared true)
      | .list => t.parts.flatMap (declared inBlock)
      | .ifStmt => if t.parts.length = 3 then
          declared inBlock (t.part 1) ++ declared inBlock (t.part 2) else []
      | .forStmt => if t.parts.length = 4 then
          headNames (t.part 0) ++ declared inBlock (t.part 3) else []
      | .forInStmt | .forOfStmt _ => if t.parts.length = 3 then
          headNames (t.part 0) ++ declared inBlock (t.part 2) else []
      | .whileStmt | .doWhileStmt | .withStmt | .labeledStmt => if t.parts.length = 2 then
          declared inBlock (t.part 1) else []
      | .tryStmt => if t.parts.length = 3 then
          declared inBlock (t.part 0) ++ declared inBlock (t.part 1) ++ declared inBlock (t.part 2)
          else []
      | .catchClause | .switchStmt | .switchCase => if t.parts.length = 2 then
          declared true (t.part 1) else []
      | _ => [] := by
  obtain ⟨shape, span, parts⟩ := t
  cases shape with
  | block => exact ofAll_declared_eq true parts
  | list => exact ofAll_declared_eq inBlock parts
  | variableDecl kind isDeclare => rfl
  | usingDecl isAwait => rfl
  | namespaceDecl isDeclare isGlobal =>
    cases isGlobal with
    | true =>
      cases parts with
      | nil => rfl
      | cons p ps => rfl
    | false =>
      rcases parts with _ | ⟨p, ps⟩
      · cases inBlock with
        | _ => rfl
      · rfl
  | exportDefaultDecl =>
    rcases parts with _ | ⟨⟨shape, span, inner⟩, _ | ⟨second, rest⟩⟩
    · rfl
    all_goals cases shape with
      | functionExpr => cases inner with
        | _ => rfl
      | classExpr => cases inner with
        | _ => rfl
      | _ => rfl
  | _ =>
    -- no form has more than four parts
    rcases parts with _ | ⟨_, _ | ⟨_, _ | ⟨_, _ | ⟨_, _ | ⟨_, _⟩⟩⟩⟩⟩
    · first | rfl | (cases inBlock with | _ => rfl)
    all_goals rfl

end RouteManifest.Script

namespace RouteManifest.Routes

open Script

theorem flatMap_eq_of_forall₂ {α β : Type} {f : α → List β} {xs ys : List α}
    (alike : List.Forall₂ (fun x y => f y = f x) xs ys) : ys.flatMap f = xs.flatMap f := by
  induction alike with
  | nil => rfl
  | cons first _ ih => rw [List.flatMap_cons, List.flatMap_cons, first, ih]

theorem filterMap_eq_of_forall₂ {α β : Type} {f : α → Option β} {xs ys : List α}
    (alike : List.Forall₂ (fun x y => f y = f x) xs ys) : ys.filterMap f = xs.filterMap f := by
  induction alike with
  | nil => rfl
  | cons first _ ih => rw [List.filterMap_cons, List.filterMap_cons, first, ih]

/-- A node that has become another by additions, none of which is a part of its own. -/
def Dressed (t u : Tree) : Prop := ∃ more, more [] = [] ∧ Equipped more t u

namespace Equipped

variable {more : Address → List Tree} {t u : Tree}

/-- The parts that were there, each with what was added inside it, and behind them what was added. -/
theorem split (h : Equipped more t u) :
    ∃ kept added, u.parts = kept ++ added ∧
      List.Forall₂ (fun p q => p ∈ t.parts ∧ ∃ k, Equipped (fun below => more (k :: below)) p q)
        t.parts kept ∧
      (∀ q ∈ added, ∃ names, q.placeless = (exportsProperty names).placeless) ∧
      (more [] = [] → added = []) := by
  have length := h.grown.length
  refine ⟨u.parts.take t.parts.length, u.parts.drop t.parts.length,
    (List.take_append_drop _ _).symm, ?_, ?_, ?_⟩
  · rw [List.forall₂_iff_get]
    refine ⟨by rw [List.length_take]; omega, fun k bound bound' => ?_⟩
    obtain ⟨q, found, part⟩ := h.part (List.getElem?_eq_getElem bound)
    rw [List.get_eq_getElem, List.get_eq_getElem, List.getElem_take]
    rw [List.getElem?_eq_some_iff] at found
    obtain ⟨_, rfl⟩ := found
    exact ⟨List.getElem_mem bound, k, part⟩
  · intro q member
    obtain ⟨k, found⟩ := List.mem_iff_getElem?.mp member
    rw [List.getElem?_drop] at found
    rcases h.part_or_added found with ⟨p, there, _⟩ | ⟨_, added⟩
    · have := (List.getElem?_eq_some_iff.mp there).1
      omega
    · exact added
  · intro nothing
    rw [nothing, List.length_nil] at length
    exact List.drop_eq_nil_of_le (by omega)

/-- What is told alike of every part is told alike of a part by its number. -/
theorem eq_of_part {α : Type} {f : Tree → α} (h : Equipped more t u) (nothing : more [] = [])
    (each : ∀ p ∈ t.parts, ∀ more q, Equipped more p q → f q = f p) (k : Nat) :
    f (u.part k) = f (t.part k) := by
  cases there : t.parts[k]? with
  | some p =>
    have part := h.part_number nothing k
    rw [Tree.part_eq_of_getElem? there] at part ⊢
    exact each p (List.mem_of_getElem? there) _ _ part
  | none =>
    rw [Tree.part_eq_absent there, Tree.part_eq_absent (h.gone_of_nothing nothing there)]

/-- What is told alike of every part, and nothing of what was added, is told alike of all parts. -/
theorem flatMap_eq {α : Type} {f : Tree → List α} (h : Equipped more t u)
    (each : ∀ p ∈ t.parts, ∀ more q, Equipped more p q → f q = f p)
    (added : ∀ names q, q.placeless = (exportsProperty names).placeless → f q = []) :
    u.parts.flatMap f = t.parts.flatMap f := by
  obtain ⟨kept, rest, same, parts, new, _⟩ := h.split
  have behind : rest.flatMap f = [] := by
    refine List.flatMap_eq_nil_iff.mpr fun q member => ?_
    obtain ⟨names, alike⟩ := new q member
    exact added names q alike
  have alike : List.Forall₂ (fun p q => f q = f p) t.parts kept :=
    parts.imp fun p q ⟨member, _, part⟩ => each p member _ q part
  rw [same, List.flatMap_append, flatMap_eq_of_forall₂ alike, behind, List.append_nil]

end Equipped

theorem shape_of_added {q : Tree} {names : List String}
    (alike : q.placeless = (exportsProperty names).placeless) : q.shape.placeless = .keyValue :=
  (Tree.placeless_eq_iff.mp alike).1

/-- What was added binds nothing. -/
theorem boundNames_added {q : Tree} {names : List String}
    (alike : q.placeless = (exportsProperty names).placeless) : boundNames q = [] := by
  rw [boundNames_eq, shape_of_added alike]

theorem declared_added (inBlock : Bool) {q : Tree} {names : List String}
    (alike : q.placeless = (exportsProperty names).placeless) : declared inBlock q = [] := by
  rw [declared_eq, shape_of_added alike]

namespace Equipped

variable {more : Address → List Tree} {t u : Tree}

theorem boundNames_eq (h : Equipped more t u) : boundNames u = boundNames t := by
  induction t using Tree.parts_induction generalizing more u with
  | step t ih =>
    rw [Script.boundNames_eq u, Script.boundNames_eq t, h.grown.shape]
    by_cases object : t.shape = .objectLit
    · rw [object]
      rfl
    have nothing := h.nothing object
    have inside := h.eq_of_part nothing fun p member more q part => ih p member part
    have length := h.length_of_nothing nothing
    split
    · rw [name?_eq_of_alike (h.part_number nothing 0).grown.shape]
    · rw [name?_eq_of_alike (h.part_number nothing 0).grown.shape]
    · exact inside 0
    · exact inside 0
    · exact inside 0
    · exact inside 0
    · rw [length, inside 1]
    · exact h.flatMap_eq (fun p member more q part => ih p member part)
        fun names q alike => boundNames_added alike
    · rfl

theorem parts_of_nothing (h : Equipped more t u) (nothing : more [] = []) :
    List.Forall₂ (fun p q => ∃ k, Equipped (fun below => more (k :: below)) p q)
      t.parts u.parts := by
  obtain ⟨kept, rest, same, parts, _, none⟩ := h.split
  rw [none nothing, List.append_nil] at same
  rw [same]
  exact parts.imp fun p q ⟨_, part⟩ => part

/-- The parts of a node to which nothing is added, and to whose parts nothing is added either. -/
theorem dressed_parts (h : Equipped more t u) (nothing : more [] = [])
    (below : ∀ k, more [k] = []) : List.Forall₂ Dressed t.parts u.parts :=
  (h.parts_of_nothing nothing).imp fun _ _ ⟨k, part⟩ => ⟨_, below k, part⟩

/-- A part that is a name stays it, and no other name comes in its place. -/
theorem name?_part (h : Equipped more t u) (k : Nat) : (u.part k).name? = (t.part k).name? := by
  cases there : t.parts[k]? with
  | some p =>
    obtain ⟨q, found, part⟩ := h.part there
    rw [Tree.part_eq_of_getElem? there, Tree.part_eq_of_getElem? found,
      name?_eq_of_alike part.grown.shape]
  | none =>
    rw [Tree.part_eq_absent there]
    cases found : u.parts[k]? with
    | none => rw [Tree.part_eq_absent found]
    | some q =>
      rcases h.part_or_added found with ⟨p, there', _⟩ | ⟨_, names, alike⟩
      · cases there.symm.trans there'
      · have alike : q.shape.placeless = (exportsProperty names).shape.placeless :=
          shape_of_added alike
        rw [Tree.part_eq_of_getElem? found, name?_eq_of_alike alike]
        rfl

/-- What specifiers and the members of an enumeration are called. -/
theorem names_eq (h : Equipped more t u) (nothing : more [] = []) :
    (u.parts.filterMap fun s => (s.part 0).name?) = t.parts.filterMap fun s => (s.part 0).name? :=
  filterMap_eq_of_forall₂
    ((h.parts_of_nothing nothing).imp fun _ _ ⟨_, part⟩ => part.name?_part 0)

theorem variableNames_eq (h : Equipped more t u) (nothing : more [] = [])
    (below : ∀ k, more [k] = []) : variableNames u.parts = variableNames t.parts :=
  flatMap_eq_of_forall₂ ((h.dressed_parts nothing below).imp fun _ _ ⟨_, root, part⟩ =>
    (part.part_number root 0).boundNames_eq)

theorem headNames_eq (h : Equipped more t u) : headNames u = headNames t := by
  rw [Script.headNames_eq u, Script.headNames_eq t, h.grown.shape]
  split
  · rename_i form
    have shape := (Shape.placeless_eq_iff rfl).mp form
    rw [h.variableNames_eq (h.nothing (by simp [shape])) (h.nothing_below (by simp [shape]))]
  · rfl

theorem defaultName_eq (h : Equipped more t u) : defaultName u = defaultName t := by
  unfold defaultName
  rw [h.grown.shape, h.name?_part 0]

theorem declared_eq (h : Equipped more t u) (inBlock : Bool) :
    declared inBlock u = declared inBlock t := by
  induction t using Tree.parts_induction generalizing more u inBlock with
  | step t ih =>
    rw [Script.declared_eq inBlock u, Script.declared_eq inBlock t, h.grown.shape]
    by_cases object : t.shape = .objectLit
    · rw [object]
      rfl
    by_cases array : t.shape = .arrayLit
    · rw [array]
      rfl
    have nothing := h.nothing object
    have inside (inBlock : Bool) := h.eq_of_part nothing fun p member more q part =>
      ih p member part inBlock
    have all (inBlock : Bool) := h.flatMap_eq (fun p member more q part => ih p member part inBlock)
      fun names q alike => declared_added inBlock alike
    have length := h.length_of_nothing nothing
    have bound := h.variableNames_eq nothing (h.nothing_below array)
    have name := h.name?_part 0
    have heads := (h.part_number nothing 0).headNames_eq
    have defaults := (h.part_number nothing 0).defaultName_eq
    have imported : importedNames (u.part 0) = importedNames (t.part 0) :=
      (h.part_number nothing 0).names_eq (h.nothing_below array 0)
    rw [length, bound, name, heads, defaults, imported]
    simp only [inside, all]

theorem declaredByAll_eq (h : Equipped more t u) :
    declaredByAll u.parts = declaredByAll t.parts :=
  h.flatMap_eq (fun _ _ _ _ part => part.declared_eq false) fun _ _ alike =>
    declared_added false alike

end Equipped

end RouteManifest.Routes
