import RouteManifest.Proofs.Calls
import RouteManifest.Proofs.Naming
import RouteManifest.Proofs.Levels

/-!
# Where the parts of equipped trees stand

What stands among which scopes is the same whatever export names the routes of a tree have: every
part of a node that was there stands as it did, and what was added stands as a node of its own.
-/

namespace RouteManifest.Routes

open Script Scope

/-- The names that a parameter adds to those of its function, if it is one of the late ones. -/
def lateNames (p : Tree) : List String := if isLate p then boundNames (target p) else []

/-- The name that an import by assignment makes known. -/
def assignedName (t : Tree) : List String :=
  match t.shape with
  | .importEquals _ _ => (t.part 0).name?.toList
  | _ => []

theorem parameterNames_cons (known : List String) (p : Tree) (ps : List Tree) (i : Nat) :
    parameterNames known (p :: ps) i =
      match i with
      | 0 => lateNames p ++ known
      | i + 1 => parameterNames (lateNames p ++ known) ps i := by
  have names : (if isLate p then boundNames (target p) ++ known else known) =
      lateNames p ++ known := by
    unfold lateNames
    split
    · rfl
    · rfl
  cases i with
  | zero => exact names
  | succ i => exact congrArg (parameterNames · ps i) names

theorem statementNames_cons (names : List String) (t : Tree) (ts : List Tree) (i : Nat) :
    statementNames names (t :: ts) i =
      match i with
      | 0 => assignedName t ++ names
      | i + 1 => statementNames (assignedName t ++ names) ts i := by
  have known : (match t.shape with
      | .importEquals _ _ => (t.part 0).name?.toList ++ names
      | _ => names) = assignedName t ++ names := by
    unfold assignedName
    cases t.shape with
    | _ => rfl
  cases i with
  | zero => exact known
  | succ i => exact congrArg (statementNames · ts i) known

theorem parameterNames_append (known : List String) (kept added : List Tree)
    (none : ∀ p ∈ added, lateNames p = []) (i : Nat) :
    parameterNames known (kept ++ added) i = parameterNames known kept i := by
  induction kept generalizing known i with
  | nil =>
    induction added generalizing i with
    | nil => rfl
    | cons p ps ih =>
      rw [List.forall_mem_cons] at none
      rw [List.nil_append, parameterNames_cons, none.1]
      cases i with
      | zero => rfl
      | succ i => exact ih none.2 i
  | cons p ps ih =>
    rw [List.cons_append, parameterNames_cons, parameterNames_cons]
    cases i with
    | zero => rfl
    | succ i => exact ih _ i

theorem parameterNames_of_length_le (known : List String) (items : List Tree) {i : Nat}
    (behind : items.length ≤ i) :
    parameterNames known items i = parameterNames known items items.length := by
  induction items generalizing known i with
  | nil => rfl
  | cons p ps ih =>
    cases i with
    | zero => cases behind
    | succ i =>
      rw [List.length_cons, parameterNames_cons, parameterNames_cons]
      exact ih _ (Nat.le_of_succ_le_succ behind)

theorem parameterNames_of_forall₂ {xs ys : List Tree}
    (alike : List.Forall₂ (fun p q => lateNames q = lateNames p) xs ys) (known : List String)
    (i : Nat) : parameterNames known ys i = parameterNames known xs i := by
  induction alike generalizing known i with
  | nil => rfl
  | cons first _ ih =>
    rw [parameterNames_cons, parameterNames_cons, first]
    cases i with
    | zero => rfl
    | succ i => exact ih _ i

theorem statementNames_append (names : List String) (kept added : List Tree)
    (none : ∀ t ∈ added, assignedName t = []) (i : Nat) :
    statementNames names (kept ++ added) i = statementNames names kept i := by
  induction kept generalizing names i with
  | nil =>
    induction added generalizing i with
    | nil => rfl
    | cons t ts ih =>
      rw [List.forall_mem_cons] at none
      rw [List.nil_append, statementNames_cons, none.1]
      cases i with
      | zero => rfl
      | succ i => exact ih none.2 i
  | cons t ts ih =>
    rw [List.cons_append, statementNames_cons, statementNames_cons]
    cases i with
    | zero => rfl
    | succ i => exact ih _ i

theorem statementNames_of_forall₂ {xs ys : List Tree}
    (alike : List.Forall₂ (fun t u => assignedName u = assignedName t) xs ys)
    (names : List String) (i : Nat) : statementNames names ys i = statementNames names xs i := by
  induction alike generalizing names i with
  | nil => rfl
  | cons first _ ih =>
    rw [statementNames_cons, statementNames_cons, first]
    cases i with
    | zero => rfl
    | succ i => exact ih _ i

theorem earlyNames_eq (items : List Tree) :
    earlyNames items = items.flatMap fun p => if isLate p then [] else boundNames (target p) := by
  unfold earlyNames
  induction items with
  | nil => rfl
  | cons p ps ih =>
    rw [List.flatMap_cons, ← ih]
    by_cases late : isLate p = true
    · simp [late]
    · simp [late]

theorem caseNames_of_dressed {xs ys : List Tree} (parts : List.Forall₂ Dressed xs ys)
    (known : List String) (i : Nat) : caseNames known ys i = caseNames known xs i := by
  induction parts generalizing known i with
  | nil => rfl
  | cons first _ ih =>
    cases i with
    | zero => rfl
    | succ i =>
      obtain ⟨_, root, part⟩ := first
      rw [caseNames, caseNames, (part.part_number root 1).declaredByAll_eq]
      exact ih _ i

theorem isAbsent_eq_of_alike {one two : Tree} (alike : one.shape.placeless = two.shape.placeless) :
    one.isAbsent = two.isAbsent := by
  rw [Bool.eq_iff_iff, isAbsent_iff, isAbsent_iff, Shape.eq_iff_of_placeless alike rfl]

theorem target_eq (p : Tree) :
    target p = match p.shape.placeless with
      | .parameter | .parameterProperty _ => p.part 1
      | _ => p := by
  unfold target
  cases p.shape with
  | _ => rfl

theorem isLate_eq (p : Tree) :
    isLate p = (p.shape.placeless matches .parameterProperty _ ||
      (target p).shape.placeless matches .restPattern _) := by
  unfold isLate
  congr 1
  · cases p.shape with
    | _ => rfl
  · cases (target p).shape with
    | _ => rfl

theorem loopNames_eq (head : Tree) :
    loopNames head = match head.shape.placeless with
      | .variableDecl _ _ | .usingDecl _ => variableNames head.parts
      | _ => [] := by
  unfold loopNames
  cases head.shape with
  | _ => rfl

theorem assignedName_eq (t : Tree) :
    assignedName t = match t.shape.placeless with
      | .importEquals _ _ => (t.part 0).name?.toList
      | _ => [] := by
  unfold assignedName
  cases t.shape with
  | _ => rfl

theorem ofBody_eq (known : List String) (outer : Env) (inner : Tree) :
    Place.ofBody known outer inner = match inner.shape.placeless with
      | .block => .statements (declaredByAll inner.parts ++ known) outer
      | _ => .plain (known :: outer) := by
  unfold Place.ofBody
  cases inner.shape with
  | _ => rfl

theorem ofKey_eq (env : Env) (key : Tree) :
    Place.ofKey env key = match key.shape.placeless with
      | .computed => some (.plain env)
      | _ => none := by
  unfold Place.ofKey
  cases key.shape with
  | _ => rfl

theorem ofParameter_eq (known : List String) (outer : Env) (p : Tree) :
    Place.ofParameter known outer p = match p.shape.placeless with
      | .parameter | .parameterProperty _ => .parameter known outer
      | _ => .plain (known :: outer) := by
  unfold Place.ofParameter
  cases p.shape with
  | _ => rfl

/-- What was added is no parameter and no import by assignment. -/
theorem lateNames_added {q : Tree} {names : List String}
    (alike : q.placeless = (exportsProperty names).placeless) : lateNames q = [] := by
  have shape := shape_of_added alike
  have alone : target q = q := by rw [target_eq, shape]
  rw [lateNames, isLate_eq, alone, shape]
  rfl

theorem assignedName_added {q : Tree} {names : List String}
    (alike : q.placeless = (exportsProperty names).placeless) : assignedName q = [] := by
  rw [assignedName_eq, shape_of_added alike]

namespace Equipped

variable {more : Address → List Tree} {t u : Tree}

theorem target (h : Equipped more t u) :
    ∃ more, Equipped more (Scope.target t) (Scope.target u) := by
  rw [target_eq t, target_eq u, h.grown.shape]
  split
  · rename_i form
    have shape := (Shape.placeless_eq_iff rfl).mp form
    exact ⟨_, h.part_number (h.nothing (by simp [shape])) 1⟩
  · rename_i form
    have shape := (Shape.placeless_eq_iff rfl).mp form
    exact ⟨_, h.part_number (h.nothing (by simp [shape])) 1⟩
  · exact ⟨more, h⟩

theorem isLate_eq (h : Equipped more t u) : isLate u = isLate t := by
  obtain ⟨_, part⟩ := h.target
  rw [Routes.isLate_eq u, Routes.isLate_eq t, h.grown.shape, part.grown.shape]

theorem lateNames_eq (h : Equipped more t u) : lateNames u = lateNames t := by
  obtain ⟨_, part⟩ := h.target
  rw [lateNames, lateNames, h.isLate_eq, part.boundNames_eq]

theorem loopNames_eq (h : Equipped more t u) : loopNames u = loopNames t := by
  rw [Routes.loopNames_eq u, Routes.loopNames_eq t, h.grown.shape]
  split
  · rename_i form
    have shape := (Shape.placeless_eq_iff rfl).mp form
    exact h.variableNames_eq (h.nothing (by simp [shape])) (h.nothing_below (by simp [shape]))
  · rename_i form
    have shape := (Shape.placeless_eq_iff rfl).mp form
    exact h.variableNames_eq (h.nothing (by simp [shape])) (h.nothing_below (by simp [shape]))
  · rfl

theorem assignedName_eq (h : Equipped more t u) : assignedName u = assignedName t := by
  rw [Routes.assignedName_eq u, Routes.assignedName_eq t, h.grown.shape, h.name?_part 0]

theorem earlyNames_eq (h : Equipped more t u) : earlyNames u.parts = earlyNames t.parts := by
  rw [Routes.earlyNames_eq, Routes.earlyNames_eq]
  refine h.flatMap_eq (fun p _ _ q part => ?_) fun _ q alike => ?_
  · obtain ⟨_, inner⟩ := part.target
    rw [part.isLate_eq, inner.boundNames_eq]
  · have alone : Scope.target q = q := by rw [target_eq, shape_of_added alike]
    rw [alone, boundNames_added alike, ite_self]

theorem parameterNames_eq (h : Equipped more t u) (known : List String) (i : Nat) :
    parameterNames known u.parts i = parameterNames known t.parts i := by
  obtain ⟨kept, added, same, parts, new, _⟩ := h.split
  rw [same, parameterNames_append known kept added]
  · exact parameterNames_of_forall₂ (parts.imp fun _ _ ⟨_, _, part⟩ => part.lateNames_eq) known i
  · intro q member
    obtain ⟨_, alike⟩ := new q member
    exact lateNames_added alike

theorem functionNames_eq (h : Equipped more t u) (known : List String) :
    functionNames known u.parts = functionNames known t.parts := by
  have length := h.grown.length
  rw [functionNames, functionNames, h.earlyNames_eq, h.parameterNames_eq]
  exact parameterNames_of_length_le _ _ (by omega)

theorem statementNames_eq (h : Equipped more t u) (names : List String) (i : Nat) :
    statementNames names u.parts i = statementNames names t.parts i := by
  obtain ⟨kept, added, same, parts, new, _⟩ := h.split
  rw [same, statementNames_append names kept added]
  · exact statementNames_of_forall₂ (parts.imp fun _ _ ⟨_, _, part⟩ => part.assignedName_eq) names i
  · intro q member
    obtain ⟨_, alike⟩ := new q member
    exact assignedName_added alike

theorem ofBody_eq (h : Equipped more t u) (known : List String) (outer : Env) :
    Place.ofBody known outer u = Place.ofBody known outer t := by
  rw [Routes.ofBody_eq _ _ u, Routes.ofBody_eq _ _ t, h.grown.shape, h.declaredByAll_eq]

theorem ofKey_eq (h : Equipped more t u) (env : Env) : Place.ofKey env u = Place.ofKey env t := by
  rw [Routes.ofKey_eq _ u, Routes.ofKey_eq _ t, h.grown.shape]

theorem ofParameter_eq (h : Equipped more t u) (known : List String) (outer : Env) :
    Place.ofParameter known outer u = Place.ofParameter known outer t := by
  rw [Routes.ofParameter_eq _ _ u, Routes.ofParameter_eq _ _ t, h.grown.shape]

theorem ofFunction_eq (h : Equipped more t u) (nothing : more [] = []) (known : List String)
    (outer : Env) : Place.ofFunction known outer u = Place.ofFunction known outer t := by
  have items := h.part_number nothing 0
  have inner := h.part_number nothing 2
  simp only [Place.ofFunction, items.functionNames_eq, items.earlyNames_eq, inner.ofBody_eq]

end Equipped

namespace Dressed

variable {p q : Tree}

theorem ofKey_eq (h : Dressed p q) (env : Env) : Place.ofKey env q = Place.ofKey env p := by
  obtain ⟨_, _, part⟩ := h
  exact part.ofKey_eq env

theorem ofBody_eq (h : Dressed p q) (known : List String) (outer : Env) :
    Place.ofBody known outer q = Place.ofBody known outer p := by
  obtain ⟨_, _, part⟩ := h
  exact part.ofBody_eq known outer

theorem boundNames_eq (h : Dressed p q) : boundNames q = boundNames p := by
  obtain ⟨_, _, part⟩ := h
  exact part.boundNames_eq

theorem name?_eq (h : Dressed p q) : q.name? = p.name? := by
  obtain ⟨_, _, part⟩ := h
  exact name?_eq_of_alike part.grown.shape

theorem loopNames_eq (h : Dressed p q) : loopNames q = loopNames p := by
  obtain ⟨_, _, part⟩ := h
  exact part.loopNames_eq

theorem enumNames_eq (h : Dressed p q) : enumNames q = enumNames p := by
  obtain ⟨_, root, part⟩ := h
  exact part.names_eq root

theorem earlyNames_eq (h : Dressed p q) : earlyNames q.parts = earlyNames p.parts := by
  obtain ⟨_, _, part⟩ := h
  exact part.earlyNames_eq

theorem functionNames_eq (h : Dressed p q) (known : List String) :
    functionNames known q.parts = functionNames known p.parts := by
  obtain ⟨_, _, part⟩ := h
  exact part.functionNames_eq known

theorem isPresent_eq (h : Dressed p q) : q.isPresent = p.isPresent := by
  obtain ⟨_, _, part⟩ := h
  rw [Tree.isPresent, Tree.isPresent, isAbsent_eq_of_alike part.grown.shape]

end Dressed

theorem map_const_of_forall₂ {α β : Type} {R : α → α → Prop} {xs ys : List α}
    (parts : List.Forall₂ R xs ys) (b : β) : (ys.map fun _ => b) = xs.map fun _ => b := by
  rw [List.map_const', List.map_const', parts.length_eq]

/-- The forms of nodes of which each part stands as its own form and those of its siblings say. -/
theorem ofParts_of_dressed (env : Env) (shape : Shape) (span span' : Span) {ps qs : List Tree}
    (parts : List.Forall₂ Dressed ps qs) (other : ∀ flags, shape ≠ .function flags)
    (noDefault : shape ≠ .exportDefaultDecl)
    (noBody : shape ≠ .block ∧ shape ≠ .namespaceBlock ∧ ∀ shebang, shape ≠ .moduleBody shebang) :
    Place.ofParts env (.node shape span' qs) = Place.ofParts env (.node shape span ps) := by
  have same := map_const_of_forall₂ parts (some (Place.plain env))
  cases shape with
  | forStmt | forInStmt | forOfStmt _ =>
    cases parts with
    | nil => rfl
    | @cons p _ _ _ head rest =>
      have others := map_const_of_forall₂ rest (some (Place.plain (loopNames p :: env)))
      simp only [Place.ofParts, List.map_cons, head.loopNames_eq, others]
  | fieldMember _ | accessorMember _ =>
    cases parts with
    | nil => rfl
    | cons key rest => exact congrArg₂ List.cons (key.ofKey_eq env) (map_const_of_forall₂ rest _)
  | propertySignature _ _ _ | methodSignature _ _ | getterSignature _ | setterSignature _ =>
    cases parts with
    | nil => rfl
    | cons key rest => exact congrArg (List.cons _) (map_const_of_forall₂ rest _)
  | function flags => exact absurd rfl (other flags)
  | exportDefaultDecl => exact absurd rfl noDefault
  | block => exact absurd rfl noBody.1
  | namespaceBlock => exact absurd rfl noBody.2.1
  | moduleBody shebang => exact absurd rfl (noBody.2.2 shebang)
  | ident _ _ _ | privateName | breakStmt | continueStmt | jsxNamespaced =>
    exact map_const_of_forall₂ parts none
  | constructor modifiers =>
    rcases parts with _ | ⟨_, _ | ⟨items, _ | ⟨inner, _ | ⟨_, _⟩⟩⟩⟩
    · rfl
    · rfl
    · rfl
    · simp only [Place.ofParts, items.earlyNames_eq, items.functionNames_eq, inner.ofBody_eq]
    · exact same
  | _ =>
    -- the other forms have fixed numbers of parts, or all of their parts stand as they do
    first
      | exact same
      | rcases parts with _ | ⟨a, _ | ⟨b, _ | ⟨c, _ | ⟨d, _ | ⟨e, rest⟩⟩⟩⟩⟩
        all_goals first
          | rfl
          | exact same
          | simp only [Place.ofParts, a.ofKey_eq, a.boundNames_eq, a.name?_eq, a.earlyNames_eq,
              a.functionNames_eq, b.ofKey_eq, b.boundNames_eq, b.enumNames_eq, b.isPresent_eq,
              b.ofBody_eq]

theorem mapIdx_const {α β : Type} {xs ys : List α} (length : ys.length = xs.length)
    {f g : Nat → β} (same : ∀ i, f i = g i) :
    (ys.mapIdx fun i _ => f i) = xs.mapIdx fun i _ => g i := by
  refine List.ext_getElem (by simpa using length) fun i _ _ => ?_
  simp [same]

/-- The name of a function or class that is the default of a module belongs to the module. -/
theorem ofParts_exportDefaultDecl (env : Env) (span : Span) (parts : List Tree) :
    Place.ofParts env (.node .exportDefaultDecl span parts) =
      match ((.node .exportDefaultDecl span parts : Tree).part 0).shape.placeless with
      | .functionExpr | .classExpr =>
        if parts.length = 1 ∧ ((.node .exportDefaultDecl span parts : Tree).part 0).parts.length = 2
        then [some (Place.exported env)] else parts.map fun _ => some (Place.plain env)
      | _ => parts.map fun _ => some (Place.plain env) := by
  match parts with
  | [] => rfl
  | [.node shape _ inner] => cases shape with
    | functionExpr | classExpr => match inner with
      | [] | [_] | [_, _] => rfl
      | _ :: _ :: _ :: _ => simp [Place.ofParts, Tree.part, Shape.placeless]
    | _ => rfl
  | .node shape _ _ :: _ :: _ => cases shape with
    | functionExpr | classExpr => simp [Place.ofParts, Tree.part, Shape.placeless]
    | _ => rfl

namespace Equipped

variable {more : Address → List Tree} {t u : Tree}

theorem ofParts_eq_of_body (h : Equipped more t u) (nothing : more [] = []) (env : Env)
    (isBody : t.shape = .block ∨ t.shape = .namespaceBlock ∨
      ∃ shebang, t.shape = .moduleBody shebang) :
    Place.ofParts env u = Place.ofParts env t := by
  have told : ∀ t : Tree, (t.shape = .block ∨ t.shape = .namespaceBlock ∨
      ∃ shebang, t.shape = .moduleBody shebang) → Place.ofParts env t = t.parts.mapIdx fun i _ =>
        some (.plain (statementNames (declaredByAll t.parts) t.parts i :: env)) := by
    rintro ⟨shape, span, parts⟩ (form | form | ⟨shebang, form⟩)
    · cases form
      rfl
    · cases form
      rfl
    · cases form
      rfl
  have isBody' : u.shape = .block ∨ u.shape = .namespaceBlock ∨
      ∃ shebang, u.shape = .moduleBody shebang := by
    rcases isBody with form | form | ⟨shebang, form⟩
    · exact Or.inl ((h.grown.shape_iff rfl).mpr form)
    · exact Or.inr (Or.inl ((h.grown.shape_iff rfl).mpr form))
    · exact Or.inr (Or.inr ⟨shebang, (h.grown.shape_iff rfl).mpr form⟩)
  rw [told u isBody', told t isBody, h.declaredByAll_eq]
  refine mapIdx_const (h.length_of_nothing nothing) fun i => ?_
  rw [h.statementNames_eq]

theorem ofParts_eq_of_default (h : Equipped more t u) (nothing : more [] = []) (env : Env)
    (form : t.shape = .exportDefaultDecl) : Place.ofParts env u = Place.ofParts env t := by
  have form' : u.shape = .exportDefaultDecl := (h.grown.shape_iff rfl).mpr form
  have first := h.part_number nothing 0
  have below : more [0] = [] := h.nothing_below (by simp [form]) 0
  have length := h.length_of_nothing nothing
  have length' := first.length_of_nothing below
  have alike := first.grown.shape
  obtain ⟨shape, span, ps⟩ := t
  obtain ⟨shape', span', qs⟩ := u
  cases form
  cases form'
  rw [Tree.parts_node, Tree.parts_node] at length
  rw [ofParts_exportDefaultDecl, ofParts_exportDefaultDecl, alike, length']
  simp only [List.map_const', length]

/-- The parts of a node to which nothing is added stand as they did. -/
theorem ofParts_eq (h : Equipped more t u) (nothing : more [] = []) (env : Env) :
    Place.ofParts env u = Place.ofParts env t := by
  by_cases isFunction : ∃ flags, t.shape = .function flags
  · obtain ⟨flags, form⟩ := isFunction
    have told : ∀ t : Tree, t.shape = .function flags →
        Place.ofParts env t = Place.ofFunction [] env t := by
      rintro ⟨shape, span, parts⟩ form
      cases form
      rfl
    rw [told u ((h.grown.shape_iff rfl).mpr form), told t form, h.ofFunction_eq nothing]
  by_cases isBody : t.shape = .block ∨ t.shape = .namespaceBlock ∨
      ∃ shebang, t.shape = .moduleBody shebang
  · exact h.ofParts_eq_of_body nothing env isBody
  by_cases isDefault : t.shape = .exportDefaultDecl
  · exact h.ofParts_eq_of_default nothing env isDefault
  have length := h.length_of_nothing nothing
  by_cases others : t.shape = .arrayLit ∨ t.shape.isPlaceless = false
  · -- all parts stand as the node does
    have told : ∀ t : Tree, t.shape = .arrayLit ∨ t.shape.isPlaceless = false →
        Place.ofParts env t = t.parts.map fun _ => some (.plain env) := by
      rintro ⟨shape, span, parts⟩ (form | form)
      · cases form
        rfl
      · cases shape with
        | spread dots => rfl
        | restPattern dots => rfl
        | stringLit value raw => rfl
        | _ => cases form
    have others' : u.shape = .arrayLit ∨ u.shape.isPlaceless = false := by
      rcases others with form | form
      · exact Or.inl ((h.grown.shape_iff rfl).mpr form)
      · refine Or.inr ((Bool.eq_false_iff).mpr fun plain => ?_)
        rw [(h.grown.shape_iff plain).mp rfl, plain] at form
        cases form
    rw [told u others', told t others, List.map_const', List.map_const', length]
  · rw [not_or, Bool.not_eq_false] at others
    have dressed := h.dressed_parts nothing (h.nothing_below others.1)
    have same := (h.grown.shape_iff others.2).mpr rfl
    obtain ⟨shape, span, ps⟩ := t
    obtain ⟨shape', span', qs⟩ := u
    cases same
    refine ofParts_of_dressed env shape span span' dressed ?_ isDefault ?_
    · exact fun flags form => isFunction ⟨flags, form⟩
    · rw [not_or, not_or] at isBody
      exact ⟨isBody.1, isBody.2.1, fun shebang form => isBody.2.2 ⟨shebang, form⟩⟩

end Equipped

/-- A node to which something can be added stands on its own or as one of many. -/
def Receives (place : Scope.Place) : Prop :=
  (∃ env, place = .plain env) ∨ (∃ known outer, place = .parameters known outer) ∨
    ∃ names outer, place = .statements names outer

/-- Additions fit the place of a node: a node that receives some can receive some, and the elements
of what stands as the cases of a `switch` receive none. -/
structure Fits (more : Address → List Tree) (place : Scope.Place) : Prop where
  root : more [] ≠ [] → Receives place
  noCases : ∀ outer, place = .clauses outer → ∀ k, more [k] = []

theorem parts_exported (env : Env) (t : Tree) :
    Place.parts (.exported env) t = match t.shape.placeless with
      | .functionExpr => if t.parts.length = 2
          then [some (Place.plain env), some (Place.function [] env)]
          else t.parts.map fun _ => some (Place.plain env)
      | _ => t.parts.map fun _ => some (Place.plain env) := by
  obtain ⟨shape, span, parts⟩ := t
  cases shape with
  | functionExpr => match parts with
    | [] | [_] | [_, _] => rfl
    | _ :: _ :: _ :: _ => simp [Place.parts, Shape.placeless]
  | _ => rfl

namespace Equipped

variable {more : Address → List Tree} {t u : Tree}

theorem mapIdx_eq_of_nothing (h : Equipped more t u) (nothing : more [] = []) {β : Type}
    {f g : Nat → Tree → β} (same : ∀ i p q, t.parts[i]? = some p →
      Equipped (fun below => more (i :: below)) p q → f i q = g i p) :
    u.parts.mapIdx f = t.parts.mapIdx g := by
  refine List.ext_getElem? fun i => ?_
  rw [List.getElem?_mapIdx, List.getElem?_mapIdx]
  cases there : t.parts[i]? with
  | some p =>
    obtain ⟨q, found, part⟩ := h.part there
    rw [found, Option.map_some, Option.map_some, same i p q there part]
  | none =>
    rw [h.gone_of_nothing nothing there]
    rfl

/-- The parts of a node to which nothing is added stand as they did, wherever the node stands. -/
theorem places_eq (h : Equipped more t u) (nothing : more [] = []) {place : Scope.Place}
    (fits : Fits more place) : place.parts u = place.parts t := by
  cases place with
  | plain env => exact h.ofParts_eq nothing env
  | function known outer => exact h.ofFunction_eq nothing known outer
  | parameters known outer =>
    refine h.mapIdx_eq_of_nothing nothing fun i p q _ part => ?_
    rw [h.parameterNames_eq, part.ofParameter_eq]
  | parameter known outer => rw [Place.parts, Place.parts, h.ofParts_eq nothing]
  | statements names outer =>
    refine h.mapIdx_eq_of_nothing nothing fun i p q _ part => ?_
    rw [h.statementNames_eq]
  | clauses outer =>
    have cases' := caseNames_of_dressed (h.dressed_parts nothing (fits.noCases outer rfl)) []
    refine h.mapIdx_eq_of_nothing nothing fun i p q _ part => ?_
    rw [cases']
  | clause known outer =>
    rw [Place.parts, Place.parts, (h.part_number nothing 1).declaredByAll_eq]
  | classBody own outer => rw [Place.parts, Place.parts, h.ofParts_eq nothing]
  | exported env =>
    have length := h.length_of_nothing nothing
    rw [parts_exported, parts_exported, h.grown.shape]
    simp only [List.map_const', length]

end Equipped

end RouteManifest.Routes
