import RouteManifest.Proofs.Tokens
import RouteManifest.Script.Grammar.Module

/-!
# Runs of a reader

What a reader does at a token: what it looks at it still has before it, and what it takes it has
behind it. An operand that nothing but a comma or a closing bracket follows is an expression.
-/

namespace RouteManifest.Script.Grammar

/-! ## Where a reader stands -/

/-- The reader stands before characters and has not looked at a token of them. -/
structure State.Before (s : State) (text : List Char) : Prop where
  current : s.current = none
  ahead : s.ahead = none
  rest : s.scanner.rest = text
  plain : s.scanner.Plain

/-- The reader stands at a token and has looked no further. -/
structure State.At (s : State) (t : Token) (rest : List Char) : Prop where
  current : s.current.map (·.token) = some t
  ahead : s.ahead = none
  rest : s.scanner.rest = rest
  plain : t.KeepsModes → s.scanner.Plain

/-- Reading on has left alone what is common to the module and recorded no fault. -/
structure State.Like (s s' : State) : Prop where
  dialect : s'.dialect = s.dialect
  context : s'.context = s.context
  failures : s'.scanner.failures = s.scanner.failures

namespace State

theorem Like.refl (s : State) : s.Like s := ⟨rfl, rfl, rfl⟩

theorem Like.trans {s s' s'' : State} (first : s.Like s') (second : s'.Like s'') : s.Like s'' :=
  ⟨second.dialect.trans first.dialect, second.context.trans first.context,
    second.failures.trans first.failures⟩

/-- The reader in another context. -/
def inContext (s : State) (c : Context) : State := { s with context := c }

@[simp] theorem at_inContext {s : State} {c : Context} {t : Token} {rest : List Char} :
    (s.inContext c).At t rest ↔ s.At t rest :=
  ⟨fun h => ⟨h.current, h.ahead, h.rest, h.plain⟩, fun h => ⟨h.current, h.ahead, h.rest, h.plain⟩⟩

@[simp] theorem before_inContext {s : State} {c : Context} {text : List Char} :
    (s.inContext c).Before text ↔ s.Before text :=
  ⟨fun h => ⟨h.current, h.ahead, h.rest, h.plain⟩, fun h => ⟨h.current, h.ahead, h.rest, h.plain⟩⟩

/-- The reader behind its current token. -/
def taken (s : State) : State :=
  { s with current := none, last := (s.current.map (·.span)).getD s.last }

theorem like_taken (s : State) : s.Like s.taken := ⟨rfl, rfl, rfl⟩

theorem At.before_taken {s : State} {t : Token} {rest : List Char} (here : s.At t rest)
    (keeps : t.KeepsModes) : s.taken.Before rest :=
  ⟨rfl, here.ahead, here.rest, here.plain keeps⟩

end State

/-! ## Single steps -/

@[simp] theorem bind_run {α β : Type} (p : Parse α) (f : α → Parse β) (s : State) :
    (p >>= f) s = match p s with | .ok a s' => f a s' | .error e s' => .error e s' := by
  change EStateM.bind p f s = _
  rw [EStateM.bind]
  cases p s with
  | ok a s' => rfl
  | error e s' => rfl

@[simp] theorem pure_run {α : Type} (a : α) (s : State) : (pure a : Parse α) s = .ok a s := rfl

@[simp] theorem map_run {α β : Type} (f : α → β) (p : Parse α) (s : State) :
    (f <$> p) s = match p s with | .ok a s' => .ok (f a) s' | .error e s' => .error e s' :=
  bind_run _ _ _

@[simp] theorem ite_run {α : Type} (c : Prop) [Decidable c] (p q : Parse α) (s : State) :
    (if c then p else q) s = if c then p s else q s := by
  split
  · rfl
  · rfl

@[simp] theorem andM_run (p q : Parse Bool) (s : State) :
    (p <&&> q) s =
      match p s with
      | .ok a s' => if a then q s' else .ok false s'
      | .error e s' => .error e s' := by
  change (p >>= _) s = _
  rw [bind_run]
  cases p s with
  | ok a s' => cases a <;> rfl
  | error e s' => rfl

@[simp] theorem isTypescript_run (s : State) : isTypescript s = .ok s.dialect.typescript s := rfl

@[simp] theorem isJsx_run (s : State) : isJsx s = .ok s.dialect.jsx s := rfl

@[simp] theorem context_run (s : State) : context s = .ok s.context s := rfl

@[simp] theorem spanFrom_run (s : State) (start : Nat) :
    spanFrom start s = .ok ⟨start, s.last.hi⟩ s := rfl

theorem within_run {α : Type} {change : Context → Context} {p : Parse α} {s s' : State} {a : α}
    (run : p (s.inContext (change s.context)) = .ok a s') :
    within change p s = .ok a (s'.inContext s.context) := by
  have run' : p { s with context := change s.context } = .ok a s' := run
  rw [within, run']
  rfl

/-- A loop whose first step is its last one. -/
theorem iterate_done {α β : Type} {step : α → Parse (Turn α β)} {x : α} {y : β} {s s' : State}
    (run : step x s = .ok (.done y) s') : iterate x step s = .ok y s' := by
  rw [iterate]
  simp only [bind_run, get_run, iterate.go, run, pure_run]

/-! ## Looking at a token -/

/-- The token is one, and no characters that are none. -/
def IsSound (t : Token) : Prop := ∀ failure, t ≠ .fault failure

section

variable {s : State} {t : Token} {rest : List Char}

theorem placed?_at (here : s.At t rest) : placed? s = .ok s.current s := by
  obtain ⟨p, current, -⟩ := Option.map_eq_some_iff.mp here.current
  rw [placed?, run_bind_ok (get_run s), current]
  rfl

theorem current?_at (here : s.At t rest) : current? s = .ok (some t) s := by
  rw [current?, run_bind_ok (placed?_at here), here.current]
  rfl

theorem is_at (here : s.At t rest) (u : Token) : is u s = .ok (t = u) s := by
  rw [is, run_bind_ok (current?_at here)]
  simp only [Option.some.injEq]
  rfl

theorem isPunct_at (here : s.At t rest) (p : Punct) : isPunct p s = .ok (t = .punct p) s :=
  is_at here _

theorem isWord_at (here : s.At t rest) (w : String) : isWord w s = .ok (t = .word w) s :=
  is_at here _

theorem isBinary_at (here : s.At t rest) (op : String) : isBinary op s = .ok (t = .binary op) s :=
  is_at here _

theorem isAny_at (here : s.At t rest) (ts : List Token) : isAny ts s = .ok (t ∈ ts) s := by
  rw [isAny, run_bind_ok (current?_at here)]
  simp only [List.contains_eq_mem]
  rfl

theorem atEnd_at (here : s.At t rest) : atEnd s = .ok false s := by
  rw [atEnd, run_bind_ok (current?_at here)]
  rfl

theorem required_at (here : s.At t rest) (sound : IsSound t) : required s = .ok t s := by
  rw [required, run_bind_ok (current?_at here)]
  cases t with
  | fault failure => exact absurd rfl (sound failure)
  | _ => rfl

theorem sound?_at (here : s.At t rest) (sound : IsSound t) : sound? s = .ok (some t) s := by
  rw [sound?, run_bind_ok (current?_at here)]
  cases t with
  | fault failure => exact absurd rfl (sound failure)
  | _ => rfl

/-- Where the current token starts. -/
def State.front (s : State) : Nat := (s.current.map (·.span.lo)).getD s.last.hi

theorem position_at (here : s.At t rest) : position s = .ok s.front s := by
  obtain ⟨p, current, -⟩ := Option.map_eq_some_iff.mp here.current
  rw [position, run_bind_ok (placed?_at here), State.front, current]
  rfl

theorem afterBreak_at (here : s.At t rest) :
    afterBreak s = .ok ((s.current.map (·.afterBreak)).getD true) s := by
  rw [afterBreak, run_bind_ok (placed?_at here)]
  rfl

theorem bump_at (here : s.At t rest) : bump s = .ok () s.taken := by
  obtain ⟨p, current, -⟩ := Option.map_eq_some_iff.mp here.current
  rw [bump, run_bind_ok (placed?_at here), State.taken, current]
  rfl

theorem eat_at (here : s.At t rest) (u : Token) :
    eat u s = if t = u then .ok true s.taken else .ok false s := by
  rw [eat, run_bind_ok (is_at here u)]
  by_cases same : t = u
  · simp only [same, decide_true, if_true]
    rw [run_bind_ok (bump_at here)]
    rfl
  · simp only [same, decide_false, Bool.false_eq_true, if_false]
    rfl

theorem eatPunct_at (here : s.At t rest) (p : Punct) :
    eatPunct p s = if t = .punct p then .ok true s.taken else .ok false s :=
  eat_at here _

theorem eatWord_at (here : s.At t rest) (w : String) :
    eatWord w s = if t = .word w then .ok true s.taken else .ok false s :=
  eat_at here _

theorem eatBinary_at (here : s.At t rest) (op : String) :
    eatBinary op s = if t = .binary op then .ok true s.taken else .ok false s :=
  eat_at here _

theorem expectPunct_at {p : Punct} (here : s.At (.punct p) rest) :
    expectPunct p s = .ok () s.taken := by
  rw [expectPunct, expect, run_bind_ok ((eat_at here _).trans (if_pos rfl))]
  rfl

end

/-! ## Looking at the next token -/

/-- The text leads to the token, with the rest behind it. -/
def Leads (text : List Char) (t : Token) (rest : List Char) : Prop :=
  ∀ (s : Scanner) (dialect : Dialect), s.Plain → s.rest = text → s.Meets dialect t rest

/-- Once the reader looks, it stands at the token. -/
def State.Faces (s : State) (t : Token) (rest : List Char) : Prop :=
  ∃ s', placed? s = .ok s'.current s' ∧ s'.At t rest ∧ s.Like s'

theorem State.At.faces {s : State} {t : Token} {rest : List Char} (here : s.At t rest) :
    s.Faces t rest :=
  ⟨s, placed?_at here, here, .refl s⟩

/-- The next token is scanned once it is looked at. -/
theorem State.Before.faces {s : State} {t : Token} {text rest : List Char} (before : s.Before text)
    (leads : Leads text t rest) (sound : IsSound t) : s.Faces t rest := by
  have meets := leads s.scanner s.dialect before.plain before.rest
  obtain ⟨dialect, scanner, context, current, ahead, last, labels, arrowStart, commas⟩ := s
  obtain rfl : current = none := before.current
  obtain rfl : ahead = none := before.ahead
  obtain ⟨p, scanner', next, rfl, behind, failures, plain⟩ := meets context
  have scanned : scan ⟨dialect, scanner, context, none, none, last, labels, arrowStart, commas⟩ =
      .ok (some p) ⟨dialect, scanner', context, none, none, last, labels, arrowStart, commas⟩ := by
    rw [scan, run_bind_ok (get_run _), next]
    obtain ⟨t, span, afterBreak, chars⟩ := p
    cases t with
    | fault failure => exact absurd rfl (sound failure)
    | _ => rfl
  refine ⟨⟨dialect, scanner', context, some p, none, last, labels, arrowStart, commas⟩, ?_,
    ⟨rfl, rfl, behind, plain⟩, ⟨rfl, rfl, failures⟩⟩
  rw [placed?, run_bind_ok (get_run _)]
  simp only
  rw [run_bind_ok (get_run _)]
  simp only
  rw [run_bind_ok scanned]
  rfl

/-- What the reader does begins with a look at the next token. -/
def Looks {α : Type} (p : Parse α) : Prop :=
  ∀ ⦃s s' : State⦄ ⦃x : Option PlacedToken⦄, placed? s = .ok x s' → placed? s' = .ok x s' →
    p s = p s'

theorem looks_placed? : Looks placed? := fun _ _ _ first second => first.trans second.symm

theorem Looks.bind {α β : Type} {p : Parse α} (looks : Looks p) (f : α → Parse β) :
    Looks (p >>= f) := by
  intro s s' x first second
  rw [bind_run, bind_run, looks first second]

theorem looks_current? : Looks current? := looks_placed?.bind _

theorem looks_is (t : Token) : Looks (is t) := looks_current?.bind _

theorem looks_sound? : Looks sound? := looks_current?.bind _

/-- What begins with a look may be done from where the look has led. -/
theorem Looks.run {α : Type} {p : Parse α} (looks : Looks p) {s : State} {t : Token}
    {rest : List Char} (faces : s.Faces t rest) : ∃ s', p s = p s' ∧ s'.At t rest ∧ s.Like s' := by
  obtain ⟨s', look, here, like⟩ := faces
  exact ⟨s', looks look (placed?_at here), here, like⟩

/-! ## Operands -/

/-- A literal can begin with the token. -/
def Begins (t : Token) : Prop := (∃ value raw, t = .string value raw) ∨ t = .punct .leftBracket

/-- Nothing goes on with what stands before the token. -/
def Follows (t : Token) : Prop :=
  t = .punct .comma ∨ t = .punct .rightBracket ∨ t = .punct .rightBrace

/-- A literal. -/
def IsValue (e : Tree) : Prop :=
  (∃ value raw, e.shape = .stringLit value raw) ∨ e.shape = .arrayLit

theorem Begins.isSound {t : Token} (begins : Begins t) : IsSound t := by
  obtain ⟨value, raw, rfl⟩ | rfl := begins
  all_goals exact fun _ => nofun

theorem Follows.isSound {t : Token} (follows : Follows t) : IsSound t := by
  rcases follows with rfl | rfl | rfl
  all_goals exact fun _ => nofun

theorem IsValue.plain {e : Tree} (value : IsValue e) :
    isSuper e = false ∧ isImportCallee e = false ∧ isChain e = false ∧ isArrow e = false := by
  obtain ⟨v, raw, shape⟩ | shape := value
  · simp [isSuper, isImportCallee, isChain, isArrow, shape]
  · simp [isSuper, isImportCallee, isChain, isArrow, shape]

section

variable {s : State} {t : Token} {rest : List Char} {e : Tree}

theorem subscript_at (r : Rules) (start : Nat) (value : IsValue e) (follows : Follows t)
    (here : s.At t rest) (noCalls : Bool) :
    subscript r start e noCalls false s = .ok (e, false) s := by
  obtain ⟨noSuper, noImport, noChain, -⟩ := value.plain
  have sound := follows.isSound
  rcases follows with rfl | rfl | rfl
  all_goals
    simp [subscript, sound?_at here sound, afterBreak_at here, isPunct_at here, isAny_at here,
      eatPunct_at here, noSuper, noImport, noChain]

theorem subscripts_run (r : Rules) (value : IsValue e) (follows : Follows t)
    (faces : s.Faces t rest) (noCalls : Bool) :
    ∃ s', subscripts r e noCalls false s = .ok e s' ∧ s'.At t rest ∧ s.Like s' := by
  have looks : Looks (subscript r e.span.lo e noCalls false) := looks_sound?.bind _
  obtain ⟨s', same, here, like⟩ := looks.run faces
  refine ⟨s', ?_, here, like⟩
  rw [subscripts]
  refine iterate_done ?_
  simp [same, subscript_at r e.span.lo value follows here]

/-- No type arguments stand behind a literal. -/
theorem instantiation?_run (r : Rules) (follows : Follows t) (faces : s.Faces t rest) :
    ∃ s', instantiation? r s = .ok .absent s' ∧ s'.At t rest ∧ s.Like s' := by
  obtain ⟨s', same, here, like⟩ := (looks_is (.binary "<")).run faces
  refine ⟨s', ?_, here, like⟩
  rcases follows with rfl | rfl | rfl
  all_goals simp [instantiation?, isBinary, same, is_at here]

end

theorem withTypes_absent (e : Tree) (start : Nat) (s : State) :
    withTypes e .absent start s = .ok e s := rfl

/-- At the token, the reader finds a tree with the property and stands before what is after it. -/
def Reads (p : Parse Tree) (t : Token) (rest after : List Char) (P : Tree → Prop) : Prop :=
  ∀ ⦃s : State⦄, s.At t rest → ∃ e s', p s = .ok e s' ∧ P e ∧ s'.Before after ∧ s.Like s'

/-- At the token, the reader finds a tree with the property and stands at the token after it. -/
def ReadsTo (p : Parse Tree) (t : Token) (rest : List Char) (P : Tree → Prop) (u : Token)
    (rest' : List Char) : Prop :=
  ∀ ⦃s : State⦄, s.At t rest → ∃ e s', p s = .ok e s' ∧ P e ∧ s'.At u rest' ∧ s.Like s'

section

variable {r : Rules} {t u : Token} {rest after rest' : List Char} {P : Tree → Prop}

theorem Reads.within {p : Parse Tree} (reads : Reads p t rest after P)
    (change : Context → Context) : Reads (within change p) t rest after P := by
  intro s here
  obtain ⟨e, s', run, holds, before, like⟩ :=
    reads (s := s.inContext (change s.context)) (State.at_inContext.mpr here)
  exact ⟨e, _, within_run run, holds, State.before_inContext.mpr before,
    ⟨like.dialect, rfl, like.failures⟩⟩

theorem ReadsTo.within {p : Parse Tree} (reads : ReadsTo p t rest P u rest')
    (change : Context → Context) : ReadsTo (within change p) t rest P u rest' := by
  intro s here
  obtain ⟨e, s', run, holds, there, like⟩ :=
    reads (s := s.inContext (change s.context)) (State.at_inContext.mpr here)
  exact ⟨e, _, within_run run, holds, State.at_inContext.mpr there,
    ⟨like.dialect, rfl, like.failures⟩⟩

theorem newOrMember_reads (begins : Begins t) (value : ∀ e, P e → IsValue e) (follows : Follows u)
    (operand : Reads (primary r) t rest after P) (leads : Leads after u rest') (isNew : Bool) :
    ReadsTo (newOrMember r isNew) t rest P u rest' := by
  rw [newOrMember]
  refine ReadsTo.within ?_ _
  intro s here
  obtain ⟨e, s₁, run, holds, before, like⟩ := operand here
  obtain ⟨s₂, types, here₂, like₂⟩ :=
    instantiation?_run r follows (before.faces leads follows.isSound)
  obtain ⟨s₃, members, here₃, like₃⟩ := subscripts_run r (value e holds) follows here₂.faces true
  refine ⟨e, s₃, ?_, holds, here₃, (like.trans like₂).trans like₃⟩
  have noArrow := (value e holds).plain.2.2.2
  obtain ⟨v, raw, rfl⟩ | rfl := begins
  all_goals
    simp [position_at here, eatWord_at here, run, noArrow, types, withTypes_absent, members]

theorem leftHandSide_reads (begins : Begins t) (value : ∀ e, P e → IsValue e) (follows : Follows u)
    (operand : Reads (primary r) t rest after P) (leads : Leads after u rest') :
    ReadsTo (leftHandSide r) t rest P u rest' := by
  intro s here
  obtain ⟨e, s', run, holds, there, like⟩ :=
    newOrMember_reads begins value follows operand leads true here
  refine ⟨e, s', ?_, holds, there, like⟩
  have noArrow := (value e holds).plain.2.2.2
  have sound := begins.isSound
  have isValue := value e holds
  have noCall : u ≠ .punct .leftParen := by rcases follows with rfl | rfl | rfl <;> simp
  have noTypes : u ≠ .binary "<" ∧ u ≠ .binary "<<" := by
    rcases follows with rfl | rfl | rfl <;> simp
  -- The one case of the rule that takes the tree apart is that of `new`.
  obtain ⟨shape, span, parts⟩ := e
  obtain ⟨w, raw', rfl⟩ | rfl := isValue
  all_goals
    obtain ⟨v, raw, rfl⟩ | rfl := begins
    all_goals
      simp [leftHandSide, position_at here, required_at here sound, isBinary_at here,
        eatWord_at here, run, noArrow, isAny_at there, isPunct_at there, noCall, noTypes,
        Tree.absent, Tree.isPresent, Tree.isAbsent]

theorem binaryStep_at {s : State} {e : Tree} (here : s.At u rest) (follows : Follows u) (p : Nat) :
    binaryStep r e p s = .ok none s := by
  have sound := follows.isSound
  rcases follows with rfl | rfl | rfl
  all_goals
    simp [binaryStep, afterBreak_at here, isWord_at here, sound?_at here sound]

theorem binaryTail_at {s : State} {e : Tree} (here : s.At u rest) (follows : Follows u) (p : Nat) :
    binaryTail r e p s = .ok e s := by
  rw [binaryTail, run_bind_ok (binaryStep_at here follows p)]
  rfl

theorem assignmentTail_at {s : State} {e : Tree} (here : s.At u rest) (follows : Follows u)
    (start : Nat) : assignmentTail r start e s = .ok e s := by
  rw [assignmentTail, run_bind_ok (sound?_at here follows.isSound)]
  rcases follows with rfl | rfl | rfl
  all_goals rfl

theorem unary_reads (begins : Begins t) (value : ∀ e, P e → IsValue e) (follows : Follows u)
    (operand : ReadsTo (leftHandSide r) t rest P u rest') :
    ReadsTo (unary r) t rest P u rest' := by
  intro s here
  obtain ⟨e, s', run, holds, there, like⟩ := operand here
  refine ⟨e, s', ?_, holds, there, like⟩
  have noArrow := (value e holds).plain.2.2.2
  obtain ⟨v, raw, rfl⟩ | rfl := begins
  all_goals
    rcases follows with rfl | rfl | rfl
    all_goals
      simp [unary, position_at here, eatBinary_at here, isAny_at here, isWord_at here, run, noArrow,
        afterBreak_at there, isAny_at there]

theorem binaryExpr_reads (value : ∀ e, P e → IsValue e) (operand : ReadsTo r.unary t rest P u rest')
    (tail : ∀ {s : State} {e : Tree}, s.At u rest' → r.binaryTail e 0 s = .ok e s) :
    ReadsTo (binaryExpr r) t rest P u rest' := by
  intro s here
  obtain ⟨e, s', run, holds, there, like⟩ := operand here
  refine ⟨e, s', ?_, holds, there, like⟩
  have noArrow := (value e holds).plain.2.2.2
  rw [binaryExpr, run_bind_ok (context_run s), run_bind_ok (tryCatch_run run)]
  simp [noArrow, tail there]

theorem conditional_reads (value : ∀ e, P e → IsValue e) (follows : Follows u)
    (binary : ReadsTo (binaryExpr r) t rest P u rest') :
    ReadsTo (conditional r) t rest P u rest' := by
  intro s here
  obtain ⟨e, s', run, holds, there, like⟩ := binary here
  refine ⟨e, s', ?_, holds, there, like⟩
  have noArrow := (value e holds).plain.2.2.2
  have noQuestion : u ≠ .punct .question := by rcases follows with rfl | rfl | rfl <;> simp
  simp [conditional, position_at here, run, noArrow, eatPunct_at there, noQuestion]

/-- An operand that nothing goes on with is an expression. -/
theorem plainAssignment_reads (begins : Begins t) (value : ∀ e, P e → IsValue e)
    (follows : Follows u) (tests : ReadsTo (conditional r) t rest P u rest') :
    ReadsTo (plainAssignment r) t rest P u rest' := by
  intro s here
  have here' : State.At { s with arrowStart := none } t rest :=
    ⟨here.current, here.ahead, here.rest, here.plain⟩
  obtain ⟨e, s', run, holds, there, like⟩ := tests here'
  refine ⟨e, s', ?_, holds, there, ⟨like.dialect, like.context, like.failures⟩⟩
  have noArrow := (value e holds).plain.2.2.2
  have sound := begins.isSound
  have noGeneric : genericArrow? r s = .ok none s := by
    obtain ⟨v, raw, rfl⟩ | rfl := begins
    all_goals simp [genericArrow?, isAny_at here]
  have last (start : Nat) : assignmentTail r start e s' = .ok e s' :=
    assignmentTail_at there follows start
  have isValue := value e holds
  obtain ⟨v, raw, rfl⟩ | rfl := begins
  all_goals
    obtain ⟨w, raw', shape⟩ | shape := isValue
    all_goals
      simp [plainAssignment, position_at here, noGeneric, isWord_at here, required_at here sound,
        position_at here', run, noArrow, shape, last]

end

/-- It does not matter to an expression whether the reader has looked at its first token. -/
theorem assignment_looked (r : Rules) {s s' : State} {x : Option PlacedToken}
    (look : placed? s = .ok x s') (look' : placed? s' = .ok x s') (like : s.Like s') :
    assignment r s = assignment r s' := by
  have tag : Looks (is .tagStart) := looks_is _
  simp [assignment, like.dialect, tag look look']

section

variable {t u : Token} {rest after rest' : List Char} {P : Tree → Prop}

/-- A literal and nothing that goes on with it, read with rules that can be entered inside one
another once more. -/
theorem assignment_reads (begins : Begins t) (value : ∀ e, P e → IsValue e) (follows : Follows u)
    {n : Nat} (operand : Reads (primary (rules n)) t rest after P) (leads : Leads after u rest') :
    ReadsTo (assignment (rules (n + 1))) t rest P u rest' := by
  have unary_ : ReadsTo (rules (n + 1)).unary t rest P u rest' :=
    unary_reads begins value follows (leftHandSide_reads begins value follows operand leads)
  have tail {s : State} {e : Tree} (there : s.At u rest') :
      (rules (n + 1)).binaryTail e 0 s = .ok e s := binaryTail_at there follows 0
  have plain := plainAssignment_reads begins value follows
    (conditional_reads value follows (binaryExpr_reads value unary_ tail))
  intro s here
  obtain ⟨e, s', run, holds, there, like⟩ := plain here
  refine ⟨e, s', ?_, holds, there, like⟩
  obtain ⟨v, raw, rfl⟩ | rfl := begins
  all_goals simp [assignment, is_at here, run]

end

end RouteManifest.Script.Grammar
