import RouteManifest.Proofs.Readers
import RouteManifest.Proofs.Recompiling
import RouteManifest.Proofs.Writing

/-!
# Export names, read again

What a reader of modules finds in the text that is written for a route's export names: an array of
string literals that hold the names in order. A name may hold any characters, the escapes of halves
of surrogate pairs among them; only where such an escape stands in brackets, of which the second is
missing, another name may be found.
-/

namespace RouteManifest.Script

open Printer

/-! ## The tokens of a list of names -/

theorem isSpace_nil : Scan.IsSpace [] := List.forall_mem_nil _

theorem isSpace_replicate (n : Nat) : Scan.IsSpace (List.replicate n ' ') := by
  intro x member
  rw [List.eq_of_mem_replicate member]
  decide

theorem isSpace_indentation (depth : Nat) : Scan.IsSpace (indentation depth).toList := by
  rw [indentation, String.toList_ofList]
  exact isSpace_replicate _

theorem isSpace_line (depth : Nat) : Scan.IsSpace ('\n' :: (indentation depth).toList) :=
  List.forall_mem_cons.mpr ⟨by decide, isSpace_indentation depth⟩

namespace Grammar

theorem leads_mark {x : Char} {p : Punct} (isMark : (x, p) ∈ Scan.marks) {gap : List Char}
    (isSpace : Scan.IsSpace gap) (rest : List Char) :
    Leads (gap ++ x :: rest) (.punct p) rest := by
  intro s dialect plain ahead
  have opens : Scan.Opens x := by
    have each : ∀ y ∈ Scan.marks, Scan.Opens y.1 := by decide
    exact each (x, p) isMark
  have text : s.rest = gap ++ ([x] ++ rest) := ahead
  exact Scanner.meets dialect plain isSpace text ⟨x, rfl, opens⟩
    fun c _ fuel => Scan.plainToken_mark isMark c fuel

theorem leads_quoted {text : String} (closed : ClosesHalves text.toList) {gap : List Char}
    (isSpace : Scan.IsSpace gap) (rest : List Char) :
    Leads (gap ++ ((quoted text).toList ++ rest)) (.string text (quoted text)) rest := by
  intro s dialect plain ahead
  have opens : Scan.Opens (mark text) := by
    rcases isMark_mark text with same | same
    · rw [same]
      decide
    · rw [same]
      decide
  have begins : (quoted text).toList.head? = some (mark text) := by
    rw [toList_quoted]
    rfl
  refine Scanner.meets dialect plain isSpace ahead ⟨_, begins, opens⟩ fun c s' fuel ahead' => ?_
  rw [String.length_toList]
  exact Scan.plainToken_quoted closed c fuel ahead'

/-- The name of the property is a word up to the colon behind it. -/
theorem leads_key {gap : List Char} (isSpace : Scan.IsSpace gap) (rest : List Char) :
    Leads (gap ++ (Routes.exportsKey.toList ++ ':' :: rest)) (.word Routes.exportsKey)
      (':' :: rest) := by
  intro s dialect plain ahead
  refine Scanner.meets dialect plain isSpace ahead ⟨'_', rfl, by decide⟩
    fun c s' fuel ahead' => ?_
  have ends : ∀ x, (':' :: rest).head? = some x → Text.continuesIdentifier x = false := by
    rintro x ⟨⟩
    decide
  exact Scan.plainToken_word c fuel (List.all_eq_true.mp (by decide)) ends (by simp) ahead'

/-! ## An array of names -/

/-- What is written behind a name: the names after it, each on a line of its own, and the bracket
that closes the array. -/
def behind (depth : Nat) (after : List Char) : List String → List Char
  | [] => '\n' :: (indentation depth).toList ++ ']' :: after
  | name :: names =>
    ',' :: ('\n' :: (indentation (depth + 1)).toList ++
      ((quoted name).toList ++ behind depth after names))

/-- What is written behind the bracket that opens the array. -/
def inside (depth : Nat) (after : List Char) : List String → List Char
  | [] => ']' :: after
  | name :: names =>
    '\n' :: (indentation (depth + 1)).toList ++ ((quoted name).toList ++ behind depth after names)

/-- The first token that is found inside. -/
def firstToken : List String → Token
  | [] => .punct .rightBracket
  | name :: _ => .string name (quoted name)

/-- What is behind the first token inside. -/
def behindFirst (depth : Nat) (after : List Char) : List String → List Char
  | [] => after
  | _ :: names => behind depth after names

theorem leads_inside (depth : Nat) (after : List Char) {names : List String}
    (closed : ∀ name ∈ names, ClosesHalves name.toList) :
    Leads (inside depth after names) (firstToken names) (behindFirst depth after names) := by
  cases names with
  | nil => exact leads_mark (x := ']') (p := .rightBracket) (by decide) isSpace_nil after
  | cons name names => exact leads_quoted (closed name List.mem_cons_self) (isSpace_line _) _

theorem isSound_firstToken (names : List String) : IsSound (firstToken names) := by
  cases names <;> exact fun _ => nofun

theorem length_behind (depth : Nat) (after : List Char) (names : List String) :
    names.length ≤ (behind depth after names).length := by
  induction names with
  | nil => exact Nat.zero_le _
  | cons name names ih =>
    simp only [behind, List.length_cons, List.length_append]
    omega

theorem length_inside (depth : Nat) (after : List Char) (names : List String) :
    names.length ≤ (inside depth after names).length := by
  cases names with
  | nil => exact Nat.zero_le _
  | cons name names =>
    have := length_behind depth after names
    simp only [inside, List.length_cons, List.length_append]
    omega

/-- A literal as it is read from the quoted text. -/
def literalShape (text : String) : Shape := .stringLit text (some (quoted text))

/-- One turn of the loop that reads the elements of an array. -/
def arrayStep (r : Rules) (start : Nat) (items : List Tree) :
    Parse (Turn (List Tree) (List Tree)) := do
  if (← atEnd) || (← isPunct .rightBracket) then return .done items.reverse
  if ← eatPunct .comma then return .again (.absent :: items)
  let item ← withIn (spreadable r)
  if !(← isPunct .rightBracket) then
    expectPunct .comma
    let comma := (← get).last
    if ← isPunct .rightBracket then
      modify fun s => { s with trailingCommas := (start, comma) :: s.trailingCommas }
  return .again (item :: items)

theorem arrayLiteral_eq (r : Rules) :
    arrayLiteral r = do
      let start ← position
      bump
      let items ← iterate [] (arrayStep r start)
      expectPunct .rightBracket
      return .node .arrayLit (← spanFrom start) items := rfl

theorem looks_arrayStep (r : Rules) (start : Nat) (items : List Tree) :
    Looks (arrayStep r start items) :=
  (looks_current?.bind _).bind _

theorem literal_reads (r : Rules) (value raw : String) (rest : List Char) :
    Reads (primary r) (.string value raw) rest rest
      fun e => e.shape = .stringLit value (some raw) := by
  intro s here
  have sound : IsSound (.string value raw) := fun _ => nofun
  refine ⟨.node (.stringLit value (some raw)) ⟨s.front, s.taken.last.hi⟩ [], s.taken, ?_, rfl,
    here.before_taken (Token.keepsModes_string value raw), s.like_taken⟩
  simp [primary, literal, placed?_at here, position_at here, current?_at here,
    required_at here sound, bump_at here]

/-- A name is an element of the array. -/
theorem spreadable_reads (name : String) {after rest : List Char} {u : Token} (follows : Follows u)
    (leads : Leads after u rest) (n : Nat) :
    ReadsTo (spreadable (rules (n + 2))) (.string name (quoted name)) after
      (·.shape = literalShape name) u rest := by
  intro s here
  have operand := literal_reads (rules n) name (quoted name) after
  obtain ⟨e, s', run, literal, there, like⟩ := assignment_reads (Or.inl ⟨_, _, rfl⟩)
    (fun e shape => Or.inl ⟨_, _, shape⟩) follows operand leads here
  refine ⟨e, s', ?_, literal, there, like⟩
  have run' : (rules (n + 2)).assignment s = .ok e s' := run
  simp [spreadable, position_at here, eatPunct_at here, run']

/-- One turn at a name takes it, with the comma behind it, and looks at what comes next. -/
theorem arrayStep_name (depth n start : Nat) (after : List Char) (name : String)
    {names : List String} (closed : ∀ next ∈ names, ClosesHalves next.toList) (items : List Tree)
    {s : State}
    (here : s.At (firstToken (name :: names)) (behind depth after names)) :
    ∃ e s', arrayStep (rules (n + 2)) start items s = .ok (.again (e :: items)) s' ∧
      e.shape = literalShape name ∧ s'.At (firstToken names) (behindFirst depth after names) ∧
      s.Like s' := by
  rw [firstToken] at here
  cases names with
  | nil =>
    have leads := leads_mark (x := ']') (p := .rightBracket) (by decide) (isSpace_line depth) after
    have element : ReadsTo (withIn _) _ _ _ _ _ :=
      (spreadable_reads name (Or.inr (Or.inl rfl)) leads n).within _
    obtain ⟨e, s', run, literal, there, like⟩ := element here
    refine ⟨e, s', ?_, literal, there, like⟩
    simp [arrayStep, atEnd_at here, isPunct_at here, eatPunct_at here, run, isPunct_at there]
  | cons next names =>
    have leads := leads_mark (x := ',') (p := .comma) (by decide) isSpace_nil
      (inside depth after (next :: names))
    have element : ReadsTo (withIn _) _ _ _ _ _ :=
      (spreadable_reads name (Or.inl rfl) leads n).within _
    obtain ⟨e, s', run, literal, there, like⟩ := element here
    have keeps : (Token.punct .comma).KeepsModes :=
      Token.keepsModes_punct (Or.inr (Or.inr (Or.inl rfl)))
    have faces := (there.before_taken keeps).faces (leads_inside depth after closed)
      (isSound_firstToken _)
    obtain ⟨s'', same, next_, like'⟩ := (looks_is (.punct .rightBracket)).run faces
    have same' : isPunct .rightBracket s'.taken = .ok false s'' := by
      rw [isPunct, same, is_at next_]
      simp [firstToken]
    refine ⟨e, s'', ?_, literal, next_, (like.trans s'.like_taken).trans like'⟩
    simp [arrayStep, atEnd_at here, isPunct_at here, eatPunct_at here, run, isPunct_at there,
      expectPunct_at there, same']

/-- The loop takes the names in order. -/
theorem arrayStep_names (depth n start : Nat) (after : List Char) {names : List String}
    (closed : ∀ name ∈ names, ClosesHalves name.toList) {fuel : Nat}
    (enough : names.length < fuel) (items : List Tree) {s : State}
    (here : s.At (firstToken names) (behindFirst depth after names)) :
    ∃ es s', iterate.go (arrayStep (rules (n + 2)) start) fuel items s =
        .ok (items.reverse ++ es) s' ∧
      es.map Tree.shape = names.map literalShape ∧ s'.At (.punct .rightBracket) after ∧
      s.Like s' := by
  induction names generalizing fuel items s with
  | nil =>
    obtain ⟨fuel, rfl⟩ := Nat.exists_eq_add_one.mpr (Nat.zero_lt_of_lt enough)
    have here' : s.At (.punct .rightBracket) after := here
    refine ⟨[], s, ?_, rfl, here, .refl s⟩
    simp [iterate.go, arrayStep, atEnd_at here', isPunct_at here']
  | cons name names ih =>
    obtain ⟨fuel, rfl⟩ := Nat.exists_eq_add_one.mpr (Nat.zero_lt_of_lt enough)
    have later := (List.forall_mem_cons.mp closed).2
    obtain ⟨e, s', step, literal, there, like⟩ :=
      arrayStep_name depth n start after name later items here
    obtain ⟨es, s'', run, literals, there', like'⟩ :=
      ih later (Nat.lt_of_succ_lt_succ enough) (e :: items) there
    refine ⟨e :: es, s'', ?_, by simp [literal, literals], there', like.trans like'⟩
    simp [iterate.go, step, run]

/-- The array of names as it is read. -/
def IsNames (names : List String) (t : Tree) : Prop :=
  t.shape = .arrayLit ∧ t.parts.map Tree.shape = names.map literalShape

/-- An array of names is read as the literals of the names, in order and nothing else. -/
theorem arrayLiteral_reads (depth n : Nat) (after : List Char) {names : List String}
    (closed : ∀ name ∈ names, ClosesHalves name.toList) :
    Reads (arrayLiteral (rules (n + 2))) (.punct .leftBracket) (inside depth after names) after
      (IsNames names) := by
  intro s here
  have keeps : (Token.punct .leftBracket).KeepsModes := Token.keepsModes_punct (Or.inl rfl)
  have keeps' : (Token.punct .rightBracket).KeepsModes :=
    Token.keepsModes_punct (Or.inr (Or.inl rfl))
  have before := here.before_taken keeps
  obtain ⟨s₁, look, at_, like⟩ :=
    before.faces (leads_inside depth after closed) (isSound_firstToken names)
  have enough : names.length < s.taken.scanner.rest.length + 4 := by
    have := length_inside depth after names
    rw [before.rest]
    omega
  obtain ⟨es, s₂, run, literals, there, like₂⟩ :=
    arrayStep_names depth n s.front after closed enough [] at_
  have loop : iterate [] (arrayStep (rules (n + 2)) s.front) s.taken = .ok es s₂ := by
    have looked : Looks (iterate.go (arrayStep (rules (n + 2)) s.front)
        (s.taken.scanner.rest.length + 4) []) :=
      (looks_arrayStep _ _ _).bind _
    rw [iterate, bind_run, get_run]
    simp only
    rw [looked look (placed?_at at_), run]
    rfl
  refine ⟨.node .arrayLit ⟨s.front, s₂.taken.last.hi⟩ es, s₂.taken, ?_, ⟨rfl, literals⟩,
    there.before_taken keeps', ((s.like_taken.trans like).trans like₂).trans s₂.like_taken⟩
  rw [arrayLiteral_eq]
  simp [position_at here, bump_at here, loop, expectPunct_at there]

theorem array_reads (depth n : Nat) (after : List Char) {names : List String}
    (closed : ∀ name ∈ names, ClosesHalves name.toList) :
    Reads (primary (rules (n + 2))) (.punct .leftBracket) (inside depth after names) after
      (IsNames names) := by
  intro s here
  obtain ⟨e, s', run, named, before, like⟩ := (arrayLiteral_reads depth n after closed).within
    (fun c => { c with expectsColon := false }) here
  refine ⟨e, s', ?_, named, before, like⟩
  simp [primary, placed?_at here, position_at here, current?_at here, run]

/-! ## The property of the names -/

/-- The property of names as it is read: its key, and the array of the names. -/
def IsProperty (names : List String) (t : Tree) : Prop :=
  Routes.propertyName? t = some Routes.exportsKey ∧
    ∃ array, Routes.value? t = some array ∧ IsNames names array

theorem isSpace_blank : Scan.IsSpace [' '] := List.forall_mem_singleton.mpr (by decide)

/-- What is written behind the name of the property. -/
def behindKey (depth : Nat) (after : List Char) (names : List String) : List Char :=
  ':' :: ([' '] ++ '[' :: inside depth after names)

theorem keepsModes_key : (Token.word Routes.exportsKey).KeepsModes :=
  Token.keepsModes_word (by decide) (by decide)

/-- Before the key of the property no modifier stands. -/
theorem eatModifier_key {s : State} {rest : List Char}
    (here : s.At (.word Routes.exportsKey) rest) : eatModifier s = .ok false s := by
  have noModifier : Routes.exportsKey ∉ accessAndReadonly := by decide
  have sound : IsSound (.word Routes.exportsKey) := fun _ => nofun
  cases typed : s.dialect.typescript
  · simp [eatModifier, typed]
  · simp [eatModifier, typed, sound?_at here sound, noModifier]

theorem propertyKey_key (r : Rules) {s : State} {rest : List Char}
    (here : s.At (.word Routes.exportsKey) rest) :
    ∃ span, propertyKey r s = .ok (identNode Routes.exportsKey span) s.taken := by
  have sound : IsSound (.word Routes.exportsKey) := fun _ => nofun
  have here' : State.At { s with context := { s.context with inPropertyName := true } }
      (.word Routes.exportsKey) rest := ⟨here.current, here.ahead, here.rest, here.plain⟩
  refine ⟨⟨s.front, s.taken.last.hi⟩, ?_⟩
  simp [propertyKey, within, position_at here', required_at here' sound, bump_at here',
    State.front, State.taken]

/-- An expression behind what the reader has taken. -/
theorem withIn_before {r : Rules} {s : State} {t u : Token} {text rest rest' : List Char}
    {P : Tree → Prop} (before : s.Before text) (leads : Leads text t rest) (sound : IsSound t)
    (reads : ReadsTo (assignment r) t rest P u rest') :
    ∃ e s', withIn (assignment r) s = .ok e s' ∧ P e ∧ s'.At u rest' ∧ s.Like s' := by
  have before' := State.before_inContext (c := { s.context with includesIn := true }).mpr before
  obtain ⟨s₁, look, at_, like⟩ := before'.faces leads sound
  obtain ⟨e, s₂, run, holds, there, like₂⟩ := reads at_
  have run' := (assignment_looked r look (placed?_at at_) like).trans run
  exact ⟨e, _, within_run run', holds, State.at_inContext.mpr there,
    ⟨(like.trans like₂).dialect, rfl, (like.trans like₂).failures⟩⟩

/-- The property of names is read as the name and the literals, up to a comma or a closing
bracket. -/
theorem objectMember_reads (depth n : Nat) {after rest : List Char} {u : Token}
    (follows : Follows u) (leads : Leads after u rest) {names : List String}
    (closed : ∀ name ∈ names, ClosesHalves name.toList) :
    ReadsTo (objectMember (rules (n + 4))) (.word Routes.exportsKey) (behindKey depth after names)
      (IsProperty names) u rest := by
  intro s here
  have sound : IsSound (.punct .leftBracket) := fun _ => nofun
  obtain ⟨span, key⟩ := propertyKey_key (rules (n + 4)) here
  -- Behind the key the reader looks at the colon,
  have colon := leads_mark (x := ':') (p := .colon) (by decide) isSpace_nil
    ([' '] ++ '[' :: inside depth after names)
  have looks (k : Tree) : Looks (canFollowKey k) := looks_current?.bind _
  obtain ⟨s₁, same, at_, like⟩ := (looks (identNode Routes.exportsKey span)).run
    ((here.before_taken keepsModes_key).faces colon (fun _ => nofun))
  have follows_ : canFollowKey (identNode Routes.exportsKey span) s₁ = .ok true s₁ := by
    simp [canFollowKey, current?_at at_]
  -- and behind the colon at the bracket that opens the array.
  have keeps : (Token.punct .colon).KeepsModes :=
    Token.keepsModes_punct (Or.inr (Or.inr (Or.inr rfl)))
  have bracket := leads_mark (x := '[') (p := .leftBracket) (by decide) isSpace_blank
    (inside depth after names)
  have expression := assignment_reads (Or.inr rfl) (fun e named => Or.inr named.1) follows
    (array_reads depth n after closed) leads
  obtain ⟨array, s₂, run, named, there, like₂⟩ :=
    withIn_before (at_.before_taken keeps) bracket sound expression
  have run' : withIn (rules (n + 4)).assignment s₁.taken = .ok array s₂ := run
  refine ⟨.node .keyValue ⟨span.lo, array.span.hi⟩ [identNode Routes.exportsKey span, array], s₂,
    ?_, ⟨rfl, array, rfl, named⟩, there,
    ((s.like_taken.trans like).trans s₁.like_taken).trans like₂⟩
  have key_span : (identNode Routes.exportsKey span).span = span := rfl
  simp [objectMember, position_at here, eatPunct_at here, eatBinary_at here, eatModifier_key here,
    key, same, follows_, eatPunct_at at_, run', key_span]

theorem nameLines_append (depth : Nat) (after : List Char) (name : String) (names : List String) :
    nameLines (depth + 1) (name :: names) ++ ('\n' :: (indentation depth).toList ++ ']' :: after) =
      (indentation (depth + 1)).toList ++
        ((quoted name).toList ++ behind depth after names) := by
  induction names generalizing name with
  | nil => simp [nameLines, behind]
  | cons next names ih =>
    have rest := ih next
    simp only [nameLines, behind, List.append_assoc, List.cons_append, List.nil_append] at rest ⊢
    rw [rest]

/-- What is written for the property is its key and what is read behind the key. -/
theorem propertyText_append (depth : Nat) (after : List Char) (names : List String) :
    propertyText depth names ++ after =
      (indentation depth).toList ++
        (Routes.exportsKey.toList ++ behindKey depth after names) := by
  cases names with
  | nil => simp [propertyText, behindKey, inside]
  | cons name names =>
    have lines := nameLines_append depth after name names
    simp [propertyText, behindKey, inside] at lines ⊢
    exact lines

end Grammar

/-! ## From the pen to the reader -/

/-- The text of a string literal. -/
def literalText? (t : Tree) : Option String :=
  match t.shape with
  | .stringLit value _ => some value
  | _ => none

theorem Grammar.IsNames.texts {names : List String} {array : Tree} (named : IsNames names array) :
    array.parts.map literalText? = names.map some := by
  have texts := congrArg (List.map fun shape => literalText? (.node shape .nowhere [])) named.2
  rw [List.map_map, List.map_map] at texts
  exact texts

/-- The reader stands before the characters, whether it has looked at their first token or not. -/
def Grammar.State.Ahead (s : State) (text : List Char) : Prop :=
  s.Before text ∨ ∃ s₁ x, s₁.Before text ∧ placed? s₁ = .ok x s

theorem Grammar.State.Ahead.faces {s : State} {t : Token} {text rest : List Char}
    (ahead : s.Ahead text) (leads : Leads text t rest) (sound : IsSound t) : s.Faces t rest := by
  obtain before | ⟨s₁, x, before, looked⟩ := ahead
  · exact before.faces leads sound
  · obtain ⟨s', look, here, -⟩ := before.faces leads sound
    rw [looked] at look
    cases look
    exact here.faces

/-- Names are appended to a route: the text that is written for it from there on is read, without a
fault and up to the closing brace, as the property of an array of string literals, which hold the
names in order, unchanged and nothing else. The names may be any texts in which the brackets around
halves of surrogate pairs are closed. -/
theorem withExports_readBack {names : List String}
    (closed : ∀ name ∈ names, ClosesHalves name.toList) (n : Nat) (span : Span) (parts : List Tree)
    {d : Draft} (quiet : Quiet (openRoute (n + 3) span parts d).2.comments) (p : Pen) :
    ∃ text : String,
      ((write (n + 4) (Routes.withExports names (.node .objectLit span parts)) d).2.pen p).text =
        ((openRoute (n + 3) span parts d).2.pen p).text ++ text ∧
      ∀ {s : Grammar.State} {rest : List Char}, s.Ahead (text.toList ++ rest) →
        ∀ m, ∃ t array s', Grammar.objectMember (Grammar.rules (m + 4)) s = .ok t s' ∧
          Routes.propertyName? t = some Routes.exportsKey ∧ Routes.value? t = some array ∧
          array.shape = .arrayLit ∧ array.parts.map literalText? = names.map some ∧
          s'.At (.punct .rightBrace) rest ∧ s.Like s' := by
  refine ⟨_, text_withExports n span parts names quiet p, ?_⟩
  generalize (openRoute (n + 3) span parts d).2.pen p = q
  intro s rest ahead m
  let gap := ['\n'] ++ (indentation (q.indent - 1)).toList
  have whole : (String.ofList (propertyText q.indent names ++
      (['\n'] ++ (indentation (q.indent - 1)).toList ++ ['\x7d']))).toList ++ rest =
        (indentation q.indent).toList ++ (Routes.exportsKey.toList ++
          Grammar.behindKey q.indent (gap ++ '\x7d' :: rest) names) := by
    rw [String.toList_ofList, ← Grammar.propertyText_append]
    simp [gap]
  rw [whole] at ahead
  have key := Grammar.leads_key (isSpace_indentation q.indent)
    ([' '] ++ '[' :: Grammar.inside q.indent (gap ++ '\x7d' :: rest) names)
  have close := Grammar.leads_mark (x := '\x7d') (p := .rightBrace) (by decide)
    (isSpace_line (q.indent - 1)) rest
  have looks : Grammar.Looks (Grammar.objectMember (Grammar.rules (m + 4))) :=
    (Grammar.looks_placed?.bind _).bind _
  obtain ⟨s₁, same, at_, like⟩ := looks.run (ahead.faces key (fun _ => nofun))
  obtain ⟨t, s', run, ⟨named, array, held, isNames⟩, there, like'⟩ :=
    Grammar.objectMember_reads q.indent m (Or.inr (Or.inr rfl)) close closed at_
  exact ⟨t, array, s', same.trans run, named, held, isNames.1, isNames.texts, there,
    like.trans like'⟩

/-- A reader of plain text that stands before characters. -/
def Grammar.State.before (text : List Char) : Grammar.State :=
  { State.start ⟨true, false, false⟩ text with
    scanner := { Scanner.start text with isFirst := false } }

theorem Grammar.State.before_before (text : List Char) : (State.before text).Before text := by
  refine ⟨rfl, rfl, rfl, rfl, ?_⟩
  rintro m ⟨⟩
  rfl

/-- A name with a quotation mark and a backslash at its end, the escape of half a surrogate pair
with brackets and without, and one that looks like it and is that of a character. -/
theorem withExports_readBack_backslashes :
    ∃ text : String,
      ((write 4 (Routes.withExports ["\"a\\", "\\u\x7bd800\x7d\\udfff", "\\ud000"]
          (.node .objectLit .nowhere [])) ⟨[], .empty⟩).2.pen (Pen.start false)).text =
            "\x7b\n" ++ text ∧
        ∃ t array s', Grammar.objectMember (Grammar.rules 4) (.before text.toList) = .ok t s' ∧
          Routes.value? t = some array ∧
          array.parts.map literalText? =
            [some "\"a\\", some "\\u\x7bd800\x7d\\udfff", some "\\ud000"] := by
  have quiet : Quiet (openRoute 3 .nowhere [] ⟨[], .empty⟩).2.comments := ⟨rfl, rfl⟩
  have closed : ∀ name ∈ ["\"a\\", "\\u\x7bd800\x7d\\udfff", "\\ud000"],
      ClosesHalves name.toList := by
    decide +kernel
  obtain ⟨text, written, read⟩ :=
    withExports_readBack closed 0 .nowhere [] quiet (Pen.start false)
  have opened : ((openRoute 3 .nowhere [] ⟨[], .empty⟩).2.pen (Pen.start false)).text = "\x7b\n" := by
    decide +kernel
  have ahead : (Grammar.State.before text.toList).Ahead (text.toList ++ []) := by
    rw [List.append_nil]
    exact Or.inl (Grammar.State.before_before _)
  obtain ⟨t, array, s', run, -, held, -, texts, -⟩ := read ahead 0
  exact ⟨text, opened ▸ written, t, array, s', run, held, texts⟩

end RouteManifest.Script

namespace RouteManifest.Routes

open Script

/-! ## A name that is altered -/

/-- The texts of the array that the last property of the node at an address holds. -/
def heldTexts? (module : Tree) (address : Address) : Option (List (Option String)) := do
  let route ← module.at? address
  let property ← route.parts.getLast?
  let array ← value? property
  return array.parts.map literalText?

/-- The names that are planned for the node at an address of a file, and the texts that the text
printed for the plan holds there. -/
def plannedAndHeld? (s : Setting) (address : Address) :
    Option (List String × List (Option String)) := do
  let m ← s.file.read.toOption
  let plan ← (s.modulePlan m.tree).toOption
  let text := s.file.print s.project.root false { m with tree := plan.carryOut m.tree }
  let m' ← (Module.ofText (.ofPath s.file.path)
    (RoutesFile.ofText s.file.path text).text).toOption
  return (← plan.namesAt address, ← heldTexts? m'.tree address)

theorem toOption_eq_some {ε α : Type} {x : Except ε α} {a : α} (h : x.toOption = some a) :
    x = .ok a := by
  cases x with
  | error _ => cases h
  | ok _ =>
    cases h
    rfl

/-- A module that exports under a text in which half a surrogate pair begins in brackets and goes
on. -/
def halfNamingFiles : FileTree :=
  ⟨[(["x.ts"], .file "const a=1;export\x7ba as '\\\\u\x7bd8000\x7d'\x7d".toUTF8)], []⟩

/-- The compiled text of a file with one route holds another name than the one that is due. -/
theorem heldTexts?_ne_due :
    ¬ ∀ (p : Project) (f : RoutesFile) (m m' : Module) (received : Address → Option (List String))
      (text : String), f.read = .ok m → (Setting.mk p f).Due m.tree received →
      (compile p f false).1 = .ok text →
      Module.ofText (.ofPath f.path) (RoutesFile.ofText f.path text).text = .ok m' →
      ∀ address names, received address = some names →
        heldTexts? m'.tree address = some (names.map some) := by
  intro kept
  have told : plannedAndHeld? ⟨⟨halfNamingFiles, ⟨"/"⟩⟩, deferringFile⟩ [1, 0, 1, 0, 0] =
      some (["\\u\x7bd8000\x7d"], [some (String.singleton (Char.ofNat 0xD8000))]) := by
    decide +kernel
  simp only [plannedAndHeld?, Option.bind_eq_bind, Option.bind_eq_some_iff, Option.pure_def,
    Option.some.injEq, Prod.mk.injEq] at told
  obtain ⟨m, read, plan, planned, m', reread, names, due, held, there, rfl, rfl⟩ := told
  have read := toOption_eq_some read
  have planned := toOption_eq_some planned
  have due' := (Setting.due_iff planned plan.namesAt).mpr rfl
  have compiled : (compile ⟨halfNamingFiles, ⟨"/"⟩⟩ deferringFile false).1 = _ :=
    (compile_eq _ _ _).trans
      (bind_eq_ok_iff.mpr ⟨m, read, bind_eq_ok_iff.mpr ⟨plan, planned, rfl⟩⟩)
  have same := kept _ _ m m' plan.namesAt _ read due' compiled (toOption_eq_some reread) _ _ due
  rw [there] at same
  exact absurd same (by decide)

end RouteManifest.Routes
