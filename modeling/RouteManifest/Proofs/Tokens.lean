import RouteManifest.Proofs.Quoting

/-!
# Runs of the scanner over tokens

What the scanner makes of blanks and a token behind them: it finds the token and stands behind it,
and it records no fault. Only tokens are looked at that stand among others, outside of templates and
tags, and that open and close nothing.
-/

namespace RouteManifest.Script

/-- In this mode tokens stand between blanks. -/
def Mode.isPlain : Mode → Bool
  | blockBrace | exprBrace | templateHole | stmtParen _ | exprParen => true
  | _ => false

/-- The scanner is past the start of its text, where tokens stand between blanks. -/
structure Scanner.Plain (s : Scanner) : Prop where
  started : s.isFirst = false
  mode : ∀ m, s.modes.head? = some m → m.isPlain

namespace Scan

/-- Characters that only part tokens. -/
def IsSpace (cs : List Char) : Prop := ∀ x ∈ cs, (isBlank x || isLineEnd x) = true

/-- A character that begins a token, and no comment or tag. -/
def Opens (x : Char) : Prop := (isBlank x || isLineEnd x) = false ∧ x ≠ '/' ∧ x ≠ '<'

instance : DecidablePred Opens := fun _ => inferInstanceAs (Decidable (_ ∧ _))

theorem blanks_run {s : Scanner} {gap rest : List Char} (isSpace : IsSpace gap)
    (ahead : s.rest = gap ++ rest)
    (ends : ∀ x, rest.head? = some x → (isBlank x || isLineEnd x) = false) :
    ∃ lineBreak, blanks s = .ok () { s.past gap.length rest with lineBreak } := by
  rw [blanks, run_bind_ok (takeWhile_run_append isSpace ends ahead)]
  split
  · exact ⟨_, rfl⟩
  · exact ⟨_, rfl⟩

theorem skipSpace_run {s : Scanner} {gap rest : List Char} {x : Char} (isSpace : IsSpace gap)
    (ahead : s.rest = gap ++ x :: rest) (opens : Opens x) :
    ∃ lineBreak, skipSpace s = .ok () { s.past gap.length (x :: rest) with lineBreak } := by
  obtain ⟨lineBreak, run⟩ := blanks_run isSpace ahead
    (fun y same => Option.some.inj same ▸ opens.1)
  refine ⟨lineBreak, ?_⟩
  rw [skipSpace, run_bind_ok (get_run s), space, run_bind_ok run, run_bind_ok (isChar_run _ _)]
  simp [opens.2.1]
  rfl

/-- Blanks and a token behind them. -/
theorem rawToken_run {c : Setting} {s : Scanner} {t : Token} {gap text rest : List Char}
    (plain : s.Plain) (isSpace : IsSpace gap) (ahead : s.rest = gap ++ (text ++ rest))
    (opens : ∃ x, text.head? = some x ∧ Opens x)
    (reads : ∀ (s' : Scanner) (fuel : Nat), s'.rest = text ++ rest →
      plainToken c (fuel + 1) s' = .ok (some t) (s'.past text.length rest)) :
    ∃ s', rawToken c s = .ok (some t) s' ∧ s'.rest = rest ∧ s'.modes = s.modes ∧
      s'.failures = s.failures ∧ s'.isFirst = false := by
  obtain ⟨x, head, opens⟩ := opens
  obtain ⟨tail, rfl⟩ := List.head?_eq_some_iff.mp head
  have noShebang : s.isFirst = false := plain.started
  obtain ⟨lineBreak, run⟩ := skipSpace_run
    (s := { s with lineBreak := s.isFirst, isFirst := false }) isSpace ahead opens
  have free : ((s.modes.head?.map Mode.keepsBlanks).getD false) = false := by
    cases top : s.modes.head? with
    | none => rfl
    | some m =>
      have := plain.mode m top
      cases m <;> simp_all [Mode.isPlain, Mode.keepsBlanks]
  -- That the mode is no template is what the last case split below asks for.
  have noTemplate : ∀ n, s.modes.head? ≠ some (.template n) := by
    intro n top
    exact absurd (plain.mode _ top) (by simp [Mode.isPlain])
  have noTag : s.modes.head? ≠ some .tagBody ∧ s.modes.head? ≠ some .openingTag ∧
      s.modes.head? ≠ some .closingTag := by
    refine ⟨?_, ?_, ?_⟩
    all_goals
      intro top
      exact absurd (plain.mode _ top) (by simp [Mode.isPlain])
  rw [rawToken, run_bind_ok (get_run s)]
  simp only [noShebang, Bool.false_eq_true, if_false]
  rw [run_bind_ok (modify_run _ s), run_bind_ok (get_run _)]
  simp only [free, Bool.not_false, if_true]
  rw [run_bind_ok run, run_bind_ok (modify_run _ _), run_bind_ok (get_run _),
    run_bind_ok (char?_run _)]
  simp only [List.head?_cons, Scanner.rest_past, noTag, if_false, opens.2.2]
  -- A tag begins with an angle bracket, which the token does not.
  split
  · simp only [decide_false, Bool.or_self, Bool.and_false, Bool.false_and, Bool.false_eq_true,
      if_false]
    rw [run_bind_ok (get_run _), run_bind_ok (next?_run _)]
    exact ⟨_, reads _ _ rfl, rfl, rfl, rfl, rfl⟩
  · exact ⟨_, reads _ _ rfl, rfl, rfl, rfl, rfl⟩

end Scan

/-- The token opens and closes nothing. -/
def Token.KeepsModes (t : Token) : Prop :=
  ∀ (c : Scan.Setting) (s : Scanner) (start : Nat), (∀ m, s.modes.head? = some m → m.isPlain) →
    (Scan.afterToken c s start t).1 = s.modes

namespace Scanner

/-- Whatever the context, the scanner finds the token next and stands before the rest. -/
def Meets (s : Scanner) (dialect : Dialect) (t : Token) (rest : List Char) : Prop :=
  ∀ context, ∃ p s', s.next ⟨dialect, context⟩ = (some p, s') ∧ p.token = t ∧ s'.rest = rest ∧
    s'.failures = s.failures ∧ (t.KeepsModes → s'.Plain)

theorem next_of_rawToken {c : Scan.Setting} {s s' : Scanner} {t : Token}
    (run : Scan.rawToken c s = .ok (some t) s') :
    s.next c =
      (some (s'.accept c t (s.rest.drop (s'.tokenStart - s.position))).1,
        (s'.accept c t (s.rest.drop (s'.tokenStart - s.position))).2) := by
  have same : (Scan.rawToken c).run s = .ok (some t) s' := run
  rw [next, same]

/-- A token behind blanks is met where it is read. -/
theorem meets {s : Scanner} {t : Token} {gap text rest : List Char} (dialect : Dialect)
    (plain : s.Plain) (isSpace : Scan.IsSpace gap) (ahead : s.rest = gap ++ (text ++ rest))
    (opens : ∃ x, text.head? = some x ∧ Scan.Opens x)
    (reads : ∀ (c : Scan.Setting) (s' : Scanner) (fuel : Nat), s'.rest = text ++ rest →
      Scan.plainToken c (fuel + 1) s' = .ok (some t) (s'.past text.length rest)) :
    s.Meets dialect t rest := by
  intro context
  obtain ⟨s', run, behind, modes, failures, started⟩ :=
    Scan.rawToken_run plain isSpace ahead opens (reads ⟨dialect, context⟩)
  refine ⟨_, _, next_of_rawToken run, rfl, behind, failures, fun keeps => ⟨started, ?_⟩⟩
  have mode : ∀ m, s'.modes.head? = some m → m.isPlain := modes ▸ plain.mode
  intro m top
  have same := keeps ⟨dialect, context⟩ s' s'.tokenStart mode
  exact mode m (same ▸ top)

end Scanner

/-! ## Single tokens -/

namespace Scan

/-- A mark of one character. -/
def marks : List (Char × Punct) :=
  [('[', .leftBracket), (']', .rightBracket), (',', .comma), (':', .colon), ('\x7d', .rightBrace)]

theorem plainToken_mark {x : Char} {p : Punct} (isMark : (x, p) ∈ marks) (c : Setting) (fuel : Nat)
    {s : Scanner} {rest : List Char} (ahead : s.rest = x :: rest) :
    plainToken c (fuel + 1) s = .ok (some (.punct p)) (s.past 1 rest) := by
  have one : (do
      bump
      return some (.punct p) : Scan (Option Token)) s = .ok (some (.punct p)) (s.past 1 rest) :=
    run_bind_ok (bump_run ahead)
  rw [plainToken, run_bind_ok (position_run s), run_bind_ok (char?_run s), ahead]
  simp only [marks, List.mem_cons, Prod.mk.injEq, List.not_mem_nil, or_false] at isMark
  rcases isMark with ⟨rfl, rfl⟩ | ⟨rfl, rfl⟩ | ⟨rfl, rfl⟩ | ⟨rfl, rfl⟩ | ⟨rfl, rfl⟩
  all_goals exact one

/-- A quoted text is a string. -/
theorem plainToken_quoted {text : String} (closed : Printer.ClosesHalves text.toList) (c : Setting)
    (fuel : Nat) {s : Scanner} {rest : List Char}
    (ahead : s.rest = (Printer.quoted text).toList ++ rest) :
    plainToken c (fuel + 1) s =
      .ok (some (.string text (Printer.quoted text)))
        (s.past (Printer.quoted text).length rest) := by
  have run : (some <$> stringLiteral c (Printer.mark text) : Scan (Option Token)) s = _ :=
    run_bind_ok (Printer.stringLiteral_quoted c closed ahead)
  rw [plainToken, run_bind_ok (position_run s), run_bind_ok (char?_run s), ahead,
    Printer.toList_quoted]
  simp only [List.cons_append, List.head?_cons]
  rcases Printer.isMark_mark text with same | same
  · rw [same] at run ⊢
    exact run
  · rw [same] at run ⊢
    exact run

/-- A word without escapes, up to what cannot continue it. -/
theorem word_run (c : Setting) {s : Scanner} {text rest : List Char}
    (continues : ∀ x ∈ text, Text.continuesIdentifier x)
    (ends : ∀ x, rest.head? = some x → Text.continuesIdentifier x = false)
    (noEscape : rest.head? ≠ some '\\') (ahead : s.rest = text ++ rest) :
    word c s = .ok (.word (String.ofList text)) (s.past text.length rest) := by
  have taken := takeWhile_run_append continues ends ahead
  have gathered : wordText c s = .ok (text, false) (s.past text.length rest) := by
    rw [wordText, run_bind_ok (get_run s), wordText.go, run_bind_ok taken,
      run_bind_ok (isChar_run _ _)]
    simp only [Scanner.rest_past, noEscape, decide_false, Bool.false_eq_true, if_false]
    rfl
  rw [word, run_bind_ok (position_run s), run_bind_ok gathered]
  rfl

/-- A word that begins with an underscore. -/
theorem plainToken_word (c : Setting) (fuel : Nat) {s : Scanner} {text rest : List Char}
    (continues : ∀ x ∈ '_' :: text, Text.continuesIdentifier x)
    (ends : ∀ x, rest.head? = some x → Text.continuesIdentifier x = false)
    (noEscape : rest.head? ≠ some '\\') (ahead : s.rest = '_' :: text ++ rest) :
    plainToken c (fuel + 1) s =
      .ok (some (.word (String.ofList ('_' :: text)))) (s.past (text.length + 1) rest) := by
  have run : (some <$> word c : Scan (Option Token)) s = _ :=
    run_bind_ok (word_run c continues ends noEscape ahead)
  rw [plainToken, run_bind_ok (position_run s), run_bind_ok (char?_run s), ahead]
  exact run

end Scan

/-! ## Tokens that open and close nothing -/

theorem Token.keepsModes_string (value raw : String) : (Token.string value raw).KeepsModes :=
  fun _ _ _ _ => rfl

theorem Token.keepsModes_punct {p : Punct}
    (isMark : p = .leftBracket ∨ p = .rightBracket ∨ p = .comma ∨ p = .colon) :
    (Token.punct p).KeepsModes := by
  intro c s start mode
  rcases isMark with rfl | rfl | rfl | rfl
  · rfl
  · rfl
  · rfl
  · have noFunction : ¬(s.modes.head? = some .functionExpr ∨ s.modes.head? = some .classExpr) := by
      rintro (top | top)
      · exact absurd (mode _ top) (by simp [Mode.isPlain])
      · exact absurd (mode _ top) (by simp [Mode.isPlain])
    change (if _ then (s.modes.tail, true) else (s.modes, true)).1 = s.modes
    rw [if_neg (by simpa using noFunction)]

/-- A word that is neither kept by the language nor `of`. -/
theorem Token.keepsModes_word {w : String} (free : isReserved w = false) (notOf : w ≠ "of") :
    (Token.word w).KeepsModes := by
  intro c s start _
  have noKeyword : isKeyword w = false := by
    simp only [isReserved, reservedWords, List.contains_append, Bool.or_eq_false_iff] at free
    exact free.1.1
  have noLiteral : literalWords.contains w = false := by
    simp only [isReserved, reservedWords, List.contains_append, Bool.or_eq_false_iff] at free
    exact free.1.2
  have noFunction : w ≠ "function" := fun same => absurd (same ▸ noKeyword) (by decide)
  have noClass : w ≠ "class" := fun same => absurd (same ▸ noKeyword) (by decide)
  unfold Scan.afterToken
  simp only [noKeyword, noLiteral, notOf, decide_false, Bool.false_and, Bool.or_self,
    Bool.false_eq_true, if_false]
  cases s.lastRole with
  | none => rfl
  | some role => cases role <;> rfl

end RouteManifest.Script
