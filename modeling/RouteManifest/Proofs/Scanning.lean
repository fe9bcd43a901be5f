import RouteManifest.Script.Lexer

/-!
# Runs of the scanner

What the scanner does at given characters: what it finds there, and that it stands behind them
afterwards, with all else as it was. Digits are read as far as they may be, an escape is read as
what it stands for, and a string is read piece by piece.
-/

namespace RouteManifest.Script

/-- Work goes on from where the work before it ended. -/
theorem run_bind_ok {ε σ α β : Type} {p : EStateM ε σ α} {f : α → EStateM ε σ β} {s s' : σ} {a : α}
    (h : p s = .ok a s') : (p >>= f) s = f a s' := by
  change EStateM.bind p f s = _
  rw [EStateM.bind, h]

@[simp] theorem get_run {ε σ : Type} (s : σ) : (get : EStateM ε σ σ) s = .ok s s := rfl

@[simp] theorem modify_run {ε σ : Type} (f : σ → σ) (s : σ) :
    (modify f : EStateM ε σ PUnit) s = .ok ⟨⟩ (f s) := rfl

theorem tryCatch_run {ε σ α : Type} {p : EStateM ε σ α} {handle : ε → EStateM ε σ α} {s s' : σ}
    {a : α} (h : p s = .ok a s') : (tryCatch p handle : EStateM ε σ α) s = .ok a s' := by
  change EStateM.tryCatch p handle s = _
  delta EStateM.tryCatch
  simp only [h]

/-- The scanner so many characters further on, before what is left. -/
def Scanner.past (s : Scanner) (n : Nat) (rest : List Char) : Scanner :=
  { s with rest := rest, position := s.position + n }

@[simp] theorem Scanner.rest_past (s : Scanner) (n : Nat) (rest : List Char) :
    (s.past n rest).rest = rest := rfl

@[simp] theorem Scanner.position_past (s : Scanner) (n : Nat) (rest : List Char) :
    (s.past n rest).position = s.position + n := rfl

@[simp] theorem Scanner.past_past (s : Scanner) (m n : Nat) (rest rest' : List Char) :
    (s.past m rest).past n rest' = s.past (m + n) rest' := by
  simp [Scanner.past, Nat.add_assoc]

theorem Scanner.past_zero {s : Scanner} {rest : List Char} (left : s.rest = rest) :
    s.past 0 rest = s := by
  subst left
  rfl

namespace Scan

theorem char?_run (s : Scanner) : char? s = .ok s.rest.head? s := rfl

theorem next?_run (s : Scanner) : next? s = .ok s.rest.tail.head? s := rfl

theorem position_run (s : Scanner) : position s = .ok s.position s := rfl

theorem isChar_run (x : Char) (s : Scanner) : isChar x s = .ok (s.rest.head? = some x) s := rfl

theorem bump_run {s : Scanner} {x : Char} {rest : List Char} (left : s.rest = x :: rest) :
    bump s = .ok () (s.past 1 rest) := by
  change EStateM.Result.ok () ({ s with rest := s.rest.tail, position := s.position + 1 }) = _
  rw [left]
  rfl

theorem skip_run {s : Scanner} {taken rest : List Char} (left : s.rest = taken ++ rest) :
    skip taken.length s = .ok () (s.past taken.length rest) := by
  change EStateM.Result.ok () ({ s with
    rest := s.rest.drop taken.length
    position := s.position + min taken.length s.rest.length }) = _
  have all : min taken.length (taken ++ rest).length = taken.length := by
    rw [List.length_append]
    omega
  rw [left, List.drop_left, all]
  rfl

theorem eat_run {s : Scanner} {x : Char} {rest : List Char} (left : s.rest = x :: rest) :
    eat x s = .ok true (s.past 1 rest) := by
  rw [eat, run_bind_ok (isChar_run x s), left]
  simp only [List.head?_cons, decide_true, if_true]
  rw [run_bind_ok (bump_run left)]
  rfl

theorem eat_run_of_ne {s : Scanner} {x : Char} (other : s.rest.head? ≠ some x) :
    eat x s = .ok false s := by
  rw [eat, run_bind_ok (isChar_run x s)]
  simp only [other, decide_false, Bool.false_eq_true, if_false]
  rfl

theorem takeWhile_run {s : Scanner} {p : Char → Bool} :
    takeWhile p s = .ok (s.rest.takeWhile p)
      (s.past (s.rest.takeWhile p).length (s.rest.drop (s.rest.takeWhile p).length)) := rfl

/-- Characters are taken up to one of another kind. -/
theorem takeWhile_run_append {s : Scanner} {p : Char → Bool} {text rest : List Char}
    (all : ∀ x ∈ text, p x) (ends : ∀ x, rest.head? = some x → p x = false)
    (ahead : s.rest = text ++ rest) : takeWhile p s = .ok text (s.past text.length rest) := by
  have stops : rest.takeWhile p = [] := by
    cases rest with
    | nil => rfl
    | cons x rest => exact List.takeWhile_cons_of_neg (by simp [ends x rfl])
  have taken : s.rest.takeWhile p = text := by
    rw [ahead, List.takeWhile_append_of_pos all, stops, List.append_nil]
  rw [takeWhile_run, taken, ahead, List.drop_left]

/-! ## Digits -/

/-- The value of a digit in base sixteen. -/
def hexValue (x : Char) : Nat := (digitValue? 16 x).getD 0

/-- A digit in base sixteen. -/
def IsHex (x : Char) : Prop := (digitValue? 16 x).isSome

instance : DecidablePred IsHex := fun x => inferInstanceAs (Decidable ((digitValue? 16 x).isSome))

theorem isHex_of_all {ds : List Char} (all : ds.all fun x => decide (IsHex x)) :
    ∀ x ∈ ds, IsHex x :=
  fun x member => of_decide_eq_true (List.all_eq_true.mp all x member)

theorem IsHex.digitValue? {x : Char} (hex : IsHex x) : digitValue? 16 x = some (hexValue x) := by
  obtain ⟨v, told⟩ := Option.isSome_iff_exists.mp hex
  rw [hexValue, told]
  rfl

theorem IsHex.ne {x y : Char} (hex : IsHex x) (other : Scan.digitValue? 16 y = none) : x ≠ y := by
  rintro rfl
  rw [IsHex, other] at hex
  cases hex

theorem hexValue_lt (x : Char) : hexValue x < 16 := by
  unfold hexValue
  cases told : digitValue? 16 x with
  | none => exact Nat.zero_lt_succ _
  | some v =>
    obtain ⟨less, same⟩ := Option.ite_none_right_eq_some.mp told
    rw [← Option.some.inj same]
    exact less

/-- One digit more; the last one if there may be no further one. -/
theorem digits_go_step (c : Setting) {limit start fuel : Nat} {previous : Option Char}
    {acc : List Nat} {s : Scanner} {x : Char} {rest : List Char} (hex : IsHex x)
    (left : s.rest = x :: rest) :
    digits.go c 16 limit start (fuel + 1) previous acc s =
      if limit = acc.length + 1 then .ok (hexValue x :: acc).reverse (s.past 1 rest)
      else digits.go c 16 limit start fuel (some x) (hexValue x :: acc) (s.past 1 rest) := by
  have noSeparator : x ≠ '_' := hex.ne (by decide)
  rw [digits.go, run_bind_ok (char?_run s), left]
  simp only [List.head?_cons, hex.digitValue?]
  rw [run_bind_ok (bump_run left)]
  split
  · rfl
  · rfl

/-- Digits are read up to as many as there may be, or up to what is none. -/
theorem digits_go_run (c : Setting) {limit start fuel : Nat} {previous : Option Char}
    {acc : List Nat} {s : Scanner} {xs rest : List Char} (hex : ∀ x ∈ xs, IsHex x)
    (left : s.rest = xs ++ rest) (enough : xs.length < fuel)
    (stops : (limit = acc.length + xs.length ∧ xs ≠ []) ∨
      (limit = 0 ∧ ∃ y, rest.head? = some y ∧ digitValue? 16 y = none ∧ y ≠ '_')) :
    digits.go c 16 limit start fuel previous acc s =
      .ok (acc.reverse ++ xs.map hexValue) (s.past xs.length rest) := by
  induction xs generalizing acc s fuel previous with
  | nil =>
    obtain ⟨_, none_left⟩ | ⟨rfl, y, next, none, noSeparator⟩ := stops
    · exact absurd rfl none_left
    · match fuel, enough with
      | fuel + 1, _ =>
        rw [List.nil_append] at left
        rw [digits.go, run_bind_ok (char?_run s), left, next]
        simp only [none, List.map_nil, List.append_nil, List.length_nil]
        rw [Scanner.past_zero left]
        rfl
  | cons x xs ih =>
    match fuel, enough with
    | fuel + 1, enough =>
      rw [List.forall_mem_cons] at hex
      rw [List.length_cons] at enough stops
      rw [digits_go_step c hex.1 left]
      by_cases last : limit = acc.length + 1
      · have alone : xs = [] := by
          rcases stops with ⟨same, _⟩ | ⟨none, _⟩
          · exact List.length_eq_zero_iff.mp (by omega)
          · omega
        subst alone
        rw [if_pos last]
        simp
      · have further : (limit = (hexValue x :: acc).length + xs.length ∧ xs ≠ []) ∨
            (limit = 0 ∧ ∃ y, rest.head? = some y ∧ digitValue? 16 y = none ∧ y ≠ '_') := by
          rcases stops with ⟨same, _⟩ | open_
          · refine Or.inl ⟨by rw [List.length_cons]; omega, ?_⟩
            rintro rfl
            exact last (by simpa using same)
          · exact Or.inr open_
        rw [if_neg last, ih hex.2 rfl (by omega) further]
        simp [Nat.add_comm]

theorem digits_run (c : Setting) {limit : Nat} {s : Scanner} {xs rest : List Char}
    (hex : ∀ x ∈ xs, IsHex x) (left : s.rest = xs ++ rest)
    (stops : (limit = xs.length ∧ xs ≠ []) ∨
      (limit = 0 ∧ ∃ y, rest.head? = some y ∧ digitValue? 16 y = none ∧ y ≠ '_')) :
    digits c 16 limit s = .ok (xs.map hexValue) (s.past xs.length rest) := by
  have enough : xs.length < s.rest.length + 1 := by
    rw [left, List.length_append]
    omega
  have run : digits.go c 16 limit s.position (s.rest.length + 1) none [] s = _ :=
    digits_go_run c hex left enough (by simpa using stops)
  exact run

/-! ## Escapes -/

/-- What an escape of a number stands for: a character, or itself if there is none. -/
def standsFor (text : List Char) (digits : List Char) : List Char :=
  match scalar? (valueOf 16 (digits.map hexValue)) with
  | some x => [x]
  | none => text

theorem valueOf_lt {ds : List Char} (four : ds.length = 4) :
    valueOf 16 (ds.map hexValue) < 0x10000 := by
  match ds, four with
  | [d, x, y, z], _ =>
    have := hexValue_lt d
    have := hexValue_lt x
    have := hexValue_lt y
    have := hexValue_lt z
    simp only [valueOf, List.map_cons, List.map_nil, List.foldl_cons, List.foldl_nil]
    omega

/-- Digits hold no bracket. -/
theorem takeWhile_of_hex {ds : List Char} (hex : ∀ x ∈ ds, IsHex x) (rest : List Char) :
    (ds ++ rest).takeWhile (fun x => decide ¬ x = '\x7d') =
      ds ++ rest.takeWhile (fun x => decide ¬ x = '\x7d') := by
  refine List.takeWhile_append_of_pos fun x member => ?_
  simpa using (hex x member).ne (by decide)

/-- Four digits behind a letter. -/
theorem unicodeEscape_run (c : Setting) {s : Scanner} {ds rest : List Char}
    (hex : ∀ x ∈ ds, IsHex x) (four : ds.length = 4) (left : s.rest = 'u' :: (ds ++ rest)) :
    unicodeEscape c s =
      .ok (standsFor (['\\', 'u'] ++ ds) ds) (s.past 5 rest) := by
  have some_digits : ds ≠ [] := List.ne_nil_of_length_eq_add_one four
  have not_curly : (s.past 1 (ds ++ rest)).rest.head? ≠ some '\x7b' := by
    obtain ⟨d, more, rfl⟩ := List.exists_cons_of_ne_nil some_digits
    simpa using (hex d List.mem_cons_self).ne (by decide)
  have number := digits_run c hex (Scanner.rest_past s 1 (ds ++ rest))
    (Or.inl ⟨four.symm, some_digits⟩)
  have small : ¬ valueOf 16 (ds.map hexValue) > 0x10FFFF := by
    have := valueOf_lt four
    omega
  have full : (ds.map hexValue).isEmpty = false := by simpa using some_digits
  rw [unicodeEscape, run_bind_ok (bump_run left), run_bind_ok (eat_run_of_ne not_curly),
    run_bind_ok (get_run _)]
  simp only [Bool.false_eq_true, if_false]
  rw [run_bind_ok number, run_bind_ok (position_run _)]
  simp only [Bool.false_and, Bool.false_eq_true, if_false, full, List.length_map, four, ne_eq,
    not_true_eq_false, decide_false, Bool.not_false, Bool.and_false, Bool.or_false, small]
  rw [standsFor]
  cases scalar? (valueOf 16 (ds.map hexValue)) with
  | some x =>
    simp only [Scanner.past_past]
    rfl
  | none =>
    simp only [pure_bind]
    have back : (modify fun s' => { s' with
          rest := (s.past 1 (ds ++ rest)).rest
          position := (s.past 1 (ds ++ rest)).position } : Scan Unit)
        ((s.past 1 (ds ++ rest)).past 4 rest) = .ok () (s.past 1 (ds ++ rest)) := rfl
    have taken : (List.take 4 (s.past 1 (ds ++ rest)).rest).takeWhile
        (fun x => decide ¬ x = '\x7d') = ds := by
      rw [Scanner.rest_past, List.take_left' four]
      simpa using takeWhile_of_hex hex []
    rw [run_bind_ok back, taken, run_bind_ok (skip_run rfl), Scanner.past_past, four]
    rfl

/-- Four digits in brackets. -/
theorem unicodeEscape_run_curly (c : Setting) {s : Scanner} {ds rest : List Char}
    (hex : ∀ x ∈ ds, IsHex x) (four : ds.length = 4)
    (left : s.rest = 'u' :: '\x7b' :: (ds ++ '\x7d' :: rest)) :
    unicodeEscape c s =
      .ok (standsFor (['\\', 'u', '\x7b'] ++ ds ++ ['\x7d']) ds) (s.past 7 rest) := by
  have some_digits : ds ≠ [] := List.ne_nil_of_length_eq_add_one four
  have number := digits_run c hex (Scanner.rest_past s 2 (ds ++ '\x7d' :: rest))
    (Or.inr ⟨rfl, '\x7d', rfl, by decide, by decide⟩)
  have small : ¬ valueOf 16 (ds.map hexValue) > 0x10FFFF := by
    have := valueOf_lt four
    omega
  have small' : ¬ valueOf 16 (ds.map hexValue) ≥ Nat.pow 2 32 := by
    have := valueOf_lt four
    simp only [Nat.pow_eq, Nat.reducePow]
    omega
  have full : (ds.map hexValue).isEmpty = false := by simpa using some_digits
  rw [unicodeEscape, run_bind_ok (bump_run left), run_bind_ok (eat_run (Scanner.rest_past _ _ _)),
    Scanner.past_past, run_bind_ok (get_run _)]
  simp only [if_true]
  rw [run_bind_ok number, run_bind_ok (position_run _)]
  simp only [small', decide_false, Bool.and_false, Bool.false_eq_true, if_false, full,
    Bool.not_true, Bool.false_and, Bool.or_false, small]
  rw [standsFor]
  cases scalar? (valueOf 16 (ds.map hexValue)) with
  | some x =>
    simp only [pure_bind]
    rw [run_bind_ok (eat_run (Scanner.rest_past _ _ _))]
    simp only [Scanner.past_past, four]
    rfl
  | none =>
    simp only [pure_bind]
    have back : (modify fun s' => { s' with
          rest := (s.past 2 (ds ++ '\x7d' :: rest)).rest
          position := (s.past 2 (ds ++ '\x7d' :: rest)).position } : Scan Unit)
        ((s.past 2 (ds ++ '\x7d' :: rest)).past ds.length ('\x7d' :: rest)) =
          .ok () (s.past 2 (ds ++ '\x7d' :: rest)) := rfl
    have taken : (List.take 6 (s.past 2 (ds ++ '\x7d' :: rest)).rest).takeWhile
        (fun x => decide ¬ x = '\x7d') = ds := by
      rw [Scanner.rest_past, show 6 = ds.length + 2 by omega, List.take_length_add_append,
        takeWhile_of_hex hex]
      simp
    simp only [ne_eq]
    rw [run_bind_ok back, taken, run_bind_ok (skip_run rfl),
      run_bind_ok (eat_run (Scanner.rest_past _ _ _))]
    simp only [Scanner.past_past, four]
    rfl

theorem escape_run_unicode (c : Setting) {s : Scanner} {ds rest : List Char}
    (hex : ∀ x ∈ ds, IsHex x) (four : ds.length = 4)
    (left : s.rest = '\\' :: 'u' :: (ds ++ rest)) :
    escape c false s = .ok (standsFor (['\\', 'u'] ++ ds) ds) (s.past 6 rest) := by
  have run := unicodeEscape_run c hex four (Scanner.rest_past s 1 ('u' :: (ds ++ rest)))
  rw [escape, run_bind_ok (position_run s), run_bind_ok (bump_run left),
    run_bind_ok (char?_run _)]
  simp only [Scanner.rest_past, List.head?_cons]
  rw [tryCatch_run run, Scanner.past_past]

theorem escape_run_curly (c : Setting) {s : Scanner} {ds rest : List Char}
    (hex : ∀ x ∈ ds, IsHex x) (four : ds.length = 4)
    (left : s.rest = '\\' :: 'u' :: '\x7b' :: (ds ++ '\x7d' :: rest)) :
    escape c false s =
      .ok (standsFor (['\\', 'u', '\x7b'] ++ ds ++ ['\x7d']) ds) (s.past 8 rest) := by
  have run := unicodeEscape_run_curly c hex four
    (Scanner.rest_past s 1 ('u' :: '\x7b' :: (ds ++ '\x7d' :: rest)))
  rw [escape, run_bind_ok (position_run s), run_bind_ok (bump_run left),
    run_bind_ok (char?_run _)]
  simp only [Scanner.rest_past, List.head?_cons]
  rw [tryCatch_run run, Scanner.past_past]

theorem escape_run_hex (c : Setting) {s : Scanner} {ds rest : List Char}
    (hex : ∀ x ∈ ds, IsHex x) (two : ds.length = 2)
    (left : s.rest = '\\' :: 'x' :: (ds ++ rest)) :
    escape c false s = .ok [Char.ofNat (valueOf 16 (ds.map hexValue))] (s.past 4 rest) := by
  have number := digits_run c hex (Scanner.rest_past s 2 (ds ++ rest))
    (Or.inl ⟨two.symm, List.ne_nil_of_length_eq_add_one two⟩)
  rw [escape, run_bind_ok (position_run s), run_bind_ok (bump_run left),
    run_bind_ok (char?_run _)]
  simp only [Scanner.rest_past, List.head?_cons]
  rw [run_bind_ok (bump_run (Scanner.rest_past _ _ _)), Scanner.past_past, run_bind_ok number]
  simp only [List.length_map, two, if_true, Scanner.past_past]
  rfl

/-- A zero is no number if no digit follows. -/
theorem escape_run_null (c : Setting) {s : Scanner} {rest : List Char}
    (last : rest.head?.bind (digitValue? 8) = none) (left : s.rest = '\\' :: '0' :: rest) :
    escape c false s = .ok ['\x00'] (s.past 2 rest) := by
  rw [escape, run_bind_ok (position_run s), run_bind_ok (bump_run left),
    run_bind_ok (char?_run _)]
  -- the character is a digit and no letter of an escape
  change (bump >>= fun _ => _ : Scan (List Char)) _ = _
  rw [run_bind_ok (bump_run (Scanner.rest_past _ _ _)), Scanner.past_past,
    run_bind_ok (char?_run _)]
  simp only [Scanner.rest_past, last]
  rfl

/-- The escapes of one letter or mark. -/
def letters : List (Char × Char) :=
  [('b', '\x08'), ('f', '\x0c'), ('n', '\n'), ('r', '\r'), ('v', '\x0b'), ('\\', '\\'),
    ('"', '"'), ('\'', '\'')]

theorem escape_run_letter (c : Setting) {s : Scanner} {x y : Char} {rest : List Char}
    (letter : (x, y) ∈ letters) (left : s.rest = '\\' :: x :: rest) :
    escape c false s = .ok [y] (s.past 2 rest) := by
  rw [escape, run_bind_ok (position_run s), run_bind_ok (bump_run left),
    run_bind_ok (char?_run _)]
  simp only [Scanner.rest_past, List.head?_cons]
  have two : (bump >>= fun _ => pure [y] : Scan (List Char)) (s.past 1 (x :: rest)) =
      .ok [y] (s.past 2 rest) := by
    rw [run_bind_ok (bump_run (Scanner.rest_past _ _ _)), Scanner.past_past]
    rfl
  simp only [letters, List.mem_cons, Prod.mk.injEq, List.not_mem_nil, or_false] at letter
  rcases letter with ⟨rfl, rfl⟩ | ⟨rfl, rfl⟩ | ⟨rfl, rfl⟩ | ⟨rfl, rfl⟩ | ⟨rfl, rfl⟩ | ⟨rfl, rfl⟩ |
    ⟨rfl, rfl⟩ | ⟨rfl, rfl⟩
  all_goals exact two

/-! ## Pieces of a string -/

section

variable {c : Setting} {mark : Char} {start : Nat}

/-- A quotation mark. -/
def IsMark (x : Char) : Prop := x = '"' ∨ x = '\''

/-- A character that stands for itself between quotation marks. -/
def isPlain (mark x : Char) : Bool := x ≠ mark && x ≠ '\\' && x ≠ '\n' && x ≠ '\r'

/-- What is done at a character of a string that does not stand for itself. -/
def goOn (c : Setting) (mark : Char) (start fuel : Nat) (acc : List Char) : Scan (List Char) := do
  match ← char? with
  | some '\\' => stringLiteral.go c mark start fuel (acc ++ (← escape c false))
  | some x =>
    if x = mark then
      bump
      return acc
    else
      reportFrom c start .unterminatedString
      return acc
  | none =>
    reportFrom c start .unterminatedString
    return acc

theorem go_run (s : Scanner) (fuel : Nat) (acc : List Char) :
    stringLiteral.go c mark start (fuel + 1) acc s =
      goOn c mark start fuel (acc ++ s.rest.takeWhile (isPlain mark))
        (s.past (s.rest.takeWhile (isPlain mark)).length
          (s.rest.drop (s.rest.takeWhile (isPlain mark)).length)) := rfl

/-- Between quotation marks and before the rest, the text is read as those characters. -/
def Spells (c : Setting) (mark : Char) (start : Nat) (text chars rest : List Char) : Prop :=
  ∀ (s : Scanner) (fuel : Nat) (acc : List Char), s.rest = text ++ rest → text.length < fuel →
    ∃ left, fuel ≤ left + text.length ∧
      stringLiteral.go c mark start fuel acc s =
        stringLiteral.go c mark start left (acc ++ chars) (s.past text.length rest)

theorem Spells.nil (rest : List Char) : Spells c mark start [] [] rest := by
  intro s fuel acc ahead _
  refine ⟨fuel, Nat.le_refl fuel, ?_⟩
  rw [List.append_nil, List.length_nil, Scanner.past_zero (List.nil_append rest ▸ ahead)]

theorem Spells.append {text text' chars chars' rest : List Char}
    (first : Spells c mark start text chars (text' ++ rest))
    (second : Spells c mark start text' chars' rest) :
    Spells c mark start (text ++ text') (chars ++ chars') rest := by
  intro s fuel acc ahead enough
  rw [List.length_append] at enough
  rw [List.append_assoc] at ahead
  obtain ⟨left, spent, run⟩ := first s fuel acc ahead (by omega)
  obtain ⟨left', spent', run'⟩ :=
    second (s.past text.length (text' ++ rest)) left (acc ++ chars) rfl (by omega)
  refine ⟨left', by rw [List.length_append]; omega, ?_⟩
  rw [run, run', Scanner.past_past, List.append_assoc, List.length_append]

/-- Most characters stand for themselves. -/
theorem spells_self {x : Char} (rest : List Char) (noMark : x ≠ mark) (noEscape : x ≠ '\\')
    (noEnd : x ≠ '\n' ∧ x ≠ '\r') : Spells c mark start [x] [x] rest := by
  intro s fuel acc ahead enough
  match fuel, enough with
  | fuel + 1, _ =>
    refine ⟨fuel + 1, Nat.le_succ _, ?_⟩
    have further : ([x] ++ rest).takeWhile (isPlain mark) = x :: rest.takeWhile (isPlain mark) :=
      List.takeWhile_cons_of_pos (by simp [isPlain, noMark, noEscape, noEnd.1, noEnd.2])
    rw [go_run, go_run, ahead, further, Scanner.rest_past, Scanner.past_past]
    simp only [List.length_cons, List.length_nil, List.singleton_append, List.drop_succ_cons,
      List.append_assoc, Nat.add_comm 1]

/-- An escape is read as what it stands for. -/
theorem spells_escape {text chars rest : List Char}
    (run : ∀ s : Scanner, s.rest = '\\' :: text ++ rest →
      escape c false s = .ok chars (s.past ('\\' :: text).length rest)) :
    Spells c mark start ('\\' :: text) chars rest := by
  intro s fuel acc ahead enough
  match fuel, enough with
  | fuel + 1, _ =>
    refine ⟨fuel, by rw [List.length_cons]; omega, ?_⟩
    have none : s.rest.takeWhile (isPlain mark) = [] := by
      rw [ahead, List.cons_append, List.takeWhile_cons_of_neg (by simp [isPlain])]
    rw [go_run, none, List.append_nil, List.length_nil, List.drop_zero, Scanner.past_zero rfl,
      goOn, run_bind_ok (char?_run s), ahead]
    simp only [List.cons_append, List.head?_cons]
    rw [run_bind_ok (run s ahead)]

theorem go_mark {s : Scanner} {fuel : Nat} {acc rest : List Char} (isMark : IsMark mark)
    (ahead : s.rest = mark :: rest) :
    stringLiteral.go c mark start (fuel + 1) acc s = .ok acc (s.past 1 rest) := by
  have none : s.rest.takeWhile (isPlain mark) = [] := by
    rw [ahead, List.takeWhile_cons_of_neg (by simp [isPlain])]
  rw [go_run, none, List.append_nil, List.length_nil, List.drop_zero, Scanner.past_zero rfl,
    goOn, run_bind_ok (char?_run s), ahead]
  rcases isMark with rfl | rfl
  · exact run_bind_ok (bump_run ahead)
  · exact run_bind_ok (bump_run ahead)

theorem rawFrom_run (start : Nat) (from_ : List Char) (s : Scanner) :
    rawFrom start from_ s = .ok (String.ofList (from_.take (s.position - start))) s := rfl

/-- A literal holds what the text between its marks spells. -/
theorem stringLiteral_run {s : Scanner} {text chars rest : List Char} (isMark : IsMark mark)
    (spells : Spells c mark s.position text chars (mark :: rest))
    (ahead : s.rest = mark :: (text ++ mark :: rest)) :
    stringLiteral c mark s =
      .ok (.string (String.ofList chars) (String.ofList (mark :: text ++ [mark])))
        (s.past (text.length + 2) rest) := by
  have behind := bump_run ahead
  obtain ⟨left, spent, run⟩ := spells (s.past 1 (text ++ mark :: rest))
    ((text ++ mark :: rest).length + 1) [] rfl (by rw [List.length_append]; omega)
  obtain ⟨left, rfl⟩ : ∃ k, left = k + 1 := by
    refine ⟨left - 1, ?_⟩
    simp only [List.length_append, List.length_cons] at spent
    omega
  rw [go_mark isMark (Scanner.rest_past _ _ _)] at run
  rw [stringLiteral, run_bind_ok (position_run s), run_bind_ok (get_run s), run_bind_ok behind,
    run_bind_ok (get_run _), Scanner.rest_past, run_bind_ok run]
  have whole : s.rest.take (text.length + 2) = mark :: text ++ [mark] := by
    rw [ahead, show text.length + 2 = (mark :: text ++ [mark]).length by simp,
      show mark :: (text ++ mark :: rest) = (mark :: text ++ [mark]) ++ rest by simp,
      List.take_left]
  rw [run_bind_ok (rawFrom_run _ _ _)]
  simp only [Scanner.past_past, Scanner.position_past, List.nil_append]
  rw [show s.position + (1 + text.length + 1) - s.position = text.length + 2 by omega, whole,
    show 1 + text.length + 1 = text.length + 2 by omega]
  rfl

end

end Scan

end RouteManifest.Script
