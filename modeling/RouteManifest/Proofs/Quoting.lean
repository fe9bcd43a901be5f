import RouteManifest.Proofs.Scanning
import RouteManifest.Script.Printer.Quoted

/-!
# Quoted text, read again

The scanner reads a quoted text as what was quoted. Everything that is escaped is read as what it
was escaped for, and the escape of half a surrogate pair, whose backslash is left alone, stands for
itself. Left alone is also the backslash of an escape whose bracket is not closed behind the digits;
texts that hold such a thing are left out here.
-/

namespace RouteManifest.Script

namespace Printer

open Scan Text

/-- The quotation mark around a quoted text. -/
def mark (s : String) : Char :=
  if s.toList.count '"' > s.toList.count '\'' then '\'' else '"'

theorem isMark_mark (s : String) : IsMark (mark s) := by
  rw [mark]
  split
  · exact Or.inr rfl
  · exact Or.inl rfl

/-- A character between marks of a kind. -/
def between (mark x : Char) : List Char := if x = mark then ['\\', x] else [x]

theorem toList_quoted (s : String) :
    (quoted s).toList =
      mark s :: (escaped s.toList).flatMap (between (mark s)) ++ [mark s] := by
  rw [quoted, String.toList_ofList]
  rfl

/-- Both readings of a digit in base sixteen are the same. -/
theorem digitValue?_eq_hexDigit? (x : Char) : digitValue? 16 x = hexDigit? x := by
  simp only [digitValue?, hexDigit?, Char.le_def, UInt32.le_iff_toNat_le, Char.toNat,
    Char.reduceVal, UInt32.reduceToNat]
  grind

theorem isHex_iff {x : Char} : IsHex x ↔ (hexDigit? x).isSome := by
  rw [IsHex, digitValue?_eq_hexDigit?]

theorem octal_of_not_isDigit {x : Char} (other : x.isDigit = false) : digitValue? 8 x = none := by
  simp only [Char.isDigit, ge_iff_le, UInt32.le_iff_toNat_le, Bool.and_eq_false_iff,
    decide_eq_false_iff_not] at other
  simp only [digitValue?, UInt32.le_iff_toNat_le, Char.le_def, Char.toNat]
  simp only [Char.reduceVal, UInt32.reduceToNat] at other ⊢
  refine if_neg ?_
  split
  · omega
  · split
    · omega
    · split
      · omega
      · omega

/-- The digit of a value has the value. -/
theorem hexDigit_value {n : Nat} (small : n < 16) :
    IsHex (hexDigit n) ∧ hexValue (hexDigit n) = n := by
  have each : ∀ n < 16,
      (digitValue? 16 (hexDigit n)).isSome ∧ hexValue (hexDigit n) = n := by
    decide
  exact each n small

/-! ## Characters that stand for themselves -/

/-- A character that stands for itself between marks, whatever follows it. -/
def StandsAlone (x : Char) : Prop := 0x28 ≤ x.toNat ∧ x.toNat < 0x7f ∧ x ≠ '\\'

instance : DecidablePred StandsAlone := fun _ => inferInstanceAs (Decidable (_ ∧ _))

theorem standsAlone_of_isHex {x : Char} (hex : IsHex x) : StandsAlone x := by
  refine ⟨?_, ?_, hex.ne (by decide)⟩
  all_goals
    rw [isHex_iff] at hex
    simp only [hexDigit?, Char.le_def, UInt32.le_iff_toNat_le, Char.reduceVal,
      UInt32.reduceToNat] at hex
    rw [Char.toNat]
    split at hex
    · omega
    · split at hex
      · omega
      · split at hex
        · omega
        · cases hex

theorem escapeChar_of_standsAlone {x : Char} (alone : StandsAlone x) (next : Option Char) :
    escapeChar x next = [x] := by
  fun_cases escapeChar x next
  case case8 | case13 => rfl
  case case12 control => exact absurd (Nat.lt_of_le_of_lt alone.1 control) (by decide)
  all_goals
    subst_vars
    exact absurd alone (by decide)

theorem escaped_append {kept : List Char} (alone : ∀ x ∈ kept, StandsAlone x) (rest : List Char) :
    escaped (kept ++ rest) = kept ++ escaped rest := by
  induction kept with
  | nil => rfl
  | cons x kept ih =>
    rw [List.forall_mem_cons] at alone
    rw [List.cons_append, escaped, if_neg alone.1.2.2, escapeChar_of_standsAlone alone.1,
      ih alone.2]
    rfl

theorem not_standsAlone_of_isMark {mark : Char} (isMark : IsMark mark) : ¬ StandsAlone mark := by
  rcases isMark with rfl | rfl
  · decide
  · decide

/-! ## Halves of surrogate pairs -/

/-- Behind a backslash, the text goes on as the escape of half a surrogate pair in brackets, of
which the second is missing. -/
def leavesHalfOpen : List Char → Bool
  | 'u' :: '\x7b' :: d :: x :: y :: z :: after =>
    isHalf d x y z && after.head? ≠ some '\x7d'
  | _ => false

/-- A text in which the brackets around halves of surrogate pairs are closed. -/
def ClosesHalves (text : List Char) : Prop :=
  ∀ tail, '\\' :: tail <:+ text → leavesHalfOpen tail = false

theorem ClosesHalves.of_suffix {part text : List Char} (closed : ClosesHalves text)
    (suffix : part <:+ text) : ClosesHalves part :=
  fun tail within_ => closed tail (within_.trans suffix)

theorem closesHalves_cons {x : Char} {text : List Char} :
    ClosesHalves (x :: text) ↔
      (x = '\\' → leavesHalfOpen text = false) ∧ ClosesHalves text := by
  constructor
  · intro closed
    refine ⟨?_, closed.of_suffix (List.suffix_cons x text)⟩
    rintro rfl
    exact closed text (List.suffix_refl _)
  · rintro ⟨first, closed⟩ tail within_
    rcases List.suffix_cons_iff.mp within_ with same | further
    · cases same
      exact first rfl
    · exact closed tail further

theorem closesHalves_nil : ClosesHalves [] := fun _ within_ => by simp at within_

instance decidableClosesHalves : (text : List Char) → Decidable (ClosesHalves text)
  | [] => .isTrue closesHalves_nil
  | _ :: text =>
    have := decidableClosesHalves text
    decidable_of_iff _ closesHalves_cons.symm

theorem isHex_of_isHalf {d x y z : Char} (half : isHalf d x y z) : ∀ w ∈ [d, x, y, z], IsHex w := by
  simp only [isHalf, Bool.and_eq_true, Bool.or_eq_true, decide_eq_true_eq,
    Option.any_eq_true] at half
  obtain ⟨⟨⟨first, v, second, -⟩, third⟩, fourth⟩ := half
  have hex : IsHex d := by
    rcases first with rfl | rfl
    · decide
    · decide
  simp only [List.forall_mem_cons, List.not_mem_nil, false_imp_iff, implies_true, and_true]
  exact ⟨hex, isHex_iff.mpr (by rw [second]; rfl), isHex_iff.mpr third, isHex_iff.mpr fourth⟩

/-- Halves of pairs are no characters, so that their escapes stand for themselves. -/
theorem standsFor_of_isHalf {d x y z : Char} (half : isHalf d x y z) (text : List Char) :
    standsFor text [d, x, y, z] = text := by
  simp only [isHalf, Bool.and_eq_true, Bool.or_eq_true, decide_eq_true_eq,
    Option.any_eq_true] at half
  obtain ⟨⟨⟨first, v, second, large⟩, -⟩, -⟩ := half
  have thirteen : hexValue d = 13 := by
    rcases first with rfl | rfl
    · decide
    · decide
  have eight : 8 ≤ hexValue x := by
    rw [hexValue, digitValue?_eq_hexDigit?, second]
    exact large
  have := hexValue_lt x
  have := hexValue_lt y
  have := hexValue_lt z
  have none_ : scalar? (valueOf 16 ([d, x, y, z].map hexValue)) = none := by
    simp only [scalar?, ite_eq_right_iff, reduceCtorEq, imp_false, valueOf, List.map_cons,
      List.map_nil, List.foldl_cons, List.foldl_nil, thirteen]
    omega
  rw [standsFor, none_]

section

variable {c : Setting} {mark : Char} {start : Nat}

/-- A backslash that is left alone begins an escape that stands for itself. -/
theorem exists_half (c : Setting) (mark : Char) (start : Nat) {cs : List Char}
    (half : continuesHalf cs) (closed : leavesHalfOpen cs = false) :
    ∃ kept rest, cs = kept ++ rest ∧ (∀ x ∈ kept, StandsAlone x) ∧
      ∀ after, Spells c mark start ('\\' :: kept) ('\\' :: kept) after := by
  unfold continuesHalf at half
  split at half
  case h_1 d x y z after =>
    simp only [leavesHalfOpen, half, Bool.true_and, decide_eq_false_iff_not, Decidable.not_not]
      at closed
    obtain ⟨rest, rfl⟩ := List.head?_eq_some_iff.mp closed
    have hex := isHex_of_isHalf half
    refine ⟨'u' :: '\x7b' :: ([d, x, y, z] ++ ['\x7d']), rest, rfl, ?_, fun after => ?_⟩
    · intro w member
      simp only [List.mem_cons, List.mem_append, List.not_mem_nil, or_false] at member
      rcases member with rfl | rfl | digit | rfl
      · decide
      · decide
      · exact standsAlone_of_isHex (hex w (by simpa using digit))
      · decide
    · refine spells_escape fun s ahead => ?_
      have run := escape_run_curly c hex rfl (by simpa using ahead)
      rw [standsFor_of_isHalf half] at run
      exact run
  case h_2 d x y z rest _ =>
    have hex := isHex_of_isHalf half
    refine ⟨'u' :: [d, x, y, z], rest, rfl, ?_, fun after => ?_⟩
    · intro w member
      rcases List.mem_cons.mp member with rfl | digit
      · decide
      · exact standsAlone_of_isHex (hex w digit)
    · refine spells_escape fun s ahead => ?_
      have run := escape_run_unicode c hex rfl (by simpa using ahead)
      rw [standsFor_of_isHalf half] at run
      exact run
  case h_3 => cases half

theorem spells_letter {x y : Char} (letter : (x, y) ∈ letters) (rest : List Char) :
    Spells c mark start ['\\', x] [y] rest :=
  spells_escape fun _ ahead => escape_run_letter c letter ahead

/-- A character whose number is written in four digits. -/
theorem spells_unicode {x : Char} {ds : List Char} (hex : ∀ d ∈ ds, IsHex d) (four : ds.length = 4)
    (number : standsFor (['\\', 'u'] ++ ds) ds = [x]) (rest : List Char) :
    Spells c mark start ('\\' :: 'u' :: ds) [x] rest := by
  refine spells_escape fun s ahead => ?_
  have run := escape_run_unicode c hex four ahead
  rw [number] at run
  rw [run]
  simp [four]

/-- A character whose number is written in two digits. -/
theorem spells_hex {x : Char} (small : x.toNat < 256) (rest : List Char) :
    Spells c mark start ['\\', 'x', hexDigit (x.toNat / 16), hexDigit (x.toNat % 16)] [x] rest := by
  obtain ⟨hex, value⟩ := hexDigit_value (n := x.toNat / 16) (by omega)
  obtain ⟨hex', value'⟩ := hexDigit_value (n := x.toNat % 16) (by omega)
  have number : Char.ofNat (valueOf 16
      ([hexDigit (x.toNat / 16), hexDigit (x.toNat % 16)].map hexValue)) = x := by
    simp only [List.map_cons, List.map_nil, value, value', valueOf, List.foldl_cons,
      List.foldl_nil]
    rw [show (0 * 16 + x.toNat / 16) * 16 + x.toNat % 16 = x.toNat by omega, Char.ofNat_toNat]
  refine spells_escape fun s ahead => ?_
  have digits : ∀ y ∈ [hexDigit (x.toNat / 16), hexDigit (x.toNat % 16)], IsHex y := by
    simp [hex, hex']
  have run := escape_run_hex c digits rfl ahead
  rw [number] at run
  exact run

theorem flatMap_between {text : List Char} (noMark : mark ∉ text) :
    text.flatMap (between mark) = text := by
  induction text with
  | nil => rfl
  | cons x text ih =>
    rw [List.mem_cons, not_or] at noMark
    rw [List.flatMap_cons, ih noMark.2, between, if_neg (Ne.symm noMark.1)]
    rfl

/-- The digits and letters of escapes are no quotation marks. -/
theorem not_mem_of_isMark {text : List Char} (isMark : IsMark mark)
    (two : '"' ∉ text ∧ '\'' ∉ text) :
    mark ∉ text := by
  rcases isMark with rfl | rfl
  · exact two.1
  · exact two.2

/-- A character that is no backslash is read from what it was escaped to, if what follows begins
with no digit where the next character is none. -/
theorem spells_escapeChar {x : Char} {next : Option Char} {rest : List Char} (isMark : IsMark mark)
    (noEscape : x ≠ '\\')
    (follows : (next.map Char.isDigit).getD false = false →
      rest.head?.bind (digitValue? 8) = none) :
    Spells c mark start ((escapeChar x next).flatMap (between mark)) [x] rest := by
  have kept {text : List Char} (two : '"' ∉ text ∧ '\'' ∉ text) :
      text.flatMap (between mark) = text :=
    flatMap_between (not_mem_of_isMark isMark two)
  fun_cases escapeChar x next
  case case1 null digit =>
    subst null
    rw [kept (by decide)]
    exact spells_hex (x := '\x00') (by decide) rest
  case case2 null noDigit =>
    subst null
    rw [kept (by decide)]
    exact spells_escape fun s ahead =>
      escape_run_null c (follows (Bool.eq_false_iff.mpr noDigit)) ahead
  case case3 | case4 | case5 | case6 | case7 =>
    subst_vars
    rw [kept (by decide)]
    exact spells_letter (by decide) rest
  case case8 =>
    subst_vars
    rw [kept (by decide)]
    exact spells_self rest (by rcases isMark with rfl | rfl <;> decide) (by decide) (by decide)
  case case9 | case10 | case11 =>
    subst_vars
    rw [kept (by decide)]
    exact spells_unicode (isHex_of_all (by decide)) rfl (by decide) rest
  case case12 small =>
    have digit {n : Nat} (low : n < 16) : hexDigit n ≠ '"' ∧ hexDigit n ≠ '\'' :=
      ⟨(hexDigit_value low).1.ne (by decide), (hexDigit_value low).1.ne (by decide)⟩
    have high := digit (n := x.toNat / 16) (by omega)
    have low := digit (n := x.toNat % 16) (by omega)
    rw [kept (by simp [Ne.symm high.1, Ne.symm high.2, Ne.symm low.1, Ne.symm low.2])]
    exact spells_hex (by omega) rest
  case case13 noEnd noReturn _ _ _ _ _ _ =>
    rw [List.flatMap_cons, List.flatMap_nil, List.append_nil, between]
    split
    case isTrue same =>
      refine spells_letter ?_ rest
      subst same
      rcases isMark with rfl | rfl
      · decide
      · decide
    case isFalse noMark => exact spells_self rest noMark noEscape ⟨noEnd, noReturn⟩

/-- An escaped character begins with itself or a backslash. -/
theorem exists_escapeChar_eq_cons (x : Char) (next : Option Char) :
    ∃ y ys, escapeChar x next = y :: ys ∧ (y = '\\' ∨ y = x) := by
  fun_cases escapeChar x next
  all_goals exact ⟨_, _, rfl, by simp⟩

/-- Up to the closing mark, an escaped text begins with a backslash, with the mark or with what the
text begins with. -/
theorem exists_head?_escaped (mark : Char) (cs after : List Char) :
    ∃ x, ((escaped cs).flatMap (between mark) ++ mark :: after).head? = some x ∧
      (x = '\\' ∨ x = mark ∨ cs.head? = some x) := by
  cases cs with
  | nil => exact ⟨mark, rfl, Or.inr (Or.inl rfl)⟩
  | cons c cs =>
    have begins : ∃ y ys, escaped (c :: cs) = y :: ys ∧ (y = '\\' ∨ y = c) := by
      rw [escaped]
      split
      · split
        · exact ⟨_, _, rfl, Or.inl rfl⟩
        · exact ⟨_, _, rfl, Or.inl rfl⟩
      · obtain ⟨y, ys, same, form⟩ := exists_escapeChar_eq_cons c cs.head?
        rw [same]
        exact ⟨_, _, rfl, form⟩
    obtain ⟨y, ys, same, form⟩ := begins
    rw [same, List.flatMap_cons, between]
    split
    · exact ⟨'\\', rfl, Or.inl rfl⟩
    · exact ⟨y, rfl, form.imp_right fun same => Or.inr (congrArg some same.symm)⟩

/-- What was escaped is read as what it was. -/
theorem spells_escaped (isMark : IsMark mark) {cs : List Char} (closed : ClosesHalves cs)
    (after : List Char) :
    Spells c mark start ((escaped cs).flatMap (between mark)) cs (mark :: after) := by
  -- A half is read at one go with all its digits, which is why the induction is on the length.
  induction length : cs.length using Nat.strongRecOn generalizing cs with
  | ind n ih =>
    match cs with
    | [] => exact Spells.nil _
    | x :: cs =>
      obtain ⟨first, further⟩ := closesHalves_cons.mp closed
      have later := ih cs.length (by rw [← length]; exact Nat.lt_succ_self _) further rfl
      rw [escaped]
      by_cases backslash : x = '\\'
      · subst backslash
        rw [if_pos rfl]
        by_cases half : continuesHalf cs
        · rw [if_pos half]
          obtain ⟨kept, rest, rfl, alone, spells⟩ := exists_half c mark start half (first rfl)
          have noMark : mark ∉ '\\' :: kept := by
            intro member
            rcases List.mem_cons.mp member with same | member
            · rcases isMark with rfl | rfl
              · cases same
              · cases same
            · exact not_standsAlone_of_isMark isMark (alone mark member)
          have shorter : rest.length < n := by
            rw [← length, List.length_cons, List.length_append]
            omega
          have later := ih rest.length shorter
            (further.of_suffix (List.suffix_append kept rest)) rfl
          rw [escaped_append alone, ← List.append_assoc, List.singleton_append,
            List.flatMap_append, flatMap_between noMark]
          exact (spells _).append later
        · have two : mark ∉ ['\\', '\\'] := not_mem_of_isMark isMark (by decide)
          rw [if_neg half, List.flatMap_append, flatMap_between two]
          exact (spells_letter (by decide) _).append later
      · rw [if_neg backslash, List.flatMap_append]
        refine (spells_escapeChar isMark backslash ?_).append later
        intro noDigit
        obtain ⟨y, head, form⟩ := exists_head?_escaped mark cs after
        rw [head, Option.bind_some]
        rcases form with rfl | rfl | same
        · decide
        · rcases isMark with rfl | rfl
          · decide
          · decide
        · rw [same] at noDigit
          exact octal_of_not_isDigit noDigit

end

/-- The scanner reads a quoted text as what it was, and stands behind it. -/
theorem stringLiteral_quoted (c : Setting) {text : String} (closed : ClosesHalves text.toList)
    {s : Scanner} {rest : List Char} (ahead : s.rest = (quoted text).toList ++ rest) :
    stringLiteral c (mark text) s =
      .ok (.string text (quoted text)) (s.past (quoted text).length rest) := by
  have inner : Spells c (mark text) s.position _ _ (mark text :: rest) :=
    spells_escaped (isMark_mark text) closed rest
  have around := toList_quoted text
  have run := stringLiteral_run (isMark_mark text) inner
    (by rw [ahead, around]; simp)
  have same : String.ofList
      (mark text :: (escaped text.toList).flatMap (between (mark text)) ++ [mark text]) =
        quoted text := by
    rw [← around, String.ofList_toList]
  have length : (quoted text).length =
      ((escaped text.toList).flatMap (between (mark text))).length + 2 := by
    rw [← String.length_toList, around]
    simp
  rw [run, same, length, String.ofList_toList]

end Printer

end RouteManifest.Script
