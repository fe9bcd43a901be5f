import RouteManifest.Proofs.JsonReading

/-!
# How numbers of JSON are spelled

A number is a whole part, perhaps a fraction and perhaps an exponent. It is passed where a text
begins with it and does not go on with it.
-/

namespace RouteManifest.Json

namespace Spelling

/-- No digit is next. -/
def NoDigit (rest : List Char) : Prop := ∀ c, rest.head? = some c → c.isDigit = false

/-- One digit or more. -/
def Digits (cs : List Char) : Prop := cs ≠ [] ∧ ∀ c ∈ cs, c.isDigit

/-- Digits do not begin with a sign. -/
theorem Digits.ne_sign {cs rest more : List Char} {sign : Char} (some_digits : Digits cs)
    (is_sign : sign = '+' ∨ sign = '-') : sign :: more ≠ cs ++ rest := by
  obtain ⟨some_digits, all⟩ := some_digits
  cases cs with
  | nil => exact absurd rfl some_digits
  | cons c cs =>
    intro same
    obtain rfl : sign = c := List.head_eq_of_cons_eq same
    have digit := all sign List.mem_cons_self
    rcases is_sign with rfl | rfl
    · exact absurd digit (by decide)
    · exact absurd digit (by decide)

/-- A whole number, which begins with a zero only if it is zero. -/
inductive Whole : List Char → Prop
  | zero : Whole ['0']
  | digits {cs : List Char} (some_digits : Digits cs) (no_zero : cs.head? ≠ some '0') : Whole cs

/-- The digits behind a point, if there are any. -/
inductive Fraction : List Char → Prop
  | none : Fraction []
  | digits {cs : List Char} (some_digits : Digits cs) : Fraction ('.' :: cs)

/-- The exponent of a number, if there is one. -/
inductive Exponent : List Char → Prop
  | none : Exponent []
  | digits {mark : Char} {sign cs : List Char} (is_mark : mark = 'e' ∨ mark = 'E')
      (is_sign : sign ∈ [[], ['+'], ['-']]) (some_digits : Digits cs) :
      Exponent (mark :: (sign ++ cs))

/-- A number without its sign. -/
inductive Number : List Char → Prop
  | parts {whole fraction exponent : List Char} (is_whole : Whole whole)
      (is_fraction : Fraction fraction) (is_exponent : Exponent exponent) :
      Number (whole ++ fraction ++ exponent)

/-- Characters that can follow a value: a number does not go on there. -/
def Stops (rest : List Char) : Prop :=
  ∀ c, rest.head? = some c → c.isDigit = false ∧ c ≠ '.' ∧ c ≠ 'e' ∧ c ≠ 'E'

/-- No digit and no point begins an exponent or what follows a number. -/
theorem Exponent.stops {cs rest : List Char} (is_exponent : Exponent cs) (stops : Stops rest) :
    ∀ c, (cs ++ rest).head? = some c → c.isDigit = false ∧ c ≠ '.' := by
  intro c led
  cases is_exponent with
  | none => exact ⟨(stops c led).1, (stops c led).2.1⟩
  | digits is_mark =>
    obtain rfl := Option.some.inj led
    rcases is_mark with rfl | rfl
    · decide
    · decide

/-- A number begins with a digit. -/
theorem Number.head {cs : List Char} (number : Number cs) :
    ∃ c ds, cs = c :: ds ∧ c.isDigit := by
  obtain ⟨is_whole, -, -⟩ := number
  cases is_whole with
  | zero => exact ⟨'0', _, rfl, by decide⟩
  | digits some_digits =>
    obtain ⟨c, cs, rfl⟩ := List.exists_cons_of_ne_nil some_digits.1
    exact ⟨c, _, rfl, some_digits.2 c List.mem_cons_self⟩

end Spelling

open Spelling

namespace Read

variable {α β : Type}

theorem Leaves.of_digits_go {fuel : Nat} {s : Rest} {ds : List Nat} {rest : List Char}
    (h : Leaves (digits.go fuel) s ds rest) (enough : s.text.length < fuel) :
    ∃ cs, (∀ c ∈ cs, c.isDigit) ∧ NoDigit rest ∧ s.text = cs ++ rest ∧
      ds.length = cs.length := by
  induction fuel generalizing s ds with
  | zero => exact absurd enough (Nat.not_lt_zero _)
  | succ fuel ih =>
    obtain ⟨text, place⟩ := s
    rw [digits.go, leaves_peek?_bind] at h
    cases text with
    | nil =>
      obtain ⟨rfl, rfl⟩ := leaves_pure.mp h
      exact ⟨[], by simp, by simp [NoDigit], rfl, rfl⟩
    | cons c text =>
      dsimp only [List.head?_cons] at h
      split at h
      · rename_i digit
        rw [leaves_skip_bind] at h
        obtain ⟨more, middle, place', first, same⟩ := h.parts
        obtain ⟨rfl, rfl⟩ := leaves_pure.mp same
        obtain ⟨cs, all, stops, parted, long⟩ := ih first (by simpa using enough)
        exact ⟨c :: cs, by simpa [digit] using all, stops, congrArg (List.cons c) parted,
          by simp [long]⟩
      · rename_i other
        obtain ⟨rfl, rfl⟩ := leaves_pure.mp h
        exact ⟨[], by simp, by simpa [NoDigit] using other, rfl, rfl⟩

theorem Leaves.digits_go {fuel : Nat} {cs rest : List Char} {place : Place}
    (all : ∀ c ∈ cs, c.isDigit) (stops : NoDigit rest) (enough : cs.length < fuel) :
    Leaves (digits.go fuel) ⟨cs ++ rest, place⟩ (cs.map fun c => c.toNat - 48) rest := by
  induction cs generalizing fuel place with
  | nil =>
    cases fuel with
    | zero => exact absurd enough (Nat.not_lt_zero _)
    | succ fuel =>
      rw [digits.go, leaves_peek?_bind]
      cases rest with
      | nil => simp
      | cons c rest => simp [stops c rfl]
  | cons c cs ih =>
    cases fuel with
    | zero => exact absurd enough (Nat.not_lt_zero _)
    | succ fuel =>
      rw [List.forall_mem_cons] at all
      rw [digits.go, leaves_peek?_bind]
      simp only [List.cons_append, List.head?_cons, all.1, if_true, leaves_skip_bind]
      exact (ih all.2 (by simpa using enough)).bind fun place' => leaves_pure.mpr ⟨rfl, rfl⟩

theorem Leaves.of_digits {s : Rest} {ds : List Nat} {rest : List Char}
    (h : Leaves Read.digits s ds rest) :
    ∃ cs, (∀ c ∈ cs, c.isDigit) ∧ NoDigit rest ∧ s.text = cs ++ rest ∧
      ds.length = cs.length := by
  rw [Read.digits, leaves_steps_bind] at h
  exact h.of_digits_go (by omega)

theorem Leaves.digits {cs rest : List Char} {place : Place} (all : ∀ c ∈ cs, c.isDigit)
    (stops : NoDigit rest) :
    Leaves Read.digits ⟨cs ++ rest, place⟩ (cs.map fun c => c.toNat - 48) rest := by
  rw [Read.digits, leaves_steps_bind]
  exact Leaves.digits_go all stops (by simp only [List.length_append]; omega)

/-- Passes one digit or more. -/
def someDigits : Read PUnit := do
  if isDigit? (← peek?) then
    let _ ← digits
  else failAhead .invalidNumber

theorem leaves_someDigits {s : Rest} {u : PUnit} {rest : List Char} :
    Leaves someDigits s u rest ↔ ∃ cs, Digits cs ∧ NoDigit rest ∧ s.text = cs ++ rest := by
  rw [someDigits, leaves_peek?_bind]
  constructor
  · intro h
    split at h
    · rename_i digit
      obtain ⟨_, _, _, first, same⟩ := h.parts
      obtain ⟨-, rfl⟩ := leaves_pure.mp same
      obtain ⟨cs, all, stops, parted, -⟩ := first.of_digits
      refine ⟨cs, ⟨?_, all⟩, stops, parted⟩
      rintro rfl
      obtain ⟨c, led, digit⟩ := (Option.any_eq_true _ _).mp digit
      rw [parted, List.nil_append] at led
      rw [stops c led] at digit
      cases digit
    · exact absurd h (by simp)
  · rintro ⟨cs, ⟨some_digits, all⟩, stops, parted⟩
    obtain ⟨text, place⟩ := s
    obtain rfl : text = cs ++ rest := parted
    cases cs with
    | nil => exact absurd rfl some_digits
    | cons c cs =>
      have digit : isDigit? (c :: cs ++ rest).head? := by
        simpa [isDigit?] using all c List.mem_cons_self
      rw [if_pos digit]
      exact (Leaves.digits all stops).bind fun place' => leaves_pure.mpr ⟨rfl, rfl⟩

/-- Passes a whole number. -/
def passWhole : Read PUnit := do
  if (← peek?) = some '0' then
    skip
    if isDigit? (← peek?) then failAhead .invalidNumber
  else someDigits

/-- Passes the exponent of a number, if there is one. -/
def passOptional : Read PUnit := do
  if isExponentMark (← peek?) then passExponent

/-- Passes what stands behind the whole part of a number. -/
def passParts : Read PUnit := do
  let c ← peek?
  if c = some '.' then
    skip
    if (← digits).isEmpty then failAhead .invalidNumber
    passOptional
  else if isExponentMark c then passExponent

/-- A number is passed part by part. -/
theorem leaves_passNumber_iff {s : Rest} {u : PUnit} {rest : List Char} :
    Leaves passNumber s u rest ↔ Leaves (passWhole >>= fun _ => passParts) s u rest := by
  rw [passNumber, passWhole, bind_assoc, leaves_peek?_bind, leaves_peek?_bind]
  split
  · rename_i zero
    rw [if_pos zero]
    simp only [bind_assoc]
    refine iff_of_eq (congrArg (fun m => Leaves m s u rest) (congrArg (skip >>= ·) (funext fun _ =>
      congrArg (peek? >>= ·) (funext fun c => ?_))))
    split
    · rfl
    · simp only [passParts, passOptional, pure_bind]
  · rename_i other
    rw [if_neg other, someDigits, bind_assoc, leaves_peek?_bind]
    split
    · simp only [passParts, passOptional, bind_assoc, pure_bind]
    · rfl

theorem isDigit?_eq_false_iff {rest : List Char} : isDigit? rest.head? = false ↔ NoDigit rest := by
  cases rest <;> simp [isDigit?, NoDigit]

theorem leaves_passWhole {s : Rest} {u : PUnit} {rest : List Char} :
    Leaves passWhole s u rest ↔ ∃ cs, Whole cs ∧ NoDigit rest ∧ s.text = cs ++ rest := by
  obtain ⟨text, place⟩ := s
  rw [passWhole, leaves_peek?_bind]
  split
  · rename_i zero
    obtain ⟨text, rfl⟩ := List.head?_eq_some_iff.mp zero
    simp only [leaves_skip_bind, leaves_peek?_bind, leaves_ite, leaves_failAhead, leaves_pure,
      true_and]
    constructor
    · intro h
      split at h
      · exact h.elim
      · rename_i stops
        subst h
        exact ⟨['0'], .zero, isDigit?_eq_false_iff.mp (Bool.eq_false_iff.mpr stops), rfl⟩
    · rintro ⟨cs, is_whole, stops, parted⟩
      cases is_whole with
      | zero =>
        obtain rfl : text = rest := List.tail_eq_of_cons_eq parted
        rw [if_neg (Bool.eq_false_iff.mp (isDigit?_eq_false_iff.mpr stops))]
      | digits some_digits no_zero =>
        cases cs with
        | nil => exact absurd rfl some_digits.1
        | cons c cs =>
          obtain rfl : '0' = c := List.head_eq_of_cons_eq parted
          exact absurd rfl no_zero
  · rename_i no_zero
    rw [leaves_someDigits]
    refine exists_congr fun cs => ⟨?_, ?_⟩
    · rintro ⟨some_digits, stops, rfl⟩
      refine ⟨.digits some_digits ?_, stops, rfl⟩
      cases cs with
      | nil => exact absurd rfl some_digits.1
      | cons c cs => exact no_zero
    · rintro ⟨is_whole, stops, rfl⟩
      cases is_whole with
      | zero => exact absurd rfl no_zero
      | digits some_digits => exact ⟨some_digits, stops, rfl⟩

/-- An exponent is passed behind a mark of any kind. -/
theorem leaves_passExponent {mark : Char} {text : List Char} {place : Place} {u : PUnit}
    {rest : List Char} :
    Leaves passExponent ⟨mark :: text, place⟩ u rest ↔
      ∃ sign cs, sign ∈ [[], ['+'], ['-']] ∧ Digits cs ∧ NoDigit rest ∧
        text = sign ++ (cs ++ rest) := by
  have digits_next : Leaves passExponent ⟨mark :: text, place⟩ u rest ↔
      if text.head? = some '+' ∨ text.head? = some '-' then
        Leaves (skip >>= fun _ => someDigits) ⟨text, place.after mark⟩ u rest
      else Leaves someDigits ⟨text, place.after mark⟩ u rest := by
    rw [passExponent, leaves_skip_bind, leaves_peek?_bind]
    simp only [Bool.or_eq_true, decide_eq_true_eq]
    split
    · rfl
    · rfl
  rw [digits_next]
  split
  · rename_i signed
    obtain ⟨sign, more, rfl, is_sign⟩ :
        ∃ sign more, text = sign :: more ∧ (sign = '+' ∨ sign = '-') := by
      rcases signed with plus | minus
      · exact ⟨_, _, (List.head?_eq_some_iff.mp plus).choose_spec, Or.inl rfl⟩
      · exact ⟨_, _, (List.head?_eq_some_iff.mp minus).choose_spec, Or.inr rfl⟩
    rw [leaves_skip_bind, leaves_someDigits]
    constructor
    · rintro ⟨cs, some_digits, stops, rfl⟩
      exact ⟨[sign], cs, by simpa using is_sign, some_digits, stops, rfl⟩
    · rintro ⟨sign', cs, is_sign', some_digits, stops, parted⟩
      simp only [List.mem_cons, List.not_mem_nil, or_false] at is_sign'
      rcases is_sign' with rfl | rfl | rfl
      · exact absurd parted (some_digits.ne_sign is_sign)
      · exact ⟨cs, some_digits, stops, List.tail_eq_of_cons_eq parted⟩
      · exact ⟨cs, some_digits, stops, List.tail_eq_of_cons_eq parted⟩
  · rename_i unsigned
    rw [leaves_someDigits]
    constructor
    · rintro ⟨cs, some_digits, stops, rfl⟩
      exact ⟨[], cs, by simp, some_digits, stops, rfl⟩
    · rintro ⟨sign, cs, is_sign, some_digits, stops, rfl⟩
      simp only [List.mem_cons, List.not_mem_nil, or_false] at is_sign
      rcases is_sign with rfl | rfl | rfl
      · exact ⟨cs, some_digits, stops, rfl⟩
      · exact absurd (Or.inl rfl) unsigned
      · exact absurd (Or.inr rfl) unsigned

theorem Leaves.of_passOptional {s : Rest} {u : PUnit} {rest : List Char}
    (h : Leaves passOptional s u rest) : ∃ cs, Exponent cs ∧ s.text = cs ++ rest := by
  obtain ⟨text, place⟩ := s
  rw [passOptional, leaves_peek?_bind] at h
  split at h
  · rename_i is_mark
    cases text with
    | nil => cases is_mark
    | cons mark text =>
      obtain ⟨sign, cs, is_sign, some_digits, -, rfl⟩ := leaves_passExponent.mp h
      have is_mark : mark = 'e' ∨ mark = 'E' := by simpa [isExponentMark] using is_mark
      exact ⟨_, .digits is_mark is_sign some_digits, by simp⟩
  · obtain ⟨-, rfl⟩ := leaves_pure.mp h
    exact ⟨[], .none, rfl⟩

theorem Leaves.passOptional {cs rest : List Char} {place : Place} (is_exponent : Exponent cs)
    (stops : Stops rest) : Leaves passOptional ⟨cs ++ rest, place⟩ () rest := by
  rw [Read.passOptional, leaves_peek?_bind]
  cases is_exponent with
  | none =>
    have no_mark : ¬ isExponentMark rest.head? := by
      intro is_mark
      simp only [isExponentMark, Bool.or_eq_true, decide_eq_true_eq] at is_mark
      rcases is_mark with small | large
      · exact (stops _ small).2.2.1 rfl
      · exact (stops _ large).2.2.2 rfl
    rw [List.nil_append, if_neg no_mark]
    exact leaves_pure.mpr ⟨rfl, rfl⟩
  | @digits mark sign cs is_mark is_sign some_digits =>
    have is_mark : isExponentMark (mark :: (sign ++ cs) ++ rest).head? := by
      simpa [isExponentMark] using is_mark
    rw [if_pos is_mark]
    exact leaves_passExponent.mpr
      ⟨sign, cs, is_sign, some_digits, fun c led => (stops c led).1, by simp⟩

theorem Leaves.of_passParts {s : Rest} {u : PUnit} {rest : List Char}
    (h : Leaves passParts s u rest) :
    ∃ fraction exponent, Fraction fraction ∧ Exponent exponent ∧
      s.text = fraction ++ (exponent ++ rest) := by
  rw [passParts, leaves_peek?_bind] at h
  split at h
  · rename_i point
    obtain ⟨text, place⟩ := s
    obtain ⟨text, rfl⟩ := List.head?_eq_some_iff.mp point
    rw [leaves_skip_bind] at h
    obtain ⟨ds, middle, place', first, further⟩ := h.parts
    obtain ⟨cs, all, stops, rfl, long⟩ := first.of_digits
    dsimp only at further
    split at further
    · exact absurd further (by simp)
    · rename_i some_digits
      obtain ⟨exponent, is_exponent, rfl⟩ := further.of_passOptional
      refine ⟨'.' :: cs, exponent, .digits ⟨?_, all⟩, is_exponent, rfl⟩
      rintro rfl
      exact some_digits (List.isEmpty_iff_length_eq_zero.mpr long)
  · obtain ⟨exponent, is_exponent, parted⟩ := Leaves.of_passOptional (s := s) h
    exact ⟨[], exponent, .none, is_exponent, parted⟩

theorem Leaves.passParts {fraction exponent rest : List Char} {place : Place}
    (is_fraction : Fraction fraction) (is_exponent : Exponent exponent) (stops : Stops rest) :
    Leaves passParts ⟨fraction ++ (exponent ++ rest), place⟩ () rest := by
  have behind := is_exponent.stops stops
  rw [Read.passParts, leaves_peek?_bind]
  cases is_fraction with
  | none =>
    have no_point : (exponent ++ rest).head? ≠ some '.' := fun point => (behind _ point).2 rfl
    rw [List.nil_append, if_neg no_point]
    exact Leaves.passOptional is_exponent stops
  | @digits cs some_digits =>
    rw [List.cons_append, if_pos List.head?_cons, leaves_skip_bind]
    refine (Leaves.digits some_digits.2 fun c led => (behind c led).1).bind fun place' => ?_
    have none_empty : ¬ (cs.map fun c => c.toNat - 48).isEmpty := by
      simpa using some_digits.1
    rw [if_neg none_empty]
    exact Leaves.passOptional is_exponent stops

theorem Leaves.of_passNumber {s : Rest} {u : PUnit} {rest : List Char}
    (h : Leaves Read.passNumber s u rest) : ∃ cs, Number cs ∧ s.text = cs ++ rest := by
  obtain ⟨_, middle, place, first, further⟩ := (leaves_passNumber_iff.mp h).parts
  obtain ⟨whole, is_whole, -, parted⟩ := leaves_passWhole.mp first
  obtain ⟨fraction, exponent, is_fraction, is_exponent, rfl⟩ := further.of_passParts
  exact ⟨_, .parts is_whole is_fraction is_exponent, by simp [parted]⟩

theorem Leaves.passNumber {cs rest : List Char} {place : Place} (number : Number cs)
    (stops : Stops rest) : Leaves Read.passNumber ⟨cs ++ rest, place⟩ () rest := by
  obtain ⟨is_whole, is_fraction, is_exponent⟩ := number
  rename_i whole fraction exponent
  have no_digit : NoDigit (fraction ++ (exponent ++ rest)) := by
    intro c led
    cases is_fraction with
    | none => exact (is_exponent.stops stops c led).1
    | digits => 
      obtain rfl := Option.some.inj led
      decide
  rw [leaves_passNumber_iff, List.append_assoc, List.append_assoc]
  exact Leaves.bind (a := ()) (leaves_passWhole.mpr ⟨whole, is_whole, no_digit, rfl⟩) fun place' =>
    Leaves.passParts is_fraction is_exponent stops

end Read

end RouteManifest.Json
