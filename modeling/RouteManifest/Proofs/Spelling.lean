import RouteManifest.Proofs.JsonReading

/-!
# How strings of JSON are spelled

A string is told as the characters that it is put together from, each as such or escaped. Where a
text begins with a string, the reader of strings answers with what it says; elsewhere it fails.
-/

namespace RouteManifest.Json

namespace Spelling

/-- Four digits to the base sixteen and the number that they make up. -/
def CodeUnit (cs : List Char) (n : Nat) : Prop :=
  ∃ a b c d, cs.map Text.hexDigit? = [some a, some b, some c, some d] ∧
    n = ((a * 16 + b) * 16 + c) * 16 + d

/-- The first half of a pair of surrogates. -/
def IsHigh (n : Nat) : Prop := 0xD800 ≤ n ∧ n ≤ 0xDBFF

/-- The second half of a pair of surrogates. -/
def IsLow (n : Nat) : Prop := 0xDC00 ≤ n ∧ n ≤ 0xDFFF

/-- A character of a string as it is spelled. Where nobody asks for the string, every number will do
for an escape, and the escape stands for no character in particular. -/
inductive Letter : (strict : Bool) → List Char → Char → Prop
  | plain {strict : Bool} {c : Char} (no_mark : c ≠ '"') (no_escape : c ≠ '\\')
      (no_control : 0x20 ≤ c.toNat) : Letter strict [c] c
  | named {strict : Bool} {name c : Char} (known : Read.simpleEscapes.lookup name = some c) :
      Letter strict ['\\', name] c
  | numbered {digits : List Char} {n : Nat} (unit : CodeUnit digits n) (not_high : ¬ IsHigh n)
      (not_low : ¬ IsLow n) : Letter true ('\\' :: 'u' :: digits) (Char.ofNat n)
  | pair {high_digits low_digits : List Char} {high low : Nat} (first : CodeUnit high_digits high)
      (second : CodeUnit low_digits low) (is_high : IsHigh high) (is_low : IsLow low) :
      Letter true ('\\' :: 'u' :: (high_digits ++ '\\' :: 'u' :: low_digits))
        (Char.ofNat ((high - 0xD800) * 0x400 + (low - 0xDC00) + 0x10000))
  | passed {digits : List Char} {n : Nat} (unit : CodeUnit digits n) :
      Letter false ('\\' :: 'u' :: digits) '?'

/-- A character of a string stands for itself or is escaped. -/
theorem Letter.plain_or_escaped {strict : Bool} {cs : List Char} {c : Char}
    (letter : Letter strict cs c) :
    cs = [c] ∧ c ≠ '"' ∧ c ≠ '\\' ∧ 0x20 ≤ c.toNat ∨ ∃ ds, cs = '\\' :: ds := by
  cases letter with
  | plain no_mark no_escape no_control => exact Or.inl ⟨rfl, no_mark, no_escape, no_control⟩
  | named known => exact Or.inr ⟨_, rfl⟩
  | numbered unit not_high not_low => exact Or.inr ⟨_, rfl⟩
  | pair first second is_high is_low => exact Or.inr ⟨_, rfl⟩
  | passed unit => exact Or.inr ⟨_, rfl⟩

/-- Characters of a string one after the other. -/
inductive Letters (strict : Bool) : List Char → List Char → Prop
  | nil : Letters strict [] []
  | cons {cs ds text : List Char} {c : Char} (first : Letter strict cs c)
      (others : Letters strict ds text) : Letters strict (cs ++ ds) (c :: text)

/-- A string between its quotation marks, and what it says. -/
inductive Quoted (strict : Bool) : List Char → String → Prop
  | letters {cs text : List Char} (inner : Letters strict cs text) :
      Quoted strict ('"' :: (cs ++ ['"'])) (String.ofList text)

end Spelling

open Spelling

namespace Read

theorem utf8Size_of_hexDigit? {c : Char} {n : Nat} (hex : Text.hexDigit? c = some n) :
    c.utf8Size = 1 := by
  have small : c ≤ 'f' := by
    unfold Text.hexDigit? at hex
    split at hex
    · rename_i digit
      exact Nat.le_trans digit.2 (by decide)
    · split at hex
      · rename_i digit
        exact digit.2
      · split at hex
        · rename_i digit
          exact Nat.le_trans digit.2 (by decide)
        · cases hex
  have ascii : c.val ≤ 0x7f := Nat.le_trans small (by decide)
  exact if_pos ascii

/-- Characters of one byte are taken as they stand. -/
theorem Leaves.takeBytes {cs rest : List Char} {place : Place}
    (small : ∀ c ∈ cs, c.utf8Size = 1) :
    Leaves (Read.takeBytes cs.length) ⟨cs ++ rest, place⟩ cs rest := by
  induction cs generalizing place with
  | nil => simp [Read.takeBytes]
  | cons c cs ih =>
    rw [List.forall_mem_cons] at small
    have fits : c.utf8Size ≤ cs.length + 1 := by omega
    have left : cs.length + 1 - c.utf8Size = cs.length := by omega
    rw [List.length_cons, Read.takeBytes, leaves_get_bind]
    simp only [List.cons_append, fits, if_true, leaves_skip_bind, left]
    exact (ih small.2).bind fun place' => by simp

theorem Leaves.of_takeBytes {n : Nat} {s : Rest} {cs rest : List Char}
    (h : Leaves (Read.takeBytes n) s cs rest) (small : ∀ c ∈ cs, c.utf8Size = 1) :
    s.text = cs ++ rest := by
  induction n using Nat.strongRecOn generalizing s cs with
  | ind n ih =>
    obtain ⟨text, place⟩ := s
    cases n with
    | zero =>
      rw [Read.takeBytes, leaves_pure] at h
      obtain ⟨rfl, left⟩ := h
      simpa using left
    | succ n =>
      rw [Read.takeBytes, leaves_get_bind] at h
      cases text with
      | nil =>
        obtain ⟨rfl, left⟩ := leaves_pure.mp h
        simpa using left
      | cons c text =>
        have positive := c.utf8Size_pos
        dsimp only at h
        split at h
        · rename_i fits
          rw [leaves_skip_bind] at h
          obtain ⟨others, middle, place', more, same⟩ := h.parts
          obtain ⟨rfl, rfl⟩ := leaves_pure.mp same
          rw [List.forall_mem_cons] at small
          simpa using ih _ (by omega) more small.2
        · rename_i broken
          rw [leaves_set_bind] at h
          obtain ⟨rfl, -⟩ := leaves_pure.mp h
          have := small c (List.mem_singleton_self c)
          omega

theorem utf8Size_of_codeUnit {cs : List Char} {n : Nat} (unit : CodeUnit cs n) :
    cs.length = 4 ∧ ∀ c ∈ cs, c.utf8Size = 1 := by
  obtain ⟨x, y, z, w, all, -⟩ := unit
  refine ⟨by simpa using congrArg List.length all, fun c member => ?_⟩
  have digit : Text.hexDigit? c ∈ cs.map Text.hexDigit? := List.mem_map_of_mem member
  rw [all] at digit
  simp only [List.mem_cons, List.not_mem_nil, or_false] at digit
  rcases digit with hex | hex | hex | hex <;> exact utf8Size_of_hexDigit? hex

theorem bytes_of_small {cs : List Char} (small : ∀ c ∈ cs, c.utf8Size = 1) (n : Nat) :
    cs.foldl (fun n c => n + c.utf8Size) n = n + cs.length := by
  induction cs generalizing n with
  | nil => rfl
  | cons c cs ih =>
    rw [List.forall_mem_cons] at small
    rw [List.foldl_cons, ih small.2, small.1, List.length_cons]
    omega

theorem leaves_hexEscape {s : Rest} {n : Nat} {rest : List Char} :
    Leaves hexEscape s n rest ↔ ∃ cs, CodeUnit cs n ∧ s.text = cs ++ rest := by
  rw [hexEscape, leaves_get_bind]
  constructor
  · intro h
    obtain ⟨cs, middle, place, taken, further⟩ := h.parts
    split at further
    · exact absurd further (by simp)
    · split at further
      · rename_i x y z w all
        obtain ⟨rfl, rfl⟩ := leaves_pure.mp further
        have unit : CodeUnit cs _ := ⟨x, y, z, w, all, rfl⟩
        exact ⟨cs, unit, taken.of_takeBytes (utf8Size_of_codeUnit unit).2⟩
      · exact absurd further (by simp)
  · rintro ⟨cs, unit, parted⟩
    obtain ⟨four, small⟩ := utf8Size_of_codeUnit unit
    obtain ⟨text, place⟩ := s
    obtain rfl : text = cs ++ rest := parted
    have taken : Leaves (takeBytes 4) ⟨cs ++ rest, place⟩ cs rest :=
      four ▸ Leaves.takeBytes small
    refine taken.bind fun place' => ?_
    have bytes : ((cs ++ rest).take 4).foldl (fun n c => n + c.utf8Size) 0 = 4 := by
      rw [← four, List.take_left, bytes_of_small small, Nat.zero_add]
    obtain ⟨x, y, z, w, all, rfl⟩ := unit
    simp [bytes, all]

theorem leaves_pairMark {c : Char} {s : Rest} {u : PUnit} {rest : List Char} :
    Leaves (pairMark c) s u rest ↔ s.text = c :: rest := by
  obtain ⟨text, place⟩ := s
  rw [pairMark, leaves_peek?_bind]
  cases text with
  | nil => simp
  | cons d ds =>
    by_cases same : c = d
    · subst same
      simp
    · simp [same, Ne.symm same]

theorem Leaves.of_unicodeEscape {strict : Bool} {s : Rest} {c : Char} {rest : List Char}
    (h : Leaves (unicodeEscape strict) s c rest) :
    ∃ cs, Letter strict ('\\' :: 'u' :: cs) c ∧ s.text = cs ++ rest := by
  obtain ⟨high, middle, place, first, further⟩ := h.parts
  obtain ⟨digits, unit, parted⟩ := leaves_hexEscape.mp first
  cases strict with
  | false =>
    obtain ⟨rfl, rfl⟩ := leaves_pure.mp further
    exact ⟨digits, .passed unit, parted⟩
  | true =>
    simp only [Bool.not_true, Bool.false_eq_true, if_false, Bool.and_eq_true, Bool.or_eq_true,
      decide_eq_true_eq] at further
    split at further
    · exact absurd further (by simp)
    · rename_i not_low
      split at further
      · rename_i outside
        obtain ⟨rfl, rfl⟩ := leaves_pure.mp further
        exact ⟨digits, .numbered unit (fun is_high => by unfold IsHigh at is_high; omega) not_low,
          parted⟩
      · rename_i inside
        obtain ⟨_, _, _, backslash, further⟩ := further.parts
        obtain ⟨_, _, _, letter, further⟩ := further.parts
        obtain ⟨low, _, _, second, further⟩ := further.parts
        obtain ⟨low_digits, low_unit, low_parted⟩ := leaves_hexEscape.mp second
        split at further
        · exact absurd further (by simp)
        · rename_i is_low
          obtain ⟨rfl, rfl⟩ := leaves_pure.mp further
          refine ⟨digits ++ '\\' :: 'u' :: low_digits,
            .pair unit low_unit (by unfold IsHigh; omega) (by unfold IsLow; omega), ?_⟩
          have marks := leaves_pairMark.mp backslash
          have marks' := leaves_pairMark.mp letter
          simp_all

theorem Leaves.unicodeEscape {strict : Bool} {c : Char} {cs rest : List Char} {place : Place}
    (letter : Letter strict ('\\' :: 'u' :: cs) c) :
    Leaves (Read.unicodeEscape strict) ⟨cs ++ rest, place⟩ c rest := by
  have escape {digits more : List Char} {n : Nat} {place : Place} (unit : CodeUnit digits n) :
      Leaves hexEscape ⟨digits ++ more, place⟩ n more :=
    leaves_hexEscape.mpr ⟨digits, unit, rfl⟩
  cases letter with
  | named known => cases known
  | passed unit => exact (escape unit).bind fun place' => by simp
  | @numbered _ n unit not_high not_low =>
    refine (escape unit).bind fun place' => ?_
    unfold IsHigh at not_high
    unfold IsLow at not_low
    have outside : n < 0xD800 ∨ 0xDBFF < n := by omega
    simp only [Bool.not_true, Bool.false_eq_true, if_false, Bool.and_eq_true, Bool.or_eq_true,
      decide_eq_true_eq, not_low, outside, if_true]
    exact leaves_pure.mpr ⟨rfl, rfl⟩
  | @pair high_digits low_digits high low first second is_high is_low =>
    rw [List.append_assoc]
    refine (escape first).bind fun place' => ?_
    unfold IsHigh at is_high
    unfold IsLow at is_low
    have not_low : ¬ (0xDC00 ≤ high ∧ high ≤ 0xDFFF) := by omega
    have inside : ¬ (high < 0xD800 ∨ 0xDBFF < high) := by omega
    have low_inside : ¬ (low < 0xDC00 ∨ 0xDFFF < low) := by omega
    simp only [Bool.not_true, Bool.false_eq_true, if_false, Bool.and_eq_true, Bool.or_eq_true,
      decide_eq_true_eq, not_low, inside]
    refine Leaves.bind (a := ()) (leaves_pairMark.mpr rfl) fun place' => ?_
    refine Leaves.bind (a := ()) (leaves_pairMark.mpr rfl) fun place' => ?_
    refine (escape second).bind fun place' => ?_
    rw [if_neg low_inside]
    exact leaves_pure.mpr ⟨rfl, rfl⟩

/-! ### Whole strings -/

theorem Leaves.of_escape {strict : Bool} {s : Rest} {c : Char} {rest : List Char}
    (h : Leaves (Read.escape strict) s c rest) :
    ∃ cs, Letter strict ('\\' :: cs) c ∧ s.text = cs ++ rest := by
  obtain ⟨text, place⟩ := s
  rw [Read.escape, leaves_peek?_bind] at h
  cases text with
  | nil => exact absurd h (by simp)
  | cons d ds =>
    simp only [List.head?_cons] at h
    split at h
    · exact absurd h (by simp)
    · rename_i same
      obtain rfl : d = 'u' := Option.some.inj same
      obtain ⟨cs, letter, parted⟩ := (leaves_skip_bind.mp h).of_unicodeEscape
      exact ⟨'u' :: cs, letter, congrArg (List.cons 'u') parted⟩
    · rename_i name _ same
      obtain rfl : d = name := Option.some.inj same
      split at h
      · rename_i known
        simp only [leaves_skip_bind, leaves_pure] at h
        obtain ⟨rfl, rfl⟩ := h
        exact ⟨[d], .named known, rfl⟩
      · exact absurd h (by simp)

theorem Leaves.escape {strict : Bool} {c : Char} {cs rest : List Char} {place : Place}
    (letter : Letter strict ('\\' :: cs) c) :
    Leaves (Read.escape strict) ⟨cs ++ rest, place⟩ c rest := by
  rw [Read.escape, leaves_peek?_bind]
  cases letter with
  | plain _ no_escape => exact absurd rfl no_escape
  | numbered unit not_high not_low =>
    exact leaves_skip_bind.mpr (Leaves.unicodeEscape (.numbered unit not_high not_low))
  | pair first second is_high is_low =>
    exact leaves_skip_bind.mpr (Leaves.unicodeEscape (.pair first second is_high is_low))
  | passed unit => exact leaves_skip_bind.mpr (Leaves.unicodeEscape (.passed unit))
  | named known =>
    simp only [List.cons_append, List.nil_append, List.head?_cons]
    split
    · rename_i none
      cases none
    · rename_i same
      cases same
      cases known
    · rename_i same
      cases same
      rw [known]
      exact leaves_skip_bind.mpr (leaves_pure.mpr ⟨rfl, rfl⟩)

/-- One character of a string. -/
theorem leaves_string_go_cons {strict : Bool} {fuel : Nat} {read : List Char} {c : Char}
    {cs : List Char} {place : Place} {text : String} {rest : List Char} :
    Leaves (string.go strict (fuel + 1) read) ⟨c :: cs, place⟩ text rest ↔
      if c = '"' then String.ofList read.reverse = text ∧ cs = rest
      else if c = '\\' then
        Leaves (Read.escape strict >>= fun c => string.go strict fuel (c :: read))
          ⟨cs, place.after c⟩ text rest
      else 0x20 ≤ c.toNat ∧
        Leaves (string.go strict fuel (c :: read)) ⟨cs, place.after c⟩ text rest := by
  rw [string.go, leaves_peek?_bind]
  simp only [List.head?_cons, leaves_ite, leaves_skip_bind, leaves_pure]
  split
  · rfl
  · split
    · rfl
    · by_cases control : c.toNat < 0x20
      · have not_plain : ¬ 0x20 ≤ c.toNat := by omega
        cases strict <;> simp [control, not_plain]
      · have plain : 0x20 ≤ c.toNat := by omega
        simp [control, plain]

theorem Leaves.of_string_go {strict : Bool} {fuel : Nat} {read : List Char} {s : Rest}
    {text : String} {rest : List Char} (h : Leaves (string.go strict fuel read) s text rest) :
    ∃ cs body, Letters strict cs body ∧ s.text = cs ++ '"' :: rest ∧
      text = String.ofList (read.reverse ++ body) := by
  induction fuel generalizing s read with
  | zero => exact absurd h (by simp [string.go])
  | succ fuel ih =>
    obtain ⟨chars, place⟩ := s
    cases chars with
    | nil =>
      rw [string.go, leaves_peek?_bind] at h
      exact absurd h (by simp)
    | cons c cs =>
      rw [leaves_string_go_cons] at h
      split at h
      · rename_i closes
        obtain ⟨rfl, rfl⟩ := h
        exact ⟨[], [], .nil, by simp [closes], by simp⟩
      · rename_i no_mark
        split at h
        · rename_i escapes
          subst escapes
          obtain ⟨c, middle, place', first, further⟩ := h.parts
          obtain ⟨ds, letter, parted⟩ := first.of_escape
          obtain ⟨es, body, others, parted', rfl⟩ := ih further
          refine ⟨_, _, .cons letter others, ?_, by simp⟩
          dsimp only at parted parted'
          simp [parted, parted']
        · rename_i no_escape
          obtain ⟨no_control, further⟩ := h
          obtain ⟨es, body, others, parted, rfl⟩ := ih further
          refine ⟨_, _, .cons (.plain no_mark no_escape no_control) others, ?_, by simp⟩
          dsimp only at parted
          simp [parted]

theorem Leaves.string_go {strict : Bool} {fuel : Nat} {read : List Char} {cs body : List Char}
    {place : Place} {rest : List Char} (letters : Letters strict cs body)
    (enough : cs.length < fuel) :
    Leaves (string.go strict fuel read) ⟨cs ++ '"' :: rest, place⟩
      (String.ofList (read.reverse ++ body)) rest := by
  induction letters generalizing fuel read place with
  | nil =>
    cases fuel with
    | zero => exact absurd enough (Nat.not_lt_zero _)
    | succ fuel => simp [leaves_string_go_cons]
  | @cons cs ds text c first others ih =>
    cases fuel with
    | zero => exact absurd enough (Nat.not_lt_zero _)
    | succ fuel =>
      rw [List.length_append] at enough
      have body : read.reverse ++ c :: text = (c :: read).reverse ++ text := by simp
      rw [body, List.append_assoc]
      rcases first.plain_or_escaped with ⟨rfl, no_mark, no_escape, no_control⟩ | ⟨es, rfl⟩
      · rw [List.cons_append, List.nil_append, leaves_string_go_cons, if_neg no_mark,
          if_neg no_escape]
        exact ⟨no_control, ih (by simpa [Nat.add_comm] using enough)⟩
      · have few : ds.length < fuel := by
          rw [List.length_cons] at enough
          omega
        rw [List.cons_append, leaves_string_go_cons, if_neg (by decide), if_pos rfl]
        exact (Leaves.escape first).bind fun place' => ih few

/-- A string is read from behind its first quotation mark on. -/
theorem leaves_string {strict : Bool} {s : Rest} {text : String} {rest : List Char} :
    Leaves (string strict) s text rest ↔
      ∃ cs, Quoted strict ('"' :: cs) text ∧ s.text = cs ++ rest := by
  rw [string, leaves_steps_bind]
  constructor
  · intro h
    obtain ⟨cs, body, letters, parted, rfl⟩ := h.of_string_go
    exact ⟨cs ++ ['"'], .letters letters, by simp [parted]⟩
  · rintro ⟨_, ⟨letters⟩, parted⟩
    obtain ⟨chars, place⟩ := s
    obtain rfl : chars = _ ++ '"' :: rest := by simpa using parted
    exact Leaves.string_go letters (by simp only [List.length_append]; omega)

/-- A string begins with a quotation mark, and is read behind it. -/
theorem string_of_quoted {strict : Bool} {cs : List Char} {text : String}
    (quoted : Quoted strict cs text) :
    ∃ ds, cs = '"' :: ds ∧ ∀ {rest : List Char} {place : Place},
      Leaves (string strict) ⟨ds ++ rest, place⟩ text rest := by
  obtain ⟨letters⟩ := quoted
  exact ⟨_, rfl, leaves_string.mpr ⟨_, .letters letters, rfl⟩⟩

end Read

end RouteManifest.Json
