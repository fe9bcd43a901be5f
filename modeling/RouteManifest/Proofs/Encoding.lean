import Mathlib.Algebra.Group.Nat.Defs
import RouteManifest.Text.Base64

/-!
# Reading base 64

A reader that knows nothing of how the encoding is computed: the digit of a character is told by
the ranges of the alphabet, every group has four characters, only the last may be filled up, and the
bits that no byte takes must be zero. It gives back what was encoded.
-/

namespace RouteManifest.Text.Base64

/-- The digit that a character stands for. -/
def value? (c : Char) : Option Nat :=
  if 'A' ≤ c ∧ c ≤ 'Z' then some (c.toNat - 'A'.toNat)
  else if 'a' ≤ c ∧ c ≤ 'z' then some (c.toNat - 'a'.toNat + 26)
  else if '0' ≤ c ∧ c ≤ '9' then some (c.toNat - '0'.toNat + 52)
  else if c = '+' then some 62
  else if c = '/' then some 63
  else none

/-- The number that four digits make up. -/
def group? (a b c d : Char) : Option Nat := do
  let a ← value? a
  let b ← value? b
  let c ← value? c
  let d ← value? d
  return ((a * 64 + b) * 64 + c) * 64 + d

/-- The bytes of an encoded text, if it is one. -/
def decode : List Char → Option (List UInt8)
  | [] => some []
  | [a, b, '=', '='] => do
    let n ← group? a b 'A' 'A'
    if n % 2 ^ 16 = 0 then return [UInt8.ofNat (n / 2 ^ 16)] else none
  | [a, b, c, '='] => do
    let n ← group? a b c 'A'
    if n % 2 ^ 8 = 0 then return [UInt8.ofNat (n / 2 ^ 16), UInt8.ofNat (n / 2 ^ 8)] else none
  | a :: b :: c :: d :: rest => do
    let n ← group? a b c d
    return UInt8.ofNat (n / 2 ^ 16) :: UInt8.ofNat (n / 2 ^ 8) :: UInt8.ofNat n :: (← decode rest)
  | _ => none

theorem value?_digit (n : Nat) : value? (digit n) = some (n % 64) := by
  have each : ∀ k < 64, value? (digit k) = some k := by decide +kernel
  have reduced : digit n = digit (n % 64) := by rw [digit, digit, Nat.mod_mod]
  rw [reduced]
  exact each (n % 64) (Nat.mod_lt n (by decide))

theorem digit_ne_padding (n : Nat) : digit n ≠ '=' := by
  intro padding
  have told := value?_digit n
  rw [padding] at told
  cases told

/-- Four digits of a number below `2 ^ 24` are that number. -/
theorem group?_digits (n : Nat) (bound : n < 2 ^ 24) :
    group? (digit (n >>> 18)) (digit (n >>> 12)) (digit (n >>> 6)) (digit n) = some n := by
  simp only [group?, value?_digit, Nat.shiftRight_eq_div_pow]
  have whole : ((n / 2 ^ 18 % 64 * 64 + n / 2 ^ 12 % 64) * 64 + n / 2 ^ 6 % 64) * 64 + n % 64 =
      n := by omega
  exact congrArg some whole

theorem byte_of_group (a b c : UInt8) :
    let n := (a.toNat <<< 16) + (b.toNat <<< 8) + c.toNat
    n < 2 ^ 24 ∧ UInt8.ofNat (n / 2 ^ 16) = a ∧ UInt8.ofNat (n / 2 ^ 8) = b ∧ UInt8.ofNat n = c := by
  have first := a.toNat_lt
  have second := b.toNat_lt
  have third := c.toNat_lt
  simp only [Nat.shiftLeft_eq, ← UInt8.toNat_inj, UInt8.toNat_ofNat']
  omega

theorem digit_eq_A {n : Nat} (h : n % 64 = 0) : digit n = 'A' := by
  rw [digit, h]
  rfl

theorem decode_two {x y : Char} {n : Nat} (read : group? x y 'A' 'A' = some n)
    (whole : n % 2 ^ 16 = 0) : decode [x, y, '=', '='] = some [UInt8.ofNat (n / 2 ^ 16)] := by
  rw [decode, read]
  exact if_pos whole

theorem decode_three {x y z : Char} {n : Nat} (read : group? x y z 'A' = some n) (plain : z ≠ '=')
    (whole : n % 2 ^ 8 = 0) :
    decode [x, y, z, '='] = some [UInt8.ofNat (n / 2 ^ 16), UInt8.ofNat (n / 2 ^ 8)] := by
  rw [decode, read]
  · exact if_pos whole
  · exact plain

theorem decode_four {x y z w : Char} {rest : List Char} {n : Nat} (read : group? x y z w = some n)
    (plain : w ≠ '=') :
    decode (x :: y :: z :: w :: rest) = (decode rest).map fun bytes =>
      UInt8.ofNat (n / 2 ^ 16) :: UInt8.ofNat (n / 2 ^ 8) :: UInt8.ofNat n :: bytes := by
  rw [decode, read]
  · cases decode rest with
    | none => rfl
    | some bytes => rfl
  · intro _ padding
    exact absurd padding plain
  · intro padding
    exact absurd padding plain

/-- What was encoded is read back, byte by byte, whatever the number of bytes. -/
theorem decode_encode (bytes : List UInt8) : decode (encode bytes) = some bytes := by
  fun_induction encode bytes with
  | case1 => rfl
  | case2 a n =>
    obtain ⟨bound, first, -, -⟩ := byte_of_group a 0 0
    have same : (a.toNat <<< 16) + ((0 : UInt8).toNat <<< 8) + (0 : UInt8).toNat = n := by
      simp [n]
    rw [same] at bound first
    have whole : n % 2 ^ 16 = 0 := by
      simp only [n, Nat.shiftLeft_eq]
      omega
    have third : digit (n >>> 6) = 'A' := digit_eq_A (by
      rw [Nat.shiftRight_eq_div_pow]
      omega)
    have fourth : digit n = 'A' := digit_eq_A (by omega)
    have read := group?_digits n bound
    rw [third, fourth] at read
    rw [decode_two read whole, first]
  | case3 a b n =>
    obtain ⟨bound, first, second, -⟩ := byte_of_group a b 0
    have same : (a.toNat <<< 16) + (b.toNat <<< 8) + (0 : UInt8).toNat = n := by
      simp [n]
    rw [same] at bound first second
    have whole : n % 2 ^ 8 = 0 := by
      simp only [n, Nat.shiftLeft_eq]
      omega
    have fourth : digit n = 'A' := digit_eq_A (by omega)
    have read := group?_digits n bound
    rw [fourth] at read
    rw [decode_three read (digit_ne_padding _) whole, first, second]
  | case4 a b c rest n ih =>
    obtain ⟨bound, first, second, third⟩ : n < 2 ^ 24 ∧ UInt8.ofNat (n / 2 ^ 16) = a ∧
        UInt8.ofNat (n / 2 ^ 8) = b ∧ UInt8.ofNat n = c := byte_of_group a b c
    have read := group?_digits n bound
    rw [decode_four read (digit_ne_padding n), ih, Option.map_some, first, second, third]

end RouteManifest.Text.Base64
