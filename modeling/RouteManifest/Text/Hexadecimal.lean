/-!
# Hexadecimal digits

Digits in base sixteen, written and read. Read digits may be of either case.
-/

namespace RouteManifest.Text

/-- The digit of a value below sixteen. -/
def hexDigit (n : Nat) : Char := (Nat.toDigits 16 n).headD '0'

def hexDigit? (c : Char) : Option Nat :=
  if '0' ≤ c ∧ c ≤ '9' then some (c.toNat - 48)
  else if 'a' ≤ c ∧ c ≤ 'f' then some (c.toNat - 87)
  else if 'A' ≤ c ∧ c ≤ 'F' then some (c.toNat - 55)
  else none

def hexDigits (n : Nat) : String := String.ofList (Nat.toDigits 16 n)

end RouteManifest.Text
