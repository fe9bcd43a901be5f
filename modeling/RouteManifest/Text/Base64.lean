/-!
# Base 64

Bytes in groups of three as four characters each; the last group is filled up with `=`.
-/

namespace RouteManifest.Text.Base64

/-- The characters of the sixty-four digits in order. -/
def alphabet : Array Char :=
  "ABCDEFGHIJKLMNOPQRSTUVWXYZabcdefghijklmnopqrstuvwxyz0123456789+/".toList.toArray

/-- The character of a digit. -/
def digit (n : Nat) : Char := alphabet.getD (n % 64) '='

def encode : List UInt8 → List Char
  | [] => []
  | [a] =>
    let n := a.toNat <<< 16
    [digit (n >>> 18), digit (n >>> 12), '=', '=']
  | [a, b] =>
    let n := (a.toNat <<< 16) + (b.toNat <<< 8)
    [digit (n >>> 18), digit (n >>> 12), digit (n >>> 6), '=']
  | a :: b :: c :: rest =>
    let n := (a.toNat <<< 16) + (b.toNat <<< 8) + c.toNat
    digit (n >>> 18) :: digit (n >>> 12) :: digit (n >>> 6) :: digit n :: encode rest

end RouteManifest.Text.Base64
