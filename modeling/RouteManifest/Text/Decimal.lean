/-!
# Decimal forms of binary numbers

A finite number `m · 2^q` is written with the fewest decimal digits that no other number of its
precision is nearer to. All of it is exact arithmetic on natural numbers; only the step from a
hardware number to `m` and `q` looks at bits.
-/

namespace RouteManifest.Text.Decimal

/-- A number in decimal form, `digits · 10^exponent`. -/
structure Form where
  digits : Nat
  exponent : Int
  deriving DecidableEq, Repr

def width (n : Nat) : Nat := (Nat.toDigits 10 n).length

/-- The quotient of two numbers over powers of ten: `num / den · 10^(-e)`. -/
def scale (num den : Nat) (e : Int) : Nat × Nat :=
  if e ≥ 0 then (num, den * Nat.pow 10 e.toNat) else (num * Nat.pow 10 (-e).toNat, den)

/-- The power of ten just above the positive number `num / den`. -/
def magnitude (num den : Nat) : Int :=
  if num ≥ den then width (num / den)
  else 1 - (width ((den + num - 1) / num - 1) : Int)

/-- Ends of decimal digits that are zero go into the exponent; `fuel` bounds their number. -/
def trim (f : Form) : Nat → Form
  | 0 => f
  | fuel + 1 =>
    if f.digits ≠ 0 ∧ f.digits % 10 = 0 then trim ⟨f.digits / 10, f.exponent + 1⟩ fuel else f

/-- The shortest form of `m · 2^q` among numbers with 53 binary digits; `m` is positive. -/
def shortest (m : Nat) (q : Int) : Form :=
  let den := if q ≥ 2 then 1 else Nat.pow 2 (2 - q).toNat
  let unit := if q ≥ 2 then Nat.pow 2 (q - 2).toNat else 1
  let num := 4 * m * unit
  let low := num - (if m = Nat.pow 2 52 ∧ q > -1074 then 1 else 2) * unit
  let high := num + 2 * unit
  let top : Int := magnitude num den
  let reads (n d : Nat) : Bool :=
    if m % 2 = 0 then low * d ≤ n * den && n * den ≤ high * d
    else low * d < n * den && n * den < high * d
  let rec go : Nat → Nat → Form
    | 0, n => ⟨num / den, n⟩
    | fuel + 1, n =>
      let e : Int := top - (n : Int)
      let (a, b) := scale num den e
      let below := a / b
      let hit (x : Nat) : Bool :=
        if e ≥ 0 then reads (x * Nat.pow 10 e.toNat) 1 else reads x (Nat.pow 10 (-e).toNat)
      let nearerAbove := 2 * (a - below * b) > b
      if nearerAbove && hit (below + 1) then ⟨below + 1, e⟩
      else if hit below then ⟨below, e⟩
      else if hit (below + 1) then ⟨below + 1, e⟩
      else go fuel (n + 1)
  trim (go 17 1) 20

def parts? (f : Float) : Option (Nat × Int) :=
  let bits := f.toBits.toNat
  let exponent : Nat := bits / Nat.pow 2 52 % Nat.pow 2 11
  let fraction : Nat := bits % Nat.pow 2 52
  if exponent = 2047 then none
  else if exponent = 0 then some (fraction, -1074)
  else some (fraction + Nat.pow 2 52, (exponent : Int) - 1075)

/-- The hardware number nearest to `m · 10^e`. -/
def nearest (m : Nat) (e : Int) : Float :=
  if m = 0 then 0
  else
    let top := e + width m
    if top > 320 then Float.ofScientific 1 false 400
    else if top < -400 then 0
    else Float.ofScientific m (e < 0) e.natAbs

/-- A form without exponent. -/
def Form.positional (f : Form) : String :=
  let ds := Nat.toDigits 10 f.digits
  if f.exponent ≥ 0 then String.ofList (ds ++ List.replicate f.exponent.toNat '0')
  else
    let places := (-f.exponent).toNat
    let ds := List.replicate (places + 1 - ds.length) '0' ++ ds
    String.ofList (ds.take (ds.length - places) ++ '.' :: ds.drop (ds.length - places))

/-- A form with a point, or with an exponent where it would take more than a few zeros. -/
def Form.compact (f : Form) : String :=
  let ds := Nat.toDigits 10 f.digits
  let point := f.exponent + ds.length
  if f.digits = 0 then "0.0"
  else if 0 ≤ f.exponent ∧ point ≤ 16 then
    String.ofList (ds ++ List.replicate f.exponent.toNat '0') ++ ".0"
  else if -5 < point ∧ point ≤ 16 then f.positional
  else
    let fractional := if ds.length = 1 then [] else '.' :: ds.drop 1
    String.ofList (ds.take 1 ++ fractional) ++ "e" ++ toString (point - 1)

/-- The form of a hardware number without its sign; none if it is not finite. -/
def Form.ofFloat? (f : Float) : Option Form :=
  (parts? f).map fun (m, q) => if m = 0 then ⟨0, 0⟩ else shortest m q

/-- The number nearest to `m · 10^e`, written without exponent. -/
def ofScientific (m : Nat) (e : Int) : String :=
  match Form.ofFloat? (nearest m e) with
  | some f => f.positional
  | none => "inf"

/-- The number nearest to a natural number. -/
def ofNat (n : Nat) : String := ofScientific n 0

end RouteManifest.Text.Decimal
