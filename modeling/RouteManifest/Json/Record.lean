import RouteManifest.Json.Reader
import RouteManifest.Text.Decimal
import RouteManifest.Text.Identifier

/-!
# Records in JSON

A record with a single field is written as an object that may have other members, or as a list
of one element. Where something else stands, the fault tells what stands there.
-/

namespace RouteManifest.Json

namespace Read

/-! ## Numbers

A number that stands in the wrong place is shown as a reader of numbers understands it: a whole
number that fits 64 bits exactly, any other one as the hardware number that it comes to. -/

/-- Adds digits to a number as long as it stays below `2 ^ 64`; the answer has the number of
digits that are left. -/
def gather (n : Nat) : List Nat → Nat × Nat
  | [] => (n, 0)
  | d :: ds => if 10 * n + d < Nat.pow 2 64 then gather (10 * n + d) ds else (n, ds.length + 1)

def power (e : Nat) : Float := Text.Decimal.nearest 1 e

/-- The hardware number `n · 10^e`; none if it is too large. -/
def scaled? (n : Float) (e : Int) : Option Float :=
  go 8 n e
where
  go : Nat → Float → Int → Option Float
    | 0, f, _ => some f
    | fuel + 1, f, e =>
      if e.natAbs ≤ 308 then
        if 0 ≤ e then
          let f := f * power e.natAbs
          if f.isInf then none else some f
        else some (f / power e.natAbs)
      else if f == 0.0 then some f
      else if 0 ≤ e then none
      else go fuel (f / power 308) (e + 308)

/-- The exponent of a number behind its mark; none if it is beyond 31 bits. -/
def exponent? (isZero : Bool) : Read (Option Int) := do
  skip
  let sign ← peek?
  if sign = some '+' || sign = some '-' then skip
  let negative := sign = some '-'
  match ← peek? with
  | none => failHere .endInValue
  | c => if !isDigit? c then failAhead .invalidNumber
  let e ← go negative (← steps) 0
  return e.map fun e => if negative then -e else e
where
  go (negative : Bool) : Nat → Nat → Read (Option Int)
    | 0, n => return some n
    | fuel + 1, n => do
      match ← peek? with
      | some c =>
        if !c.isDigit then return some n
        skip
        let n := 10 * n + (c.toNat - 48)
        if n < Nat.pow 2 31 then go negative fuel n
        else if !isZero && !negative then failHere .numberOutOfRange
        else
          let _ ← digits
          return none
      | none => return some n

/-- Reads a number behind its sign; the answer shows it. -/
def number (positive : Bool) : Read String := do
  let first ← peek?
  if first.isNone then failHere .endInValue
  if !isDigit? first then failAhead .invalidNumber
  let whole ←
    if first = some '0' then
      skip
      if isDigit? (← peek?) then failAhead .invalidNumber
      pure []
    else digits
  let (n, left) := gather 0 whole
  let hasPoint := (← peek?) = some '.'
  let (n, shift) ←
    if hasPoint then
      skip
      let fraction ← digits
      if fraction.isEmpty then
        if (← peek?).isNone then failAhead .endInValue
        failAhead .invalidNumber
      let (n, ignored) := gather n fraction
      pure (n, (left : Int) - (fraction.length - ignored : Nat))
    else pure (n, (left : Int))
  let hasExponent := isExponentMark (← peek?)
  let e ← if hasExponent then exponent? (n = 0) else pure (some 0)
  let isWhole := !hasPoint && !hasExponent && left = 0
  if isWhole && positive then return s!"integer `{n}`"
  else if isWhole && 0 < n && n ≤ Nat.pow 2 63 then return s!"integer `-{n}`"
  else
    let found :=
      match e with
      | some e => scaled? n.toUInt64.toFloat (shift + e)
      | none => some 0
    match found.bind Text.Decimal.Form.ofFloat? with
    | some form =>
      return "floating point `" ++ (if positive then "" else "-") ++ form.compact ++ "`"
    | none => failHere .numberOutOfRange

/-! ## Values of the wrong kind -/

/-- What stands here, as a fault tells it. Of lists and objects nothing is read. -/
def description : Read String := do
  match ← peek? with
  | some 'n' =>
    skip
    word ['u', 'l', 'l']
    return "null"
  | some 't' =>
    skip
    word ['r', 'u', 'e']
    return "boolean `true`"
  | some 'f' =>
    skip
    word ['a', 'l', 's', 'e']
    return "boolean `false`"
  | some '-' =>
    skip
    number false
  | some '"' =>
    skip
    return "string " ++ Text.showText (← string true)
  | some '[' => return "sequence"
  | some '\x7b' => return "map"
  | c => if isDigit? c then number true else failAhead .expectedValue

/-- Stops because something else stands where a value is expected. -/
def mismatch {α : Type} (expected : String) : Read α := do
  let found ← description
  throw ⟨s!"invalid type: {found}, expected {expected}", some (← get).place⟩

/-! ## Values -/

/-- A text, or nothing where it says so. -/
def text? (expected : String) : Read (Option String) := do
  match ← blanks with
  | none => failAhead .endInValue
  | some 'n' =>
    skip
    word ['u', 'l', 'l']
    return none
  | some '"' =>
    skip
    return some (← string true)
  | some _ => mismatch expected

/-- Reads what is between two brackets, and the second of them. A fault of the whole lies behind
what was passed of it. -/
def enclosed {α : Type} (inner : Read α) (close : Read Unit) : Read α := fun s =>
  match inner s with
  | .ok a s => (close *> pure a) s
  | .error e s =>
    let s :=
      match close s with
      | .ok _ s | .error _ s => s
    .error { e with place? := e.place?.or (some s.place) } s

def closeList : Read Unit := do
  match ← blanks with
  | some ']' => skip
  | some ',' =>
    skip
    if (← blanks) = some ']' then failAhead .trailingComma else failAhead .trailingText
  | some _ => failAhead .trailingText
  | none => failAhead .endInList

def closeObject : Read Unit := do
  match ← blanks with
  | some '\x7d' => skip
  | some ',' => failAhead .trailingComma
  | some _ => failAhead .trailingText
  | none => failAhead .endInObject

/-- Goes to the next member of an object; `false` at the end. -/
def hasMember (isFirst : Bool) : Read Bool := do
  match ← blanks with
  | none => failAhead .endInObject
  | some '\x7d' => return false
  | some c =>
    if isFirst then
      if c = '"' then return true else failAhead .keyNotString
    else if c = ',' then
      skip
      match ← blanks with
      | some '"' => return true
      | some '\x7d' => failAhead .trailingComma
      | some _ => failAhead .keyNotString
      | none => failAhead .endInValue
    else failAhead .expectedObjectEnd

def colon : Read Unit := do
  match ← blanks with
  | some ':' => skip
  | some _ => failAhead .expectedColon
  | none => failAhead .endInObject

/-- The value of a field among the members of an object, if there is one. -/
def member? {α : Type} (field : String) (value : Read α) : Read (Option α) := do
  go (← steps) true none
where
  go : Nat → Bool → Option α → Read (Option α)
    | 0, _, found => return found
    | fuel + 1, isFirst, found => do
      if !(← hasMember isFirst) then return found
      skip
      let key ← string true
      if key = field then
        if found.isSome then reject s!"duplicate field `{field}`"
        colon
        let a ← value
        go fuel false (some a)
      else
        colon
        anyValue
        go fuel false found

def element? {α : Type} (value : Read α) : Read (Option α) := do
  match ← blanks with
  | some ']' => return none
  | some _ => some <$> value
  | none => failAhead .endInList

/-- A record of one field. As a list it may be empty only where the field has a default. -/
def record {α : Type} (name field : String) (hasDefault : Bool) (value : Read α) :
    Read (Option α) := do
  match ← blanks with
  | none => failAhead .endInValue
  | some '[' =>
    skip
    let own : Read (Option α) := do
      match ← element? value with
      | some a => return some a
      | none =>
        if hasDefault then return none
        else reject s!"invalid length 0, expected struct {name} with 1 element"
    enclosed own closeList
  | some '\x7b' =>
    skip
    enclosed (member? field value) closeObject
  | some _ => mismatch s!"struct {name}"

end Read

def read {α : Type} (reader : Read α) (text : String) : Except Failure α :=
  let whole : Read α := do
    let a ← reader
    match ← Read.blanks with
    | none => return a
    | some _ => Read.failAhead .trailingText
  match whole ⟨text.toList, ⟨1, 0⟩⟩ with
  | .ok a _ => .ok a
  | .error e _ => .error e

end RouteManifest.Json
