import RouteManifest.Text.Hexadecimal

/-!
# Reading JSON

A reader goes through a text once, from left to right, and asks for what it needs. The place of a
fault is told by line and column, where columns count the bytes of the line that lie before it.

Nothing is kept of values that nobody asks for. They are passed over, and inside them less is
checked than in others: surrogates may stand alone there.
-/

namespace RouteManifest.Json

inductive Fault where
  | endInList
  | endInObject
  | endInString
  | endInValue
  | expectedColon
  | expectedListEnd
  | expectedObjectEnd
  | expectedWord
  | expectedValue
  | invalidEscape
  | invalidNumber
  | numberOutOfRange
  | controlCharacter
  | keyNotString
  | loneSurrogate
  | unfinishedEscape
  | trailingComma
  | trailingText
  deriving DecidableEq, Repr, Inhabited

def Fault.message : Fault → String
  | endInList => "EOF while parsing a list"
  | endInObject => "EOF while parsing an object"
  | endInString => "EOF while parsing a string"
  | endInValue => "EOF while parsing a value"
  | expectedColon => "expected `:`"
  | expectedListEnd => "expected `,` or `]`"
  | expectedObjectEnd => "expected `,` or `\x7d`"
  | expectedWord => "expected ident"
  | expectedValue => "expected value"
  | invalidEscape => "invalid escape"
  | invalidNumber => "invalid number"
  | numberOutOfRange => "number out of range"
  | controlCharacter => "control character (\\u0000-\\u001F) found while parsing a string"
  | keyNotString => "key must be a string"
  | loneSurrogate => "lone leading surrogate in hex escape"
  | unfinishedEscape => "unexpected end of hex escape"
  | trailingComma => "trailing comma"
  | trailingText => "trailing characters"

/-- A place in a text: lines from one, columns in bytes. -/
structure Place where
  line : Nat
  column : Nat
  deriving DecidableEq, Repr, Inhabited

/-- The place behind a character. -/
def Place.after (p : Place) (c : Char) : Place :=
  if c = '\n' then ⟨p.line + 1, 0⟩ else ⟨p.line, p.column + c.utf8Size⟩

/-- The place behind the first byte of a character. -/
def Place.inside (p : Place) (c : Char) : Place :=
  if c = '\n' then ⟨p.line + 1, 0⟩ else ⟨p.line, p.column + 1⟩

/-- A reason to stop. What is wrong with a value as a whole gets its place when the value was
passed. -/
structure Failure where
  message : String
  place? : Option Place
  deriving DecidableEq, Repr, Inhabited

def Failure.display (f : Failure) : String :=
  match f.place? with
  | some p => s!"{f.message} at line {p.line} column {p.column}"
  | none => f.message

/-- What is left of a text, and where it begins. -/
structure Rest where
  text : List Char
  place : Place
  deriving DecidableEq, Repr, Inhabited

abbrev Read := EStateM Failure Rest

namespace Read

def peek? : Read (Option Char) := do return (← get).text.head?

/-- Passes one character, if there is one. -/
def skip : Read Unit := modify fun s =>
  match s.text with
  | c :: cs => ⟨cs, s.place.after c⟩
  | [] => s

/-- Stops where the rest begins. -/
def failHere {α : Type} (fault : Fault) : Read α := do
  throw ⟨fault.message, some (← get).place⟩

/-- Stops behind the first byte of the rest. -/
def failAhead {α : Type} (fault : Fault) : Read α := do
  let s ← get
  let place :=
    match s.text with
    | c :: _ => s.place.inside c
    | [] => s.place
  throw ⟨fault.message, some place⟩

/-- Stops because a value is not the right one. -/
def reject {α : Type} (message : String) : Read α := throw ⟨message, none⟩

/-- A number of steps that is enough to read the rest. -/
def steps : Read Nat := do return 2 * (← get).text.length + 2

def isBlank (c : Char) : Bool := c = ' ' || c = '\n' || c = '\t' || c = '\r'

/-- Passes blanks; the answer is the character behind them. -/
def blanks : Read (Option Char) := do
  go (← steps)
where
  go : Nat → Read (Option Char)
    | 0 => peek?
    | fuel + 1 => do
      match ← peek? with
      | some c =>
        if isBlank c then
          skip
          go fuel
        else return some c
      | none => return none

def word : List Char → Read Unit
  | [] => return ()
  | c :: cs => do
    match ← peek? with
    | none => failHere .endInValue
    | some d =>
      if c = d then
        skip
        word cs
      else failAhead .expectedWord

/-! ## Strings -/

/-- Takes so many bytes. Of a character that is not whole among them nothing is left. -/
def takeBytes : Nat → Read (List Char)
  | 0 => return []
  | n + 1 => do
    let s ← get
    match s.text with
    | [] => return []
    | c :: cs =>
      if c.utf8Size ≤ n + 1 then
        skip
        return c :: (← takeBytes (n + 1 - c.utf8Size))
      else
        set (⟨cs, ⟨s.place.line, s.place.column + n + 1⟩⟩ : Rest)
        return [c]
termination_by n => n
decreasing_by
  have := c.utf8Size_pos
  omega

/-- The number that four digits of an escape make up. -/
def hexEscape : Read Nat := do
  let s ← get
  let chars ← takeBytes 4
  if ((s.text.take 4).foldl (fun n c => n + c.utf8Size) 0 < 4 : Bool) then failHere .endInString
  else
    match chars.map Text.hexDigit? with
    | [some a, some b, some c, some d] => return ((a * 16 + b) * 16 + c) * 16 + d
    | _ => failHere .invalidEscape

/-- Passes a character that has to come next in a pair of surrogates. -/
def pairMark (c : Char) : Read Unit := do
  match ← peek? with
  | none => failHere .endInString
  | some d => if c = d then skip else failAhead .unfinishedEscape

/-- The character of an escape by number; surrogates stand in pairs. -/
def unicodeEscape (strict : Bool) : Read Char := do
  let high ← hexEscape
  if !strict then return '?'
  if 0xDC00 ≤ high && high ≤ 0xDFFF then failHere .loneSurrogate
  else if high < 0xD800 || 0xDBFF < high then return Char.ofNat high
  else
    pairMark '\\'
    pairMark 'u'
    let low ← hexEscape
    if low < 0xDC00 || 0xDFFF < low then failHere .loneSurrogate
    else return Char.ofNat ((high - 0xD800) * 0x400 + (low - 0xDC00) + 0x10000)

/-- The characters that have an escape of their own. -/
def simpleEscapes : List (Char × Char) :=
  [('"', '"'), ('\\', '\\'), ('/', '/'), ('b', '\x08'), ('f', '\x0c'), ('n', '\n'), ('r', '\r'),
    ('t', '\t')]

/-- The character of an escape, behind the backslash. -/
def escape (strict : Bool) : Read Char := do
  match ← peek? with
  | none => failHere .endInString
  | some 'u' =>
    skip
    unicodeEscape strict
  | some c =>
    match simpleEscapes.lookup c with
    | some meaning =>
      skip
      return meaning
    | none => failAhead .invalidEscape

/-- A string from behind its first quotation mark on. -/
def string (strict : Bool) : Read String := do
  go (← steps) []
where
  go : Nat → List Char → Read String
    | 0, _ => failHere .endInString
    | fuel + 1, read => do
      match ← peek? with
      | none => failHere .endInString
      | some c =>
        if c = '"' then
          skip
          return String.ofList read.reverse
        else if c = '\\' then
          skip
          let c ← escape strict
          go fuel (c :: read)
        else if c.toNat < 0x20 then
          if strict then skip
          failHere .controlCharacter
        else
          skip
          go fuel (c :: read)

/-! ## Values that nobody asks for -/

def isDigit? (c? : Option Char) : Bool := c?.any Char.isDigit

def digits : Read (List Nat) := do
  go (← steps)
where
  go : Nat → Read (List Nat)
    | 0 => return []
    | fuel + 1 => do
      match ← peek? with
      | some c =>
        if c.isDigit then
          skip
          return (c.toNat - 48) :: (← go fuel)
        else return []
      | none => return []

def isExponentMark (c? : Option Char) : Bool := c? = some 'e' || c? = some 'E'

def passExponent : Read Unit := do
  skip
  let sign ← peek?
  if sign = some '+' || sign = some '-' then skip
  if isDigit? (← peek?) then
    let _ ← digits
  else failAhead .invalidNumber

/-- Passes a number, behind its sign. -/
def passNumber : Read Unit := do
  match ← peek? with
  | some '0' =>
    skip
    if isDigit? (← peek?) then failAhead .invalidNumber
  | c =>
    if isDigit? c then
      let _ ← digits
    else failAhead .invalidNumber
  let c ← peek?
  if c = some '.' then
    skip
    if (← digits).isEmpty then failAhead .invalidNumber
    if isExponentMark (← peek?) then passExponent
  else if isExponentMark c then passExponent

mutual

def passValue : Nat → Read Unit
  | 0 => failHere .endInValue
  | fuel + 1 => do
    match ← blanks with
    | none => failAhead .endInValue
    | some c =>
      match c with
      | 'n' =>
        skip
        word ['u', 'l', 'l']
      | 't' =>
        skip
        word ['r', 'u', 'e']
      | 'f' =>
        skip
        word ['a', 'l', 's', 'e']
      | '-' =>
        skip
        passNumber
      | '"' =>
        skip
        let _ ← string false
      | '[' =>
        skip
        match ← blanks with
        | some ']' => skip
        | none => failAhead .endInList
        | some _ => passElements fuel
      | '\x7b' =>
        skip
        match ← blanks with
        | some '\x7d' => skip
        | none => failAhead .endInObject
        | some _ => passMembers fuel
      | _ => if c.isDigit then passNumber else failAhead .expectedValue

def passElements : Nat → Read Unit
  | 0 => failHere .endInValue
  | fuel + 1 => do
    passValue fuel
    match ← blanks with
    | none => failAhead .endInList
    | some ',' =>
      skip
      passElements fuel
    | some ']' => skip
    | some _ => failAhead .expectedListEnd

/-- Passes the members of an object and its end. -/
def passMembers : Nat → Read Unit
  | 0 => failHere .endInValue
  | fuel + 1 => do
    match ← blanks with
    | none => failAhead .endInObject
    | some '"' => skip
    | some _ => failAhead .keyNotString
    let _ ← string false
    match ← blanks with
    | none => failAhead .endInObject
    | some ':' => skip
    | some _ => failAhead .expectedColon
    passValue fuel
    match ← blanks with
    | none => failAhead .endInObject
    | some ',' =>
      skip
      passMembers fuel
    | some '\x7d' => skip
    | some _ => failAhead .expectedObjectEnd

end

def anyValue : Read Unit := do passValue (← steps)

end Read

end RouteManifest.Json
