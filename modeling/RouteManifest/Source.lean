/-!
# Source texts and positions

A position counts the characters of a source text from one, and zero is no place in it: nodes
that are not written in the source carry it. Lines end at a line feed, at a carriage return, or at
the two together; a line end that closes the text opens no further line. Columns count UTF-16
units, as editors and bundlers do.
-/

namespace RouteManifest

/-- A stretch of the source, from a position up to another. -/
structure Span where
  lo : Nat
  hi : Nat
  deriving DecidableEq, Repr, Inhabited

/-- The span of what stands nowhere in the source. -/
def Span.nowhere : Span := ⟨0, 0⟩

def Span.isNowhere (s : Span) : Bool := s.lo = 0 && s.hi = 0

/-- A line and a column of a file, both from zero. -/
structure Location where
  file : String
  line : Nat
  column : Nat
  deriving DecidableEq, Repr, Inhabited

/-- The text `file:line:column`, from one, as editors expect it. -/
def Location.display (l : Location) : String :=
  s!"{l.file}:{l.line + 1}:{l.column + 1}"

namespace Source

/-- A byte order mark at the start of a text is no part of it. -/
def withoutMark : List Char → List Char
  | '\uFEFF' :: cs => cs
  | cs => cs

/-- A line ends with `c`, where `rest` follows it. -/
def endsLine (c : Char) (rest : List Char) : Bool :=
  c = '\n' || (c = '\r' && rest.head? ≠ some '\n')

def units (c : Char) : Nat := if c.toNat ≥ 0x10000 then 2 else 1

/-- Line and column after `n` characters, counted on from `line` and `column`. -/
def advance : List Char → Nat → Nat → Nat → Nat × Nat
  | [], _, line, column => (line, column)
  | _, 0, line, column => (line, column)
  | c :: cs, n + 1, line, column =>
    if endsLine c cs && !cs.isEmpty then advance cs n (line + 1) 0
    else advance cs n line (column + units c)

def lineColumn (text : List Char) (position : Nat) : Nat × Nat :=
  advance text (position - 1) 0 0

/-- Line and column of every position of a text from one on. -/
def unitTable (text : List Char) : Array (Nat × Nat) :=
  let rec go (line column : Nat) (acc : Array (Nat × Nat)) : List Char → Array (Nat × Nat)
    | [] => acc.push (line, column)
    | c :: cs =>
      let acc := acc.push (line, column)
      if endsLine c cs && !cs.isEmpty then go (line + 1) 0 acc cs
      else go line (column + units c) acc cs
  go 0 0 #[] text

end Source

def Location.ofPosition (file : String) (text : List Char) (position : Nat) : Location :=
  let (line, column) := Source.lineColumn text position
  ⟨file, line, column⟩

end RouteManifest
