import RouteManifest.Script.Token
import RouteManifest.Script.Context
import RouteManifest.Text.Identifier
import RouteManifest.Text.Entity
import RouteManifest.Text.Decimal

/-!
# From characters to tokens

A scanner stands before the characters that are left and remembers what decides the next token:
whether an expression can begin, which brackets are open, and where the last token ended. Comments
are set aside on the way, each attached to the position of a token. Faults that can be passed over
are recorded; any other makes a token of its own.
-/

namespace RouteManifest.Script

/-- An open bracket, or whatever else changes how characters are read until it closes. -/
inductive Mode where
  | blockBrace
  | exprBrace
  | templateHole
  | stmtParen (isFor : Bool)
  | exprParen
  | template (start : Nat)
  | functionExpr
  | classExpr
  | openingTag
  | closingTag
  | tagBody
  deriving DecidableEq, Repr, Inhabited

/-- What closes in this mode was an expression. -/
def Mode.isExpr : Mode → Bool
  | exprBrace | templateHole | exprParen | template _ | functionExpr | classExpr | tagBody => true
  | _ => false

/-- In this mode blanks are part of a token. -/
def Mode.keepsBlanks : Mode → Bool
  | template _ | tagBody => true
  | _ => false

/-- A comment at the position of the token that it belongs to. -/
structure PlacedComment where
  leading : Bool
  position : Nat
  comment : Comment
  deriving Repr, Inhabited

structure Scanner where
  rest : List Char
  position : Nat
  exprAllowed : Bool
  lineBreak : Bool
  isFirst : Bool
  tokenStart : Nat
  lastEnd : Nat
  modes : List Mode
  lastRole : Option Token.Role
  pending : List Comment
  comments : Array PlacedComment
  failures : Array Failure
  deriving Inhabited

/-- The scanner at the start of a text. -/
def Scanner.start (text : List Char) : Scanner where
  rest := text
  position := 1
  exprAllowed := true
  lineBreak := false
  isFirst := true
  tokenStart := 1
  lastEnd := 1
  modes := [.blockBrace]
  lastRole := none
  pending := []
  comments := #[]
  failures := #[]

abbrev Scan := EStateM Failure Scanner

namespace Scan

/-- What a scan depends on besides the characters. -/
structure Setting where
  dialect : Dialect
  context : Context

def char? : Scan (Option Char) := do return (← get).rest.head?

def next? : Scan (Option Char) := do return (← get).rest.tail.head?

def position : Scan Nat := do return (← get).position

def isChar (c : Char) : Scan Bool := do return (← get).rest.head? = some c

def bump : Scan Unit :=
  modify fun s => { s with rest := s.rest.tail, position := s.position + 1 }

def skip (n : Nat) : Scan Unit :=
  modify fun s =>
    { s with rest := s.rest.drop n, position := s.position + min n s.rest.length }

def eat (c : Char) : Scan Bool := do
  if ← isChar c then
    bump
    return true
  else return false

/-- The characters that are left begin with the text. -/
def looksAt (text : String) : Scan Bool := do
  return text.toList.isPrefixOf (← get).rest

/-- The longest stretch of characters with the property, taken. -/
def takeWhile (p : Char → Bool) : Scan (List Char) := do
  let s ← get
  let taken := s.rest.takeWhile p
  set { s with rest := s.rest.drop taken.length, position := s.position + taken.length }
  return taken

def spanFrom (start : Nat) : Scan Span := do return ⟨start, ← position⟩

def fail {α : Type} (span : Span) (fault : Fault) : Scan α := throw ⟨span, fault⟩

def failFrom {α : Type} (start : Nat) (fault : Fault) : Scan α := do
  fail (← spanFrom start) fault

/-- Records a fault and goes on. -/
def report (c : Setting) (span : Span) (fault : Fault) : Scan Unit := do
  if c.context.ignoresFaults then return ()
  modify fun s => { s with failures := s.failures.push ⟨span, fault⟩ }

def reportFrom (c : Setting) (start : Nat) (fault : Fault) : Scan Unit := do
  report c (← spanFrom start) fault

def isLineEnd (c : Char) : Bool :=
  c = '\n' || c = '\r' || c = '\u2028' || c = '\u2029'

/-- The characters that separate tokens and end no line. -/
def isBlank (c : Char) : Bool :=
  c = ' ' || c = '\t' || c = '\x0b' || c = '\x0c' || c = '\x85' || c = '\xa0' || c = '\uFEFF'
    || c = '\u1680' || ('\u2000' ≤ c && c ≤ '\u200a') || c = '\u202f' || c = '\u205f'
    || c = '\u3000'

/-- Passes a comment that reaches to the end of the line; `marks` is the length of its marks. -/
def lineComment (marks : Nat) : Scan Unit := do
  let start ← position
  let s ← get
  let forNext := s.lineBreak || !((s.lastRole.map Token.Role.takesLineComment).getD true)
  skip marks
  let text ← takeWhile (!isLineEnd ·)
  let comment : Comment := ⟨true, ← spanFrom start, String.ofList text⟩
  modify fun s =>
    if forNext then { s with pending := s.pending ++ [comment] }
    else { s with comments := s.comments.push ⟨false, s.lastEnd, comment⟩ }

/-- Passes blanks and line ends. -/
def blanks : Scan Unit := do
  let taken ← takeWhile fun c => isBlank c || isLineEnd c
  if taken.any isLineEnd then modify fun s => { s with lineBreak := true }

/-- The characters of a block comment and what follows it, if it is closed. -/
def closeComment : List Char → Option (List Char × List Char)
  | '*' :: '/' :: rest => some ([], rest)
  | c :: rest => (closeComment rest).map fun (text, after) => (c :: text, after)
  | [] => none

/-- Passes a block comment. -/
def blockComment : Scan Unit := do
  let start ← position
  let s ← get
  let forNext := s.lineBreak || !((s.lastRole.map Token.Role.takesBlockComment).getD false)
  skip 2
  match closeComment (← get).rest with
  | none => do
    let s ← get
    skip s.rest.length
    failFrom start .unterminatedComment
  | some (text, after) =>
    modify fun s => { s with rest := after, position := s.position + text.length + 2 }
    let comment : Comment := ⟨false, ← spanFrom start, String.ofList text⟩
    if text.any isLineEnd then modify fun s => { s with lineBreak := true }
    blanks
    let forNext := forNext && !(← isChar ';')
    modify fun s =>
      if forNext then { s with pending := s.pending ++ [comment] }
      else { s with comments := s.comments.push ⟨false, s.lastEnd, comment⟩ }

/-- Passes blanks and comments; `fuel` bounds the number of comments. -/
def space : Nat → Scan Unit
  | 0 => return ()
  | fuel + 1 => do
    blanks
    if ← isChar '/' then
      match ← next? with
      | some '/' => lineComment 2; space fuel
      | some '*' => blockComment; space fuel
      | _ => return ()

def skipSpace : Scan Unit := do space ((← get).rest.length + 1)

/-! ## Escapes -/

/-- The value of a digit in a base. -/
def digitValue? (radix : Nat) (c : Char) : Option Nat :=
  let v :=
    if '0' ≤ c ∧ c ≤ '9' then c.toNat - '0'.toNat
    else if 'a' ≤ c ∧ c ≤ 'z' then c.toNat - 'a'.toNat + 10
    else if 'A' ≤ c ∧ c ≤ 'Z' then c.toNat - 'A'.toNat + 10
    else radix
  if v < radix then some v else none

/-- A separator may not stand beside this character. -/
def rejectsSeparator (radix : Nat) (c : Char) : Bool :=
  if radix = 16 then ['.', 'X', '_', 'x'].contains c
  else ['.', 'B', 'E', 'O', '_', 'b', 'e', 'o'].contains c

/-- Digits of a base with separators between them, at most `limit` of them unless it is zero. -/
def digits (c : Setting) (radix limit : Nat) : Scan (List Nat) := do
  let start ← position
  go start ((← get).rest.length + 1) none []
where
  go (start : Nat) : Nat → Option Char → List Nat → Scan (List Nat)
    | 0, _, acc => return acc.reverse
    | fuel + 1, previous, acc => do
      match ← char? with
      | none => return acc.reverse
      | some '_' =>
        let following ← next?
        let allowed := (following.bind (digitValue? radix)).isSome
        let rejected (x : Option Char) := (x.map (rejectsSeparator radix)).getD false
        if !allowed || rejected previous || rejected following then
          reportFrom c start .misplacedNumericSeparator
        bump
        go start fuel previous acc
      | some x =>
        match digitValue? radix x with
        | none => return acc.reverse
        | some v =>
          bump
          if limit = acc.length + 1 then return (v :: acc).reverse
          go start fuel (some x) (v :: acc)

def valueOf (radix : Nat) (ds : List Nat) : Nat := ds.foldl (fun n d => n * radix + d) 0

/-- The character of a number, if there is one. -/
def scalar? (n : Nat) : Option Char :=
  if n < 0xD800 ∨ (0xE000 ≤ n ∧ n ≤ 0x10FFFF) then some (Char.ofNat n) else none

/-- What an escape by number stands for, read from after the backslash. The halves of a
surrogate pair stand for the text of their escape. -/
def unicodeEscape (c : Setting) : Scan (List Char) := do
  bump
  let curly ← eat '\x7b'
  let before ← get
  let ds ← digits c 16 (if curly then 0 else 4)
  let expectation := if curly then "1-6 hex characters" else "4 hex characters"
  let here ← position
  if curly && valueOf 16 ds ≥ Nat.pow 2 32 then
    fail ⟨here, here⟩ (.badEscape expectation)
  if ds.isEmpty || (!curly && ds.length ≠ 4) then
    fail ⟨here, here⟩ (.badEscape expectation)
  let value := valueOf 16 ds
  if value > 0x10FFFF then
    fail ⟨here, here⟩ (.badEscape
      (if curly then "1-6 hex characters in the range 0 to 10FFFF." else expectation))
  let chars ←
    match scalar? value with
    | some x => pure [x]
    | none => do
      modify fun s => { s with rest := before.rest, position := before.position }
      let literal := (before.rest.take (if curly then 6 else 4)).takeWhile (· ≠ '\x7d')
      skip literal.length
      pure (if curly then ['\\', 'u', '\x7b'] ++ literal ++ ['\x7d'] else ['\\', 'u'] ++ literal)
  if curly then
    if !(← eat '\x7d') then failFrom before.position .invalidUnicodeEscape
  return chars

/-- The characters that a backslash and what follows it stand for, nothing for a line
continuation. -/
def escape (c : Setting) (inTemplate : Bool) : Scan (List Char) := do
  let start ← position
  bump
  let simple (x : Char) : Scan (List Char) := do
    bump
    return [x]
  match ← char? with
  | none => fail ⟨start, start⟩ .invalidStringEscape
  | some 'n' => simple '\n'
  | some 'r' => simple '\r'
  | some 't' => simple '\t'
  | some 'b' => simple '\x08'
  | some 'v' => simple '\x0b'
  | some 'f' => simple '\x0c'
  | some '\r' =>
    bump
    let _ ← eat '\n'
    return []
  | some '\n' | some '\u2028' | some '\u2029' =>
    bump
    return []
  | some 'x' =>
    bump
    let ds ← digits c 16 2
    if ds.length = 2 then return [Char.ofNat (valueOf 16 ds)]
    failFrom start (.badEscape "2 hex characters")
  | some 'u' =>
    try unicodeEscape c
    catch failure => failFrom start failure.fault
  | some x =>
    match digitValue? 8 x with
    | none => simple x
    | some first =>
      bump
      let following := ((← char?).bind (digitValue? 8)).isSome
      if first = 0 && !following then return ['\x00']
      if inTemplate then failFrom start .legacyOctal
      reportFrom c start .legacyOctal
      let second := (← char?).bind (digitValue? 8)
      match second with
      | none => return [Char.ofNat first]
      | some b =>
        bump
        match (← char?).bind (digitValue? 8) with
        | none => return [Char.ofNat (first * 8 + b)]
        | some d =>
          let value := (first * 8 + b) * 8 + d
          if value > 255 then return [Char.ofNat (first * 8 + b)]
          bump
          return [Char.ofNat value]

/-! ## Words -/

/-- The characters of a word, escapes decoded, and whether there were escapes. -/
def wordText (c : Setting) : Scan (List Char × Bool) := do
  go ((← get).rest.length + 1) [] false
where
  go : Nat → List Char → Bool → Scan (List Char × Bool)
    | 0, acc, escaped => return (acc, escaped)
    | fuel + 1, acc, escaped => do
      let plain ← takeWhile Text.continuesIdentifier
      let acc := acc ++ plain
      if ← isChar '\\' then
        let start ← position
        bump
        if !(← isChar 'u') then fail ⟨start, start⟩ .expectedUnicodeEscape
        let chars ← unicodeEscape c
        match chars.head? with
        | some x =>
          let valid :=
            if acc.isEmpty then Text.startsIdentifier x else Text.continuesIdentifier x
          if !valid then reportFrom c start .invalidIdentifierCharacter
        | none => pure ()
        go fuel (acc ++ chars) true
      else return (acc, escaped)

def word (c : Setting) : Scan Token := do
  let start ← position
  let (text, escaped) ← wordText c
  let w := String.ofList text
  if escaped && Token.isReserved w then failFrom start (.escapeInReservedWord w)
  return .word w

/-! ## Numbers -/

/-- The text from a position to here. -/
def rawFrom (start : Nat) (from_ : List Char) : Scan String := do
  return String.ofList (from_.take ((← position) - start))

def ensureNoWord : Scan Unit := do
  match ← char? with
  | some x =>
    if Text.startsIdentifier x then
      let here ← position
      fail ⟨here, here⟩ .identifierAfterNumber
  | none => return ()

/-- At least one digit of a base. -/
def someDigits (c : Setting) (radix : Nat) : Scan (List Nat) := do
  let start ← position
  let ds ← digits c radix 0
  if ds.isEmpty then failFrom start (.expectedDigit radix)
  return ds

def legacyOctal (c : Setting) (start : Nat) (from_ : List Char) (value : Nat) : Scan Token := do
  ensureNoWord
  if c.dialect.typescript then reportFrom c start .legacyOctalLiteral
  reportFrom c start .legacyOctal
  return .number (toString value) (← rawFrom start from_)

/-- A number in base two, eight or sixteen, at the zero before its letter. -/
def radixNumber (c : Setting) (radix : Nat) : Scan Token := do
  let start ← position
  let from_ := (← get).rest
  skip 2
  let ds ← someDigits c radix
  if ← eat 'n' then
    return .bigint (toString (valueOf radix ds)) (← rawFrom start from_)
  ensureNoWord
  return .number (Text.Decimal.ofNat (valueOf radix ds)) (← rawFrom start from_)

/-- What follows the integer part of a decimal number. -/
def fraction (c : Setting) (start : Nat) (from_ : List Char) (whole : List Nat) : Scan Token := do
  let decimals ←
    if ← eat '.' then digits c 10 0 else pure []
  let exponent : Int ←
    match ← char? with
    | some 'e' | some 'E' =>
      bump
      match ← char? with
      | none =>
        let here ← position
        fail ⟨here, here⟩ .exponentWithoutDigits
      | some sign =>
        if sign = '+' || sign = '-' then bump
        let ds ← someDigits c 10
        let e : Int := valueOf 10 ds
        pure (if sign = '-' then -e else e)
    | _ => pure 0
  ensureNoWord
  let value := Text.Decimal.ofScientific (valueOf 10 (whole ++ decimals))
    (exponent - decimals.length)
  return .number value (← rawFrom start from_)

/-- A number in base ten, or an octal one with a leading zero. -/
def decimalNumber (c : Setting) : Scan Token := do
  let start ← position
  let from_ := (← get).rest
  let startsWithZero ← isChar '0'
  let ds ← someDigits c 10
  if ← eat 'n' then
    return .bigint (toString (valueOf 10 ds)) (← rawFrom start from_)
  if startsWithZero then
    if valueOf 10 ds = 0 then
      if (← position) - start > 1 then return ← legacyOctal c start from_ 0
    else if ds.any (· ≥ 8) then
      reportFrom c start .legacyDecimal
    else return ← legacyOctal c start from_ (valueOf 8 ds)
  fraction c start from_ ds

/-- A number that begins with a dot. -/
def dotNumber (c : Setting) : Scan Token := do
  let start ← position
  let from_ := (← get).rest
  fraction c start from_ []

/-! ## Strings, templates and patterns -/

def stringLiteral (c : Setting) (quote : Char) : Scan Token := do
  let start ← position
  let from_ := (← get).rest
  bump
  let rec go : Nat → List Char → Scan (List Char)
    | 0, acc => return acc
    | fuel + 1, acc => do
      let plain ← takeWhile fun x => x ≠ quote && x ≠ '\\' && x ≠ '\n' && x ≠ '\r'
      let acc := acc ++ plain
      match ← char? with
      | some '\\' => go fuel (acc ++ (← escape c false))
      | some x =>
        if x = quote then
          bump
          return acc
        else
          reportFrom c start .unterminatedString
          return acc
      | none =>
        reportFrom c start .unterminatedString
        return acc
  let value ← go ((← get).rest.length + 1) []
  return .string (String.ofList value) (← rawFrom start from_)

/-- A stretch of a template, or the mark that ends it. -/
def templateToken (c : Setting) (templateStart : Nat) : Scan Token := do
  let start ← position
  let from_ := (← get).rest
  let closing ← looksAt "`"
  let hole ← looksAt "$\x7b"
  if (closing || hole) && (← get).lastRole = some .template then
    if hole then
      skip 2
      return .punct .dollarBrace
    bump
    return .punct .backquote
  let rec go : Nat → Option Failure → Scan (Option Failure)
    | 0, _ => failFrom templateStart .unterminatedTemplate
    | fuel + 1, bad => do
      match ← char? with
      | none => failFrom templateStart .unterminatedTemplate
      | some '`' => return bad
      | some '$' => if (← next?) = some '\x7b' then return bad else bump; go fuel bad
      | some '\\' =>
        let bad ←
          try
            let _ ← escape c true
            pure bad
          catch failure => pure (some failure)
        go fuel bad
      | some x =>
        if isLineEnd x then modify fun s => { s with lineBreak := true }
        bump
        go fuel bad
  let bad ← go ((← get).rest.length + 1) none
  return .template (← rawFrom start from_) bad

/-- A regular expression, from its first slash on. -/
def regexLiteral (c : Setting) (start : Nat) (from_ : List Char) : Scan Token := do
  modify fun s => { s with rest := from_, position := start }
  bump
  let rec go : Nat → Bool → Bool → List Char → Scan (List Char)
    | 0, _, _, acc => return acc
    | fuel + 1, escaped, inClass, acc => do
      match ← char? with
      | none => return acc
      | some x =>
        if isLineEnd x then failFrom start .unterminatedRegex
        if escaped then
          bump
          go fuel false inClass (x :: acc)
        else if x = '/' && !inClass then return acc
        else
          bump
          let inClass := if x = '[' then true else if x = ']' then false else inClass
          go fuel (x = '\\') inClass (x :: acc)
  let body := (← go ((← get).rest.length + 1) false false []).reverse
  if !(← isChar '/') then failFrom start .unterminatedRegex
  bump
  let (flags, _) ←
    match ← char? with
    | some x =>
      if Text.continuesIdentifier x || x = '\\' then wordText c else pure ([], false)
    | none => pure ([], false)
  let known := ['d', 'g', 'i', 'm', 's', 'u', 'v', 'y']
  if flags.any (!known.contains ·) then reportFrom c start .unknownRegexFlags
  match flags.find? fun f => known.contains f && flags.count f > 1 with
  | some f => reportFrom c start (.duplicatedRegexFlag f)
  | none => pure ()
  return .regex (String.ofList body) (String.ofList flags)

/-! ## Tags -/

/-- The character that an entity stands for; an ampersand that begins none stands for itself. -/
def entity : Scan Char := do
  let start ← position
  bump
  let s ← get
  let name := (s.rest.take 10).takeWhile (· ≠ ';')
  if name.length < 10 ∧ s.rest.drop name.length ≠ [] then
    match Text.entity name with
    | .character x =>
      skip (name.length + 1)
      return x
    | .unknown => return '&'
    | .noDigits => failFrom start .entityWithoutDigits
    | .noCharacter => failFrom start .entityWithoutCharacter
  else return '&'

/-- Text between tags, or the mark that ends it. -/
def tagBodyToken (c : Setting) : Scan (Option Token) := do
  let rec go : Nat → List Char → Scan (Option Token)
    | 0, acc => return some (.tagText (String.ofList acc))
    | fuel + 1, acc => do
      match ← char? with
      | none => failFrom (← get).tokenStart .unterminatedTagContents
      | some x =>
        let here ← position
        if x = '<' || x = '\x7b' then
          if here = (← get).tokenStart then
            if x = '<' && (← get).exprAllowed then
              bump
              return some .tagStart
            return none
          return some (.tagText (String.ofList acc))
        else if x = '>' then
          reportFrom c here (.unexpectedInTagText "`\x7b'>'\x7d` or `&gt;`")
          bump
          go fuel (acc ++ [x])
        else if x = '\x7d' then
          reportFrom c here (.unexpectedInTagText "`\x7b'\x7d'\x7d` or `&rbrace;`")
          bump
          go fuel (acc ++ [x])
        else if x = '&' then go fuel (acc ++ [← entity])
        else if isLineEnd x then
          bump
          let paired ← if x = '\r' then eat '\n' else pure false
          go fuel (acc ++ if paired then ['\n', '\r', '\n'] else [x, x])
        else
          bump
          let plain ← takeWhile fun y =>
            !isLineEnd y && y ≠ '<' && y ≠ '\x7b' && y ≠ '>' && y ≠ '\x7d' && y ≠ '&'
          go fuel (acc ++ x :: plain)
  go ((← get).rest.length + 1) []

/-- A quoted text inside a tag; backslashes mean nothing in it. -/
def tagString (c : Setting) (quote : Char) : Scan Token := do
  let start ← position
  let from_ := (← get).rest
  bump
  let rec go : Nat → List Char → Scan (List Char)
    | 0, acc => return acc
    | fuel + 1, acc => do
      match ← char? with
      | none =>
        reportFrom c (← get).tokenStart .unterminatedString
        return acc
      | some x =>
        if x = quote then return acc
        else if x = '&' then go fuel (acc ++ [← entity])
        else
          bump
          go fuel (acc ++ [x])
  let value ← go ((← get).rest.length + 1) []
  if (← get).rest.length > 2 then bump
  return .string (String.ofList value) (← rawFrom start from_)

/-- A name inside a tag. -/
def tagWord : Scan Token := do
  return .tagName (String.ofList (← takeWhile fun x => Text.continuesIdentifier x || x = '-'))

/-! ## Operators -/

/-- A mark of seven equal characters, such as tools leave in conflicting files. -/
def conflict {α : Type} (c : Setting) (start left : Nat) : Scan α := do
  report c ⟨start, start + 7⟩ .conflictMarker
  lineComment left
  skipSpace
  fail ⟨start, start + 7⟩ .conflictMarker

/-- The token at an angle bracket; nothing where an old form of comment was passed instead. -/
def angle (c : Setting) (isLess : Bool) : Scan (Option Token) := do
  let start ← position
  let brokenBefore := (← get).lineBreak
  bump
  if c.dialect.typescript && c.context.inType && !c.context.anglesAreOperators then
    return some (.binary (if isLess then "<" else ">"))
  if isLess && (← looksAt "!--") then
    lineComment 3
    skipSpace
    reportFrom c start .legacyComment
    return none
  let x := if isLess then '<' else '>'
  let mut op := if isLess then "<" else ">"
  if ← eat x then
    op := if isLess then "<<" else ">>"
    if !isLess then
      if ← eat x then op := ">>>"
  let token ←
    if ← eat '=' then
      pure (if op = "<" || op = ">" then Token.binary (op ++ "=") else Token.assign (op ++ "="))
    else pure (.binary op)
  if brokenBefore then
    if op = "<<" && token = .binary "<<" && (← looksAt "<<<<< ") then conflict c start 5
    if op = ">>>" && token = .binary ">>>" && (← looksAt ">>>> ") then conflict c start 4
  return some token

/-- The token at an ampersand or a bar. -/
def logical (c : Setting) (x : Char) : Scan Token := do
  let start ← position
  let brokenBefore := (← get).lineBreak
  let s := String.singleton x
  bump
  if ← eat '=' then return .assign (s ++ "=")
  if ← eat x then
    if ← eat '=' then return .assign (s ++ s ++ "=")
    if brokenBefore && x = '|' && (← looksAt "||||| ") then conflict c start 5
    return .binary (s ++ s)
  return .binary s

/-- An operator with its assignment form. -/
def operator (op : String) : Scan Token := do
  if ← eat '=' then return .assign (op ++ "=")
  return .binary op

/-- The token at any other character. An old form of comment counts as none, and the scan starts
over behind it. -/
def plainToken (c : Setting) : Nat → Scan (Option Token)
  | 0 => return none
  | fuel + 1 => do
    let punct (p : Punct) : Scan (Option Token) := do
      bump
      return some (.punct p)
    let start ← position
    match ← char? with
    | none => return none
    | some '#' => punct .hash
    | some '.' =>
      match ← next? with
      | some '.' =>
        if ← looksAt "..." then
          skip 3
          return some (.punct .ellipsis)
        punct .dot
      | some x => if x.isDigit then some <$> dotNumber c else punct .dot
      | none => punct .dot
    | some '(' => punct .leftParen
    | some ')' => punct .rightParen
    | some ';' => punct .semicolon
    | some ',' => punct .comma
    | some '[' => punct .leftBracket
    | some ']' => punct .rightBracket
    | some '\x7b' => punct .leftBrace
    | some '\x7d' => punct .rightBrace
    | some '@' => punct .atSign
    | some '~' => punct .tilde
    | some '`' => punct .backquote
    | some ':' => punct .colon
    | some '?' =>
      bump
      if ← eat '?' then
        if ← eat '=' then return some (.assign "??=")
        return some (.binary "??")
      return some (.punct .question)
    | some '0' =>
      match ← next? with
      | some 'x' | some 'X' => some <$> radixNumber c 16
      | some 'o' | some 'O' => some <$> radixNumber c 8
      | some 'b' | some 'B' => some <$> radixNumber c 2
      | _ => some <$> decimalNumber c
    | some '"' => some <$> stringLiteral c '"'
    | some '\'' => some <$> stringLiteral c '\''
    | some '/' =>
      bump
      some <$> operator "/"
    | some '%' =>
      bump
      some <$> operator "%"
    | some '*' =>
      bump
      if ← eat '*' then some <$> operator "**" else some <$> operator "*"
    | some '^' =>
      bump
      some <$> operator "^"
    | some '&' => some <$> logical c '&'
    | some '|' => some <$> logical c '|'
    | some '+' =>
      bump
      if ← eat '+' then return some (.punct .plusPlus)
      some <$> operator "+"
    | some '-' =>
      bump
      if ← eat '-' then
        if (← get).lineBreak then
          if ← eat '>' then
            reportFrom c start .legacyComment
            lineComment 0
            skipSpace
            return ← plainToken c fuel
        return some (.punct .minusMinus)
      some <$> operator "-"
    | some '<' =>
      match ← angle c true with
      | some t => return some t
      | none => plainToken c fuel
    | some '>' => angle c false
    | some '!' =>
      bump
      if ← eat '=' then
        if ← eat '=' then return some (.binary "!==")
        return some (.binary "!=")
      return some (.punct .bang)
    | some '=' =>
      let brokenBefore := (← get).lineBreak
      bump
      if ← eat '=' then
        if ← eat '=' then
          if brokenBefore && (← looksAt "====") then
            report c ⟨start, start + 7⟩ .conflictMarker
            lineComment 4
            skipSpace
            return ← plainToken c fuel
          return some (.binary "===")
        return some (.binary "==")
      if ← eat '>' then return some (.punct .arrow)
      return some (.assign "=")
    | some x =>
      if x.isDigit then some <$> decimalNumber c
      else if x = '\\' || Text.startsIdentifier x then some <$> word c
      else
        bump
        fail ⟨start, start⟩ (.unexpectedCharacter (Text.showCharacter x))

/-! ## What a token changes -/

/-- A brace after `previous` opens a block. -/
def opensBlock (s : Scanner) (previous : Option Token.Role) (exprAllowed : Bool) : Bool :=
  let top := s.modes.head?
  match previous, top with
  | some .colon, some .blockBrace => true
  | some .colon, some .exprBrace => false
  | _, _ =>
    match previous with
    | some (.keyword "return") | some (.keyword "yield") => s.lineBreak
    | some (.keyword "else") | some .semicolon | none | some .rightParen => true
    | some .leftBrace =>
      if top = some .exprBrace && s.modes.tail.head? = some .openingTag then true
      else top = some .blockBrace
    | some (.binary "<") | some (.binary ">") => true
    | some .arrow => true
    | some (.other false _) => if s.lineBreak then true else !exprAllowed
    | _ => !exprAllowed

/-- The modes after a token, and whether an expression can begin then. -/
def afterToken (c : Setting) (s : Scanner) (start : Nat) (token : Token) : List Mode × Bool :=
  let previous := s.lastRole
  let modes := s.modes
  let top := modes.head?
  let isKeyword := match token with | .word w => Token.isKeyword w | _ => false
  if isKeyword && previous = some .dot then (modes, false)
  else
    match token with
    | .punct .rightParen | .punct .rightBrace =>
      match modes with
      | [] | [_] => (modes, true)
      | out :: rest =>
        if out = .blockBrace && (rest.head? = some .functionExpr || rest.head? = some .classExpr)
        then (rest.tail, false)
        else if out = .templateHole then
          match rest.head? with
          | some (.template _) => (rest, false)
          | _ => (rest, true)
        else (rest, !out.isExpr)
    | .word "function" =>
      if s.exprAllowed && !opensBlock s previous s.exprAllowed then
        (.functionExpr :: modes, false)
      else (modes, false)
    | .word "class" =>
      if s.exprAllowed && !opensBlock s previous s.exprAllowed then (.classExpr :: modes, false)
      else (modes, false)
    | .word w =>
      if w = "of" && top = some (.stmtParen true) then
        (modes, !((previous.map Token.Role.beforeExpr).getD false))
      else if isKeyword || Token.literalWords.contains w then (modes, token.beforeExpr)
      else
        match previous with
        | some (.keyword k) => (modes, (k = "let" || k = "const" || k = "var") && s.lineBreak)
        | _ => (modes, false)
    | .punct .colon =>
      if top = some .functionExpr || top = some .classExpr then (modes.tail, true)
      else (modes, true)
    | .punct .leftBrace =>
      if c.dialect.jsx && top = some .openingTag then (.exprBrace :: modes, true)
      else if c.dialect.jsx && top = some .tagBody then (.templateHole :: modes, true)
      else if opensBlock s previous s.exprAllowed then (.blockBrace :: modes, true)
      else (.exprBrace :: modes, true)
    | .punct .dollarBrace => (.templateHole :: modes, true)
    | .punct .leftParen =>
      match previous with
      | some (.keyword "if") | some (.keyword "with") | some (.keyword "while") =>
        (.stmtParen false :: modes, true)
      | some (.keyword "for") => (.stmtParen true :: modes, true)
      | _ => (.exprParen :: modes, true)
    | .punct .plusPlus | .punct .minusMinus => (modes, s.exprAllowed)
    | .punct .backquote =>
      match top with
      | some (.template _) => (modes.tail, false)
      | _ => (.template start :: modes, false)
    | .tagStart => (.openingTag :: .tagBody :: modes, false)
    | .tagEnd =>
      match modes with
      | [] => (modes, true)
      | out :: rest =>
        if (out = .openingTag && previous = some (.binary "/")) || out = .closingTag then
          (rest.tail, rest.tail.head? = some .tagBody)
        else (rest, true)
    | .binary "/" =>
      if c.dialect.jsx && previous = some .tagStart then
        (.closingTag :: modes.drop 2, false)
      else (modes, true)
    | _ => (modes, token.beforeExpr)

/-- The next token before anything is recorded of it; nothing at the end of the text. -/
def rawToken (c : Setting) : Scan (Option Token) := do
  let s ← get
  if s.isFirst then
    if ← looksAt "#!" then
      modify fun s => { s with tokenStart := s.position }
      skip 2
      return some (.shebang (String.ofList (← takeWhile (!isLineEnd ·))))
  modify fun s => { s with lineBreak := s.isFirst, isFirst := false }
  let top := (← get).modes.head?
  if !((top.map Mode.keepsBlanks).getD false) then skipSpace
  modify fun s => { s with tokenStart := s.position }
  let fuel := (← get).rest.length + 1
  match ← char? with
  | none => return none
  | some x =>
    if c.dialect.jsx && !c.context.inPropertyName && !c.context.inType then
      if top = some .tagBody then
        match ← tagBodyToken c with
        | some t => return some t
        | none => return ← plainToken c fuel
      if top = some .openingTag || top = some .closingTag then
        if Text.startsIdentifier x then return some (← tagWord)
        if x = '>' then
          bump
          return some .tagEnd
        if (x = '\'' || x = '"') && top = some .openingTag then
          return some (← tagString c x)
      if x = '<' && (← get).exprAllowed && (← next?) ≠ some '!' then
        bump
        return some .tagStart
    match top with
    | some (.template start) => return some (← templateToken c start)
    | _ => plainToken c fuel

end Scan

/-- A token in its place. -/
structure PlacedToken where
  token : Token
  span : Span
  /-- a line ends between the token before and this one -/
  afterBreak : Bool
  /-- the characters from the start of the token on -/
  ahead : List Char
  deriving Inhabited

namespace Scanner

/-- Comments that no token follows belong to the last token, or to the start of the text. -/
def flushComments (s : Scanner) : Scanner :=
  let placed := s.pending.map fun comment =>
    (⟨s.lastEnd = 1, s.lastEnd, comment⟩ : PlacedComment)
  { s with pending := [], comments := s.comments ++ placed.toArray }

/-- Records a token that was read. -/
def accept (s : Scanner) (c : Scan.Setting) (token : Token) (ahead : List Char) :
    PlacedToken × Scanner :=
  let start := s.tokenStart
  let placed := s.pending.map fun comment => (⟨true, start, comment⟩ : PlacedComment)
  let (modes, exprAllowed) := Scan.afterToken c s start token
  let s' := { s with
    pending := []
    comments := s.comments ++ placed.toArray
    modes, exprAllowed
    lastRole := some token.role
    lastEnd := s.position }
  (⟨token, ⟨start, s.position⟩, s.lineBreak, ahead⟩, s')

/-- The next token; nothing at the end of the text. -/
def next (s : Scanner) (c : Scan.Setting) : Option PlacedToken × Scanner :=
  let finish (s' : Scanner) (token : Token) :=
    let (placed, s') := s'.accept c token (s.rest.drop (s'.tokenStart - s.position))
    (some placed, s')
  match (Scan.rawToken c).run s with
  | .ok none s' => (none, s'.flushComments)
  | .ok (some token) s' => finish s' token
  | .error failure s' => finish s' (.fault failure)

/-- The regular expression that begins where a slash was read. -/
def regex (s : Scanner) (c : Scan.Setting) (start : Nat) (ahead : List Char) :
    PlacedToken × Scanner :=
  match (Scan.regexLiteral c start ahead).run { s with tokenStart := start } with
  | .ok token s' => s'.accept c token ahead
  | .error failure s' => s'.accept c (.fault failure) ahead

end Scanner

end RouteManifest.Script
