import RouteManifest.Script.Lexer
import RouteManifest.Script.Tree

/-!
# The state of a reader of modules

A reader holds a scanner, at most two tokens that were scanned and not yet taken, and the context
of the place where it stands. Tokens are scanned on demand, because the context decides how
characters form tokens. A reader stops at a fault that cannot be passed over; other faults are
recorded in the scanner, together with those of its own.
-/

namespace RouteManifest.Script

/-- Why reading stops early. -/
inductive Stop where
  | failure (failure : Failure)
  | breakdown (fault : Fault)
  deriving Repr, Inhabited

namespace Grammar

structure State where
  dialect : Dialect
  scanner : Scanner
  context : Context
  current : Option PlacedToken
  ahead : Option PlacedToken
  /-- the span of the last token taken -/
  last : Span
  labels : List String
  /-- where an arrow function could begin -/
  arrowStart : Option Nat
  /-- the comma before the closing bracket of what begins at a position -/
  trailingCommas : List (Nat × Span)
  deriving Inhabited

/-- The state before the first token of a text. -/
def State.start (dialect : Dialect) (text : List Char) : State where
  dialect
  scanner := .start text
  context := {}
  current := none
  ahead := none
  last := ⟨1, 1⟩
  labels := []
  arrowStart := none
  trailingCommas := []

abbrev Parse := EStateM Stop State

def context : Parse Context := do return (← get).context

def isTypescript : Parse Bool := do return (← get).dialect.typescript

def isJsx : Parse Bool := do return (← get).dialect.jsx

/-! ## Tokens -/

/-- The next token of the scanner. -/
def scan : Parse (Option PlacedToken) := do
  let s ← get
  let (token?, scanner) := s.scanner.next ⟨s.dialect, s.context⟩
  set { s with scanner }
  match token? with
  | some ⟨.fault failure, _, _, _⟩ =>
    if failure.fault.isBreakdown then throw (.breakdown failure.fault)
  | _ => pure ()
  return token?

/-- The current token with its place; nothing at the end of the text. -/
def placed? : Parse (Option PlacedToken) := do
  match (← get).current with
  | some t => return some t
  | none =>
    match (← get).ahead with
    | some t =>
      modify fun s => { s with current := some t, ahead := none }
      return some t
    | none =>
      let t ← scan
      modify fun s => { s with current := t }
      return t

def current? : Parse (Option Token) := do return (← placed?).map (·.token)

/-- The token after the current one with its place. -/
def placedAhead? : Parse (Option PlacedToken) := do
  let _ ← placed?
  match (← get).ahead with
  | some t => return some t
  | none =>
    let t ← scan
    modify fun s => { s with ahead := t }
    return t

def ahead? : Parse (Option Token) := do return (← placedAhead?).map (·.token)

/-- Takes the current token, which must be there. -/
def bump : Parse Unit := do
  match ← placed? with
  | some t => modify fun s => { s with current := none, last := t.span }
  | none => throw (.breakdown .noToken)

/-- The span of the current token, or at the end that of the last one. -/
def tokenSpan : Parse Span := do
  let s ← get
  return (s.current.map (·.span)).getD s.last

/-- Where the last token ends. -/
def lastEnd : Parse Nat := do return (← get).last.hi

/-- Where the current token starts. -/
def position : Parse Nat := do
  match ← placed? with
  | some t => return t.span.lo
  | none => lastEnd

/-- The span from a position to the end of the last token. -/
def spanFrom (start : Nat) : Parse Span := do return ⟨start, ← lastEnd⟩

/-- A line ends before the current token; so it is at the end of the text. -/
def afterBreak : Parse Bool := do return ((← placed?).map (·.afterBreak)).getD true

/-- A line ends between the current token and the next one. -/
def breakAhead : Parse Bool := do return ((← placedAhead?).map (·.afterBreak)).getD true

/-! ## Faults -/

/-- Stops at a fault, or at the fault that the current token is. -/
def fail {α : Type} (span : Span) (fault : Fault) : Parse α := do
  match ← current? with
  | some (.fault failure) =>
    bump
    throw (.failure failure)
  | _ => throw (.failure ⟨span, fault⟩)

/-- Stops at a fault in the current token, or in the last one if no further one was looked at. -/
def failHere {α : Type} (fault : Fault) : Parse α := do fail (← tokenSpan) fault

/-- Records a fault and goes on. -/
def report (span : Span) (fault : Fault) : Parse Unit := do
  if (← context).ignoresFaults then return ()
  match ← current? with
  | some (.fault failure) =>
    bump
    modify fun s => { s with scanner.failures := s.scanner.failures.push failure }
  | _ => pure ()
  modify fun s => { s with scanner.failures := s.scanner.failures.push ⟨span, fault⟩ }

/-- Records a fault even where the current token is one. -/
def reportPlainly (span : Span) (fault : Fault) : Parse Unit := do
  if (← context).ignoresFaults then return ()
  modify fun s => { s with scanner.failures := s.scanner.failures.push ⟨span, fault⟩ }

/-- The name of the current token in a message. -/
def shown : Parse String := do
  match ← current? with
  | some t => return t.display
  | none => return "<eof>"

def unexpected {α : Type} (expectation : String) : Parse α := do
  let got ← shown
  failHere (.unexpected got expectation)

/-- The current token, which must be there. -/
def required : Parse Token := do
  match ← current? with
  | some (.fault failure) =>
    bump
    throw (.failure failure)
  | some t => return t
  | none =>
    let e ← lastEnd
    throw (.failure ⟨⟨e, e⟩, .unexpectedEnd⟩)

/-- The current token, which may be missing but no fault. -/
def sound? : Parse (Option Token) := do
  match ← current? with
  | some (.fault failure) =>
    bump
    throw (.failure failure)
  | t => return t

/-! ## Testing and taking tokens -/

def is (t : Token) : Parse Bool := do return (← current?) = some t

def isWord (w : String) : Parse Bool := is (.word w)

def isPunct (p : Punct) : Parse Bool := is (.punct p)

def isBinary (op : String) : Parse Bool := is (.binary op)

def aheadIs (t : Token) : Parse Bool := do return (← ahead?) = some t

/-- Any of the tokens is the current one. -/
def isAny (ts : List Token) : Parse Bool := do
  match ← current? with
  | some t => return ts.contains t
  | none => return false

def atEnd : Parse Bool := do return (← current?).isNone

def eat (t : Token) : Parse Bool := do
  if ← is t then
    bump
    return true
  else return false

def eatWord (w : String) : Parse Bool := eat (.word w)

def eatPunct (p : Punct) : Parse Bool := eat (.punct p)

def eatBinary (op : String) : Parse Bool := eat (.binary op)

def eatAssign : Parse Bool := eat (.assign "=")

def expect (t : Token) : Parse Unit := do
  if ← eat t then return ()
  let got ← shown
  failHere (.expected t.display got)

def expectWord (w : String) : Parse Unit := expect (.word w)

def expectPunct (p : Punct) : Parse Unit := expect (.punct p)

/-- A statement can end before the current token. -/
def isStatementEnd : Parse Bool := do
  match ← current? with
  | none | some (.punct .semicolon) | some (.punct .rightBrace) => return true
  | _ => afterBreak

/-- Takes a semicolon, or passes where none is needed. -/
def eatSemicolon : Parse Bool := do
  if ← eatPunct .semicolon then return true
  isStatementEnd

def expectSemicolon : Parse Unit := do
  if ← eatSemicolon then return ()
  let got ← shown
  failHere (.expected ";" got)

/-- The current token is a name that a variable can have. -/
def isBindingName : Parse Bool := do
  match ← current? with
  | some (.word w) => return !Token.isReserved w
  | _ => return false

def isAnyWord : Parse Bool := do
  match ← current? with
  | some (.word _) => return true
  | _ => return false

def aheadIsAnyWord : Parse Bool := do
  match ← ahead? with
  | some (.word _) => return true
  | _ => return false

/-! ## Contexts, loops and attempts -/

/-- Reads in another context. -/
def within {α : Type} (change : Context → Context) (p : Parse α) : Parse α := fun s =>
  match p { s with context := change s.context } with
  | .ok a s' => .ok a { s' with context := s.context }
  | .error e s' => .error e { s' with context := s.context }

/-- What a step of a loop comes to. -/
inductive Turn (α β : Type) where
  | again (x : α)
  | done (y : β)

/-- Repeats a step until it is done. The steps are at most as many as the characters left, since
each of them takes a token. -/
def iterate {α β : Type} (x : α) (step : α → Parse (Turn α β)) : Parse β := do
  let s ← get
  go (s.scanner.rest.length + 4) x
where
  go : Nat → α → Parse β
    | 0, _ => failHere .unexpectedEnd
    | fuel + 1, x => do
      match ← step x with
      | .again x => go fuel x
      | .done y => return y

/-- A reader that leaves no trace if it fails or finds nothing. -/
def attempt {α : Type} (p : Parse (Option α)) : Parse (Option α) := fun s =>
  match within (fun c => { c with ignoresFaults := true }) p s with
  | .ok (some a) s' => .ok (some a) s'
  | .ok none _ => .ok none s
  | .error (.failure _) _ => .ok none s
  | .error (.breakdown f) _ => .error (.breakdown f) s

/-- Whether something follows; nothing is taken. -/
def lookAhead (p : Parse Bool) : Parse Bool := fun s =>
  match within (fun c => { c with ignoresFaults := true }) p s with
  | .ok b _ => .ok b s
  | .error (.failure _) _ => .ok false s
  | .error (.breakdown f) _ => .error (.breakdown f) s

end Grammar

end RouteManifest.Script
