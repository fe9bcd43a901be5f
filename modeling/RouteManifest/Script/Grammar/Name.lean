import RouteManifest.Script.Grammar.State

/-!
# Names and literals

The readers of single names and literals, on which all others are built.
-/

namespace RouteManifest.Script.Grammar

def identNode (name : String) (span : Span) : Tree := .node (.ident name 0 false) span []

/-- Any word as a name. -/
def identName : Parse Tree := do
  let start ← position
  match ← required with
  | .word w =>
    bump
    return identNode w (← spanFrom start)
  | .tagName w =>
    if (← context).inType then
      bump
      return identNode w (← spanFrom start)
    else failHere .expectedIdentifier
  | _ => failHere .expectedIdentifier

/-- The words that strict code keeps for itself. -/
def strictWords : List String :=
  ["yield", "let", "static", "implements", "interface", "package", "private", "protected", "public"]

/-- A name that can stand for a variable; `withYield` tells whether `yield` may. -/
def ident (withYield : Bool) : Parse Tree := do
  let start ← position
  match ← required with
  | .word w =>
    bump
    let span := (← get).last
    if w = "enum" then report span (.nameInStrictMode w)
    if strictWords.contains w then reportPlainly span (.nameInStrictMode w)
    let c ← context
    if w = "await" then
      if !c.inDeclare then fail span .awaitAsName
    else if w = "this" && (← isTypescript) then pure ()
    else if w = "let" then pure ()
    else if w = "yield" && withYield then pure ()
    else if w = "arguments" && c.inField then report span .argumentsInField
    else if Token.isKeyword w || Token.literalWords.contains w then fail span .expectedIdentifier
    return identNode w (← spanFrom start)
  | _ => failHere .expectedIdentifier

/-- A name used as a reference or as a label. -/
def identRef : Parse Tree := do ident (!(← context).inGenerator)

def bindingIdentNode (name : Tree) : Tree := .node .bindingIdent name.span [name, .absent]

/-- A name that is bound. -/
def bindingIdent : Parse Tree := do
  let name ← ident true
  let w := name.name?.getD ""
  if w = "eval" || w = "arguments" then reportPlainly name.span .evalOrArguments
  let c ← context
  if (c.inAsync || c.inStaticBlock) && w = "await" then report name.span .expectedIdentifier
  if c.inGenerator && w = "yield" then report name.span .expectedIdentifier
  return bindingIdentNode name

/-- A name that is bound, if there is one. -/
def bindingIdent? : Parse Tree := do
  if (← isBindingName) || ((← isTypescript) && (← isWord "this")) then bindingIdent
  else return .absent

/-- A name behind a hash. -/
def privateName : Parse Tree := do
  let start ← position
  bump
  let hashEnd ← lastEnd
  if (← position) ≠ hashEnd then fail (← spanFrom start) .spaceAfterHash
  let name ← identName
  return .node .privateName (← spanFrom start) [name]

def privateOrIdentName : Parse Tree := do
  if ← isPunct .hash then privateName else identName

/-- A literal that is one token. -/
def literal : Parse Tree := do
  let start ← position
  let token ← required
  let shape : Shape :=
    match token with
    | .word "null" => .nullLit
    | .word "true" => .boolLit true
    | .word "false" => .boolLit false
    | .string value raw => .stringLit value (some raw)
    | .number _ raw => .numberLit raw
    | .bigint _ raw => .bigintLit raw
    | _ => .invalid
  bump
  return .node shape (← spanFrom start) []

/-- The name under which a module exports something. -/
def moduleExportName : Parse Tree := do
  match ← sound? with
  | some (.string ..) => literal
  | some (.word _) => identName
  | _ => unexpected "identifier or string"

end RouteManifest.Script.Grammar
