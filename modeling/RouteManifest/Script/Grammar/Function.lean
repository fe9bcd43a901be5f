import RouteManifest.Script.Grammar.Type

/-!
# Functions and object literals

Blocks, functions in all their forms, and object literals, whose members can be functions.
-/

namespace RouteManifest.Script.Grammar

/-- Statements up to a closing brace, which is taken. -/
def blockBody (r : Rules) (topLevel : Bool) : Parse (List Tree) := do
  let items ← iterate ([] : List Tree) fun items => do
    if ← atEnd then
      report (← tokenSpan) (.expected "\x7d" "<eof>")
      return .done items.reverse
    if (← sound?) = some (.punct .rightBrace) then return .done items.reverse
    return .again ((← r.statement true topLevel) :: items)
  if !(← atEnd) then bump
  return items

def block (r : Rules) : Parse Tree := do
  let start ← position
  expectPunct .leftBrace
  let items ← blockBody r false
  return .node .block (← spanFrom start) items

/-- A reader with labels, arrows and trailing commas of its own. -/
def withFreshState {α : Type} (p : Parse α) : Parse α := fun s =>
  let restore (s' : State) : State :=
    { s' with labels := s.labels, arrowStart := s.arrowStart, trailingCommas := s.trailingCommas }
  match p { s with labels := [], arrowStart := none, trailingCommas := [] } with
  | .ok a s' => .ok a (restore s')
  | .error e s' => .error e (restore s')

/-- A statement that is nothing but a text. -/
def directive? (t : Tree) : Option String :=
  match t with
  | .node .exprStmt _ [.node (.stringLit _ raw) _ _] => raw
  | _ => none

/-- The directive that makes a body strict. -/
def strictDirective? (body : Tree) : Option Tree :=
  (body.parts.takeWhile fun t => (directive? t).isSome).find? fun t =>
    directive? t = some "\"use strict\"" || directive? t = some "'use strict'"

/-- A body may not say that it is strict if its parameters are more than names. -/
def checkStrictDirective (simple : Bool) (body : Tree) : Parse Unit := do
  if !simple then
    if let some t := strictDirective? body then report t.span .illegalUseStrict

/-- Reads a body in the context of its function. -/
def inBody {α : Type} (flags : FunctionFlags) (isArrow : Bool) (p : Parse α) : Parse α := do
  if (← context).inDeclare && (← isTypescript) && (← isPunct .leftBrace) then
    report (← tokenSpan) .implementationInAmbient
  let change (c : Context) : Context :=
    { c with
      inAsync := flags.isAsync
      inGenerator := flags.isGenerator
      inFunction := true
      insideFunctionScope := if isArrow then c.insideFunctionScope else true
      breakAllowed := false
      continueAllowed := false }
  within change (withFreshState p)

/-- The body of a function that is no arrow; only a declaration lacks it. -/
def functionBody (r : Rules) (flags : FunctionFlags) (simple : Bool) : Parse Tree :=
  inBody flags false do
    if (← isTypescript) && !(← isPunct .leftBrace) then
      if ← eatSemicolon then return .absent
    let body ← withIn (block r)
    checkStrictDirective simple body
    return body

def arrowBody (r : Rules) (isAsync simple : Bool) : Parse Tree :=
  inBody ⟨isAsync, false⟩ true do
    if ← isPunct .leftBrace then
      let body ← block r
      checkStrictDirective simple body
      return body
    else r.assignment

def areSimple (targets : List Tree) : Bool := targets.all isBindingIdent

def parameterTargets (items : List Tree) : List Tree := items.map (·.part 1)

def isAssignPattern (t : Tree) : Bool := match t.shape with | .assignPattern => true | _ => false

/-- A declaration without a body gives no defaults. -/
def checkDefaults (targets : List Tree) : Parse Unit := do
  for t in targets do
    if isAssignPattern t then report t.span .initializerInDeclaration

/-- A function from its type parameters on. -/
def functionRest (r : Rules) (marks : List Tree) (start : Nat) (list : Parse (List Tree))
    (flags : FunctionFlags) : Parse Tree :=
  within (fun c => { c with inAsync := flags.isAsync, inGenerator := flags.isGenerator }) do
    let types ←
      if ← isTypescript then
        inType do
          if ← isBinary "<" then typeParameters r false true
          else if ← is .tagStart then
            modify fun s => { s with scanner.modes := s.scanner.modes.drop 2 }
            typeParameters r false false
          else pure .absent
      else pure .absent
    expectPunct .leftParen
    let items ← within (fun c => { c with inParameters := true, inFunction := false }) list
    expectPunct .rightParen
    let result ← if ← isTypescript then resultAnnotation? r else pure .absent
    let targets := parameterTargets items
    let body ← functionBody r flags (areSimple targets)
    if (← isTypescript) && body.isAbsent then checkDefaults targets
    return .node (.function flags) (← spanFrom start)
      [.list items, .list marks, body, types, result]

/-- The change of context on the way into a function. -/
def enterFunction (c : Context) : Context :=
  { c with directSuperAllowed := false, inField := false, expectsColon := false }

/-- A function from its keyword on, with `async` before it at `start` if it is asynchronous. -/
def functionFrom (r : Rules) (start : Nat) (marks : List Tree) (isAsync isExpr nameNeeded : Bool) :
    Parse (Tree × Tree) := do
  expectWord "function"
  let isGenerator ← eatBinary "*"
  let flags : FunctionFlags := ⟨isAsync, isGenerator⟩
  let nameContext (c : Context) : Context :=
    let c := { c with directSuperAllowed := false, inField := false }
    if isExpr then { c with inAsync := isAsync, inGenerator := isGenerator } else c
  let name ← within nameContext (if nameNeeded then bindingIdent else bindingIdent?)
  within enterFunction do
    let f ← functionRest r marks start (parameters r) flags
    if isExpr && (f.part 2).isAbsent then unexpected "\x7b"
    return ((if name.isAbsent then name else name.part 0), f)

/-- A function declaration; `async` stands before it if `isAsync`. -/
def functionDecl (r : Rules) (marks : List Tree) (isAsync : Bool) : Parse Tree := do
  let start ← position
  if isAsync then expectWord "async"
  let (name, f) ← functionFrom r start marks isAsync false true
  return .node (.functionDecl false) f.span [name, f]

def functionExpr (r : Rules) (isAsync : Bool) : Parse Tree := do
  let start ← position
  if isAsync then expectWord "async"
  let (name, f) ← functionFrom r start [] isAsync true false
  return .node .functionExpr f.span [name, f]

/-- The function of a default export, which needs no name. -/
def defaultFunction (r : Rules) (start : Nat) (marks : List Tree) (isAsync : Bool) :
    Parse Tree := do
  let functionStart ← position
  if isAsync then expectWord "async"
  let (name, f) ← functionFrom r functionStart marks isAsync false false
  let e := Tree.node .functionExpr f.span [name, f]
  return .node .exportDefaultDecl (← spanFrom start) [e]

/-! ## Object literals -/

/-- A parameter that is not the type of `this`. -/
def isNotThis (p : Tree) : Bool :=
  match (p.part 1) with
  | .node .bindingIdent _ (name :: _) => name.name? ≠ some "this"
  | _ => true

/-- The parameters of a getter, which has none. -/
def getterParameters (r : Rules) (keySpan : Span) : Parse (List Tree) := do
  let items ← parameters r
  if items.any isNotThis then report keySpan .getterParameters
  return items

/-- The parameters of a setter, which has one. -/
def setterParameters (r : Rules) (keySpan : Span) : Parse (List Tree) := do
  let items ← parameters r
  if (items.filter isNotThis).length ≠ 1 then report keySpan .setterParameters
  if let p :: _ := items then
    if isRest (p.part 1) then report (p.part 1).span .restInSetter
  return items

/-- The change of context on the way into a method of an object. -/
def enterMethod (c : Context) : Context := { c with directSuperAllowed := true, inField := false }

def methodProp (r : Rules) (start : Nat) (key : Tree) (flags : FunctionFlags) : Parse Tree := do
  let f ← within enterMethod (functionRest r [] start (parameters r) flags)
  return .node .methodProp f.span [key, f]

/-- A getter or a setter after its first word. -/
def accessorProp (r : Rules) (start : Nat) (isGetter : Bool) : Parse Tree := do
  let key ← propertyKey r
  if isGetter then
    let f ← within enterMethod
      (functionRest r [] start (getterParameters r key.span) ⟨false, false⟩)
    return .node .getterProp (← spanFrom start) [key, f.part 4, f.part 2]
  else
    let f ← within enterMethod
      (functionRest r [] start (setterParameters r key.span) ⟨false, false⟩)
    let target :=
      match (f.part 0).parts with
      | p :: _ => p.part 1
      | [] => invalidAt .nowhere
    return .node .setterProp (← spanFrom start) [key, target, f.part 2]

/-- The tokens that can stand after the key of a property. -/
def canFollowKey (key : Tree) : Parse Bool := do
  match ← current? with
  | some t =>
    match t with
    | .punct .leftParen | .punct .leftBracket | .punct .colon | .punct .comma
    | .punct .question | .assign "=" | .binary "*" | .word _ | .string .. | .number ..
    | .bigint .. | .binary "<" => return true
    | .punct .rightBrace => return key.name?.isSome
    | _ => return false
  | none => return false

def objectMember (r : Rules) : Parse Tree := do
  let start ← position
  if ← eatPunct .ellipsis then
    let dots ← spanFrom start
    let e ← withIn r.assignment
    return .node (.spread dots) ⟨start, e.span.hi⟩ [e]
  if ← eatBinary "*" then
    let key ← propertyKey r
    return ← methodProp r start key ⟨false, true⟩
  let modified ← eatModifier
  let modifierSpan := (← get).last
  let key ← propertyKey r
  if (← isTypescript) && !(← canFollowKey key) then
    report (← tokenSpan) .expectedSemicolon
    return .node .keyValue key.span [key, invalidAt (← spanFrom start)]
  if ← eatPunct .colon then
    let value ← withIn r.assignment
    return .node .keyValue ⟨key.span.lo, value.span.hi⟩ [key, value]
  if ((← isTypescript) && (← isBinary "<")) || (← isPunct .leftParen) then
    return ← methodProp r start key ⟨false, false⟩
  match key.name? with
  | none => unexpected "identifier"
  | some w =>
    if ← eatPunct .question then report (← get).last .optionalMember
    if ← isAny [.assign "=", .punct .comma, .punct .rightBrace] then
      if Token.isReserved w then report key.span .reservedShorthand
      if ← eatAssign then
        let value ← withIn r.assignment
        return .node .assignProp ⟨key.span.lo, value.span.hi⟩ [key, value]
      return key
    if w = "get" || w = "set" || w = "async" then
      if modified then report modifierSpan .asyncModifier
      if w = "async" then
        let isGenerator ← eatBinary "*"
        let key ← propertyKey r
        methodProp r start key ⟨true, isGenerator⟩
      else accessorProp r start (w = "get")
    else if ← isTypescript then
      unexpected <|
        "... , *,  (, [, :, , ?, =, an identifier, public, protected, private, readonly, <."
    else unexpected "... , *,  (, [, :, , ?, = or an identifier"

def objectLiteral (r : Rules) : Parse Tree := do
  let start ← position
  let (items, trailing) ← braced (objectMember r)
  if let some comma := trailing then
    modify fun s => { s with trailingCommas := (start, comma) :: s.trailingCommas }
  return .node .objectLit (← spanFrom start) items

end RouteManifest.Script.Grammar
