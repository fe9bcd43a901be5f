import RouteManifest.Script.Grammar.Rules

/-!
# Lists in brackets

Arguments, type arguments, type parameters and the other lists of types, each with the separators
and ends that it allows; and decorators, which end in such a list.
-/

namespace RouteManifest.Script.Grammar

/-- An argument or an element, possibly spread. -/
def spreadable (r : Rules) : Parse Tree := do
  let start ← position
  if ← eatPunct .ellipsis then
    let dots ← spanFrom start
    let e ← withIn r.assignment
    return .node (.spread dots) ⟨start, e.span.hi⟩ [e]
  else r.assignment

/-- Arguments in parentheses; a loading `import` takes no comma at the end in plain scripts. -/
def arguments (r : Rules) (ofImport : Bool) : Parse Tree :=
  within (fun c => { c with expectsColon := false }) do
    let start ← position
    expectPunct .leftParen
    let items ← iterate ([] : List Tree) fun items => do
      if (← atEnd) || (← isPunct .rightParen) then return .done items.reverse
      if !items.isEmpty then
        expectPunct .comma
        if ← isPunct .rightParen then
          if ofImport && !(← isTypescript) then fail (← spanFrom start) .trailingCommaInImport
          return .done items.reverse
      return .again ((← withIn (spreadable r)) :: items)
    expectPunct .rightParen
    return .list items

/-- Where a list of types or of members ends. -/
inductive ListEnd where
  | members
  | heritage
  | tuple
  | angle
  deriving DecidableEq

def atListEnd : ListEnd → Parse Bool
  | .members => isPunct .rightBrace
  | .heritage => isAny [.punct .leftBrace, .word "implements", .word "extends"]
  | .tuple => isPunct .rightBracket
  | .angle => isBinary ">"

/-- Elements separated by commas up to an end, which is not taken. A missing comma between the
members of an enumeration is passed over. -/
def delimited (kind : ListEnd) (lenient : Bool) (element : Parse Tree) : Parse (List Tree) :=
  iterate [] fun items => do
    if ← atListEnd kind then return .done items.reverse
    let items := (← element) :: items
    if ← eatPunct .comma then return .again items
    if ← atListEnd kind then return .done items.reverse
    if lenient then
      let got :=
        match ← sound? with
        | some t => t.display
        | none => "EOF"
      report (← tokenSpan) (.expected "," got)
    else expectPunct .comma
    return .again items

/-- A reader that forgets the open brackets around it. -/
def withoutModes {α : Type} (p : Parse α) : Parse α := fun s =>
  let modes := s.scanner.modes
  let outermost := modes.drop (modes.length - 1)
  match p { s with scanner.modes := outermost } with
  | .ok a s' => .ok a { s' with scanner.modes := modes }
  | .error e s' => .error e { s' with scanner.modes := modes }

/-- Takes half of a double angle bracket, so that the other half is the current token. -/
def cutDoubleAngle : Parse Unit :=
  modify fun s =>
    { s with current := s.current.map fun t =>
        { t with token := .binary "<", span := ⟨t.span.lo + 1, t.span.hi⟩, afterBreak := false } }

def typeArguments (r : Rules) : Parse Tree := do
  let start ← position
  let types ← inType <| withoutModes do
    if ← isBinary "<<" then cutDoubleAngle else expect (.binary "<")
    delimited .angle false r.type_
  modify fun s => { s with scanner.exprAllowed := false }
  expect (.binary ">")
  let span ← spanFrom start
  if types.isEmpty then report span .emptyTypeArguments
  return .node .typeArguments span types

/-- Type arguments inside a type, where an angle bracket always opens or closes a list. -/
def typeArgumentsInType (r : Rules) : Parse Tree :=
  within (fun c => { c with anglesAreOperators := false }) (typeArguments r)

/-- A type after a token, if the token follows. -/
def typeAfter? (r : Rules) (t : Token) : Parse Tree :=
  inType do if ← eat t then r.type_ else return .absent

/-- The current token as messages of some rules show it. -/
def shownOptional : Parse String := do
  match ← sound? with
  | some t => return s!"Some({t.display})"
  | none => return "None"

/-- A type after a token that must follow. -/
def typeAfter (r : Rules) (t : Token) : Parse Tree :=
  inType do
    if !(← eat t) then
      let got ← shownOptional
      failHere (.unexpected got t.display)
    r.type_

/-- A type parameter with its modifiers. -/
def typeParameter (r : Rules) (varianceAllowed constAllowed : Bool) : Parse Tree := do
  let start ← position
  let allowed :=
    ["public", "private", "protected", "readonly", "abstract", "const", "override", "in", "out"]
  let (isIn, isOut, isConst) ← iterate (false, false, false) fun (isIn, isOut, isConst) => do
    match ← modifier? allowed false with
    | none => return .done (isIn, isOut, isConst)
    | some w =>
      let span := (← get).last
      if w = "const" then
        if !constAllowed then report span (.constModifier w)
        return .again (isIn, isOut, true)
      else if w = "in" then
        if !varianceAllowed then report span (.varianceModifier w)
        else if isIn then report span (.modifierSeen w)
        else if isOut then report span (.modifierOrder w "out")
        return .again (true, isOut, isConst)
      else if w = "out" then
        if !varianceAllowed then report span (.varianceModifier w)
        else if isOut then report span (.modifierSeen w)
        return .again (isIn, true, isConst)
      else
        report span (.modifierOnTypeParameter w)
        return .again (isIn, isOut, isConst)
  let name ← inType identName
  let constraint ← typeAfter? r (.word "extends")
  let default ← typeAfter? r (.assign "=")
  return .node (.typeParameter isIn isOut isConst) (← spanFrom start) [name, constraint, default]

def typeParameters (r : Rules) (varianceAllowed constAllowed : Bool) : Parse Tree :=
  inType <| withoutModes do
    let start ← position
    if !(← isAny [.binary "<", .tagStart]) then unexpected "< (jsx tag start)"
    bump
    let items ← delimited .angle false (typeParameter r varianceAllowed constAllowed)
    expect (.binary ">")
    return .node .typeParameters (← spanFrom start) items

def typeParameters? (r : Rules) (varianceAllowed constAllowed : Bool) : Parse Tree := do
  if ← isBinary "<" then typeParameters r varianceAllowed constAllowed else return .absent

/-! ## Decorators -/

def decorator (r : Rules) : Parse Tree := do
  let start ← position
  bump
  let e ←
    if ← eatPunct .leftParen then
      let e ← expression r
      expectPunct .rightParen
      pure e
    else r.subscripts (← ident false) false true
  let types ←
    if (← isTypescript) && (← isBinary "<") then typeArguments r else pure .absent
  if types.isAbsent && !(← isPunct .leftParen) then
    return .node .decorator (← spanFrom start) [e]
  let items ← arguments r false
  let call := Tree.node .call (← spanFrom e.span.lo) [e, items, types]
  return .node .decorator (← spanFrom start) [call]

/-- Decorators in front of something; `beforeExport` tells whether that may be an export. -/
def decorators (r : Rules) (beforeExport : Bool) : Parse (List Tree) := do
  if !(← get).dialect.decorators then return []
  let items ← iterate ([] : List Tree) fun items => do
    if ← isPunct .atSign then return .again ((← decorator r) :: items)
    else return .done items.reverse
  if items.isEmpty then return []
  if ← isWord "export" then
    let c ← context
    if !c.inClass && !c.inFunction && !beforeExport then
      failHere .exportNotAllowed
  return items

end RouteManifest.Script.Grammar
