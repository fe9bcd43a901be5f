import RouteManifest.Script.Grammar.Listing

/-!
# Patterns and parameters

Patterns that bind names, the parameters of functions, and the change of an expression into the
pattern that it turns out to be.
-/

namespace RouteManifest.Script.Grammar

/-- An element of a pattern with its default. -/
def bindingElement (r : Rules) : Parse Tree := do
  let start ← position
  let target ← r.pattern
  if ← eatAssign then
    let default ← withIn r.assignment
    if (← context).inDeclare then report (← spanFrom start) .initializerInDeclaration
    return .node .assignPattern (← spanFrom start) [target, default]
  return target

/-- The mark of an optional pattern, allowed where nothing is implemented. -/
def optionalMark : Parse Bool := do
  if (← context).inDeclare then eatPunct .question else return false

def arrayPattern (r : Rules) : Parse Tree := do
  let start ← position
  bump
  let items ← iterate (([], none) : List Tree × Option Span) fun (items, rest) => do
    if (← atEnd) || (← isPunct .rightBracket) then return .done items.reverse
    if ← eatPunct .comma then return .again (.absent :: items, rest)
    if let some span := rest then report span .restNotLast
    let start ← position
    let (item, rest, isRest) ←
      if ← eatPunct .ellipsis then
        let dots ← spanFrom start
        let target ← r.pattern
        let span ← spanFrom start
        pure (Tree.node (.restPattern dots) span [target, .absent], some span, true)
      else pure (← bindingElement r, rest, false)
    if !(← isPunct .rightBracket) then
      expectPunct .comma
      if isRest && (← isPunct .rightBracket) then report (← get).last .commaAfterRest
    return .again (item :: items, rest)
  expectPunct .rightBracket
  let optional ← optionalMark
  return .node (.arrayPattern optional) (← spanFrom start) [.list items, .absent]

def patternProperty (r : Rules) : Parse Tree := do
  let start ← position
  if ← eatPunct .ellipsis then
    let dots ← spanFrom start
    let target ← r.pattern
    return .node (.restPattern dots) (← spanFrom start) [target, .absent]
  let key ← propertyKey r
  if ← eatPunct .colon then
    let target ← bindingElement r
    return .node .keyValuePattern ⟨key.span.lo, target.span.hi⟩ [key, target]
  match key.name? with
  | none => unexpected "an identifier"
  | some w =>
    let default ←
      if ← eatAssign then withIn r.assignment
      else
        if Token.isReserved w then report key.span .reservedShorthand
        pure .absent
    return .node .shorthandPattern (← spanFrom start) [key, default]

/-- The members between braces, and the comma after the last of them. -/
def braced (member : Parse Tree) : Parse (List Tree × Option Span) :=
  within (fun c => { c with expectsColon := false }) do
    bump
    iterate ([], none) fun (items, trailing) => do
      if ← eatPunct .rightBrace then return .done (items.reverse, trailing)
      let item ← member
      if ← isPunct .rightBrace then return .again (item :: items, trailing)
      expectPunct .comma
      let comma := (← get).last
      let trailing := if ← isPunct .rightBrace then some comma else trailing
      return .again (item :: items, trailing)

def isRest (t : Tree) : Bool := match t.shape with | .restPattern _ => true | _ => false

def isBindingIdent (t : Tree) : Bool := match t.shape with | .bindingIdent => true | _ => false

/-- Checks that rest elements of an object pattern stand at the end and bind a name. -/
def checkRests (trailing : Option Span) : List Tree → Parse Unit
  | [] => return ()
  | [p] => do
    if isRest p then
      if isBindingIdent (p.part 0) then
        if let some comma := trailing then report comma .commaAfterRest
      else fail p.span .dotsWithoutIdentifier
  | p :: ps => do
    if isRest p then report p.span .restNotLast
    checkRests trailing ps

def objectPattern (r : Rules) : Parse Tree := do
  let start ← position
  let (items, trailing) ← braced (patternProperty r)
  let span ← spanFrom start
  checkRests trailing items
  let optional ← optionalMark
  return .node (.objectPattern optional) span [.list items, .absent]

/-- A pattern, or a name that is bound. -/
def bindingPattern (r : Rules) : Parse Tree := do
  match ← required with
  | .word _ => bindingIdent
  | .punct .leftBracket => arrayPattern r
  | .punct .leftBrace => objectPattern r
  | _ => unexpected "yield, an identifier, [ or \x7b"

/-! ## Parameters -/

/-- A pattern that was marked as optional. -/
def markOptional (p : Tree) : Option Tree :=
  match p with
  | .node .bindingIdent span (.node (.ident n s _) nameSpan ps :: rest) =>
    some (.node .bindingIdent span (.node (.ident n s true) nameSpan ps :: rest))
  | .node (.arrayPattern _) span ps => some (.node (.arrayPattern true) span ps)
  | .node (.objectPattern _) span ps => some (.node (.objectPattern true) span ps)
  | _ => none

/-- A pattern with its type, if an annotation follows; the span of a name keeps to the name. -/
def withAnnotation (r : Rules) (p : Tree) (start : Nat) : Parse Tree := do
  let annotation ← typeClause? r
  if annotation.isAbsent then return p
  match p.shape with
  | .bindingIdent => return p.setPart 1 annotation
  | .arrayPattern _ | .objectPattern _ | .restPattern _ =>
    return (p.setPart 1 annotation).withSpan (← spanFrom start)
  | .assignPattern =>
    report (← spanFrom start) .typeAfterDefault
    return p
  | _ => return p

/-- A parameter without its decorators. -/
def parameterPattern (r : Rules) : Parse Tree := do
  let start ← position
  let modified ← eatModifier
  let patternStart ← position
  let target ← bindingPattern r
  let (target, optional) ←
    if ← isTypescript then
      let (target, optional) ←
        if ← eatPunct .question then
          match markOptional target with
          | some marked => pure (marked, true)
          | none =>
            if !(← context).inDeclare then fail (← get).last .optionalPattern
            pure (target, false)
        else pure (target, false)
      pure (← withAnnotation r target patternStart, optional)
    else pure (target, false)
  let target ←
    if ← eatAssign then
      if optional then report target.span .questionAndInitializer
      let default ← r.assignment
      if (← context).inDeclare then report (← spanFrom start) .initializerInDeclaration
      pure (Tree.node .assignPattern (← spanFrom start) [target, default])
    else pure target
  if modified then report (← spanFrom start) .parameterPropertyOutside
  return target

/-- What follows the dots of a rest parameter that starts at `start`. -/
def restParameter (r : Rules) (start : Nat) (initializerPassed : Bool) : Parse Tree := do
  let dots ← spanFrom start
  let target ← r.pattern
  let target ←
    if ← pure initializerPassed <&&> eatAssign then
      let default ← r.assignment
      report target.span .restInitializer
      pure (Tree.node .assignPattern (← spanFrom start) [target, default])
    else pure target
  let annotation ← if ← isTypescript then typeClause? r else pure .absent
  return .node (.restPattern dots) (← spanFrom start) [target, annotation]

/-- Parameters up to the closing parenthesis. -/
def parameterList (one : (start : Nat) → (decorators : Tree) → Parse Tree)
    (rest : (start : Nat) → Parse Tree) (r : Rules) : Parse (List Tree) :=
  iterate (([], none) : List Tree × Option Span) fun (items, restSpan) => do
    if (← atEnd) || (← isPunct .rightParen) then return .done items.reverse
    if let some span := restSpan then report span .restParameterNotLast
    let start ← position
    let marks := Tree.list (← decorators r false)
    let targetStart ← position
    let isRest ← eatPunct .ellipsis
    let (item, restSpan) ←
      if isRest then
        let target ← rest targetStart
        pure (Tree.node .parameter (← spanFrom start) [marks, target], some target.span)
      else pure (← one start marks, restSpan)
    if !(← isPunct .rightParen) then
      expectPunct .comma
      if isRest && (← isPunct .rightParen) then report (← get).last .commaAfterRest
    return .again (item :: items, restSpan)

/-- The parameters of a function. -/
def parameters (r : Rules) : Parse (List Tree) :=
  parameterList
    (fun start marks => do
      let target ← parameterPattern r
      return .node .parameter (← spanFrom start) [marks, target])
    (fun start => do
      let target ← restParameter r start true
      if ← isTypescript <&&> eatPunct .question then report (← get).last .restOptional
      return target)
    r

/-- The parameters of a constructor, which can declare members of its class. -/
def constructorParameters (r : Rules) : Parse (List Tree) :=
  parameterList
    (fun start marks => do
      let access ← accessModifier?
      let isOverride := (← modifier? ["override"] false).isSome
      let isReadonly := (← modifier? ["readonly"] false).isSome
      let target ← parameterPattern r
      if access.isNone && !isOverride && !isReadonly then
        return .node .parameter (← spanFrom start) [marks, target]
      match target.shape with
      | .bindingIdent | .assignPattern =>
        let modifiers := { Modifiers.none with access, isOverride, isReadonly }
        return .node (.parameterProperty modifiers) (← spanFrom start) [marks, target]
      | _ => fail target.span .parameterPropertyPattern)
    (fun start => restParameter r start false)
    r

/-! ## Expressions that turn out to be patterns -/

/-- What a pattern made of an expression is for. -/
inductive PatternUse where
  | binding
  | assignment
  | assignmentElement
  deriving DecidableEq

def PatternUse.element : PatternUse → PatternUse
  | binding => binding
  | _ => assignmentElement

/-- Something can be assigned to what the expression names. -/
def isTarget : Tree → Bool
  | .node (.ident w _ _) _ _ => w ≠ "eval" && w ≠ "arguments"
  | .node .paren _ (e :: _) => isTarget e
  | .node .member _ (object :: _) =>
    match object with
    | .node .member _ _ => isTarget object
    | .node (.optionalChain _) _ _ => false
    | _ => true
  | .node .nonNull _ (e :: _) | .node .typeAssertion _ (e :: _) | .node .asExpr _ (e :: _)
  | .node .instantiation _ (e :: _) | .node .satisfiesExpr _ (e :: _) => isTarget e
  | _ => false

/-- The expression may not stand before an assignment, unless other rules see to that. -/
def isDeniedTarget (callsToo : Bool) : Tree → Bool
  | .node .paren _ (e :: _) => isDeniedTarget callsToo e
  | .node shape _ _ =>
    match shape with
    | .stringLit .. | .numberLit _ | .bigintLit _ | .boolLit _ | .nullLit | .regexLit ..
    | .jsxText _ | .binary _ => false
    | .call => callsToo
    | _ => true

/-- Reports an expression that nothing can be assigned to. -/
def checkTarget (e : Tree) (callsToo : Bool) : Parse Unit := do
  if !isTarget e && isDeniedTarget callsToo e then report e.span .invalidAssignmentTarget

def isLiteral (t : Tree) : Bool :=
  match t.shape with
  | .stringLit .. | .numberLit _ | .bigintLit _ | .boolLit _ | .nullLit | .regexLit .. => true
  | _ => false

/-- The expressions that can be the target of an element. -/
def isElementTarget (t : Tree) : Bool :=
  isLiteral t ||
  match t.shape with
  | .member | .call | .newExpr | .ident .. | .functionExpr | .classExpr | .paren | .template
  | .asExpr => true
  | _ => false

def invalidAt (span : Span) : Tree := .node .invalid span []

/-- The pattern that an expression is; `fuel` bounds its height. -/
def toPattern (use : PatternUse) (e : Tree) : (fuel : Nat) → Parse Tree
  | 0 => return e
  | fuel + 1 => do
    let bad : Parse Tree := do
      report e.span .notPattern
      return invalidAt e.span
    let ofIdent (e : Tree) : Tree := bindingIdentNode e
    match e with
    | .node .invalid _ _ => return e
    | .node .objectLit span items => do
      let trailing := (← get).trailingCommas.lookup span.lo
      let count := items.length
      let items ← items.zipIdx.mapM fun (item, i) => do
        match item with
        | .node (.ident ..) idSpan _ => return .node .shorthandPattern idSpan [item, .absent]
        | .node .keyValue _ [key, value] =>
          let target ← toPattern use.element value fuel
          return .node .keyValuePattern item.span [key, target]
        | .node .assignProp _ [key, value] =>
          return .node .shorthandPattern item.span [key, value]
        | .node (.spread dots) _ [inner] =>
          if i + 1 ≠ count then report item.span .restNotLast
          else if let some comma := trailing then report comma .commaAfterRest
          let target ←
            if use.element = .binding then
              if inner.name?.isSome then pure (ofIdent inner)
              else
                report item.span .dotsWithoutIdentifier
                pure (invalidAt item.span)
            else toPattern use.element inner fuel
          if let .assignPattern := target.shape then report item.span .restInitializer
          return .node (.restPattern dots) item.span [target, .absent]
        | _ => fail item.span .notPattern
      return .node (.objectPattern false) span [.list items, .absent]
    | .node .arrayLit span items => do
      let trailing := (← get).trailingCommas.lookup span.lo
      let kept := (items.reverse.dropWhile Tree.isAbsent).reverse
      let holes := items.length - kept.length
      let items ← kept.zipIdx.mapM fun (item, i) => do
        let isLast := holes = 0 && i + 1 = kept.length
        match item with
        | .node .absent _ _ => return [item]
        | .node (.spread dots) _ [inner] =>
          if !isLast then
            report inner.span .restNotLast
            return []
          else
            if let .assign _ := inner.shape then report item.span .restInitializer
            if let some comma := trailing then report comma .commaAfterRest
            let target ← toPattern use.element inner fuel
            return [.node (.restPattern dots) inner.span [target, .absent]]
        | _ => return [← toPattern use.element item fuel]
      return .node (.arrayPattern false) span [.list items.flatten, .absent]
    | _ =>
      if use = .assignment then
        checkTarget e true
        if !isTarget e && !isDeniedTarget true e then report e.span .notAssignable
        if e.name?.isSome then return ofIdent e else return e
      if use = .assignmentElement then
        if isElementTarget e then
          if !isTarget e then report e.span .notAssignable
          if e.name?.isSome then return ofIdent e else return e
        if let .assign _ := e.shape then pure () else report e.span .notPattern
      match e with
      | .node (.ident ..) _ _ => return ofIdent e
      | .node (.assign "=") span [left, right] =>
        return .node .assignPattern span [left, right]
      | _ => bad

/-- The pattern that an expression is. -/
def asPattern (use : PatternUse) (e : Tree) : Parse Tree := toPattern use e (e.height + 1)

end RouteManifest.Script.Grammar
