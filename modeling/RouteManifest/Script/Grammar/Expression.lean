import RouteManifest.Script.Grammar.Class
import RouteManifest.Script.Grammar.Tag

/-!
# Expressions

Operands with what follows them, operators by precedence, arrow functions, and assignments.
-/

namespace RouteManifest.Script.Grammar

def isArrow (t : Tree) : Bool := match t.shape with | .arrow _ => true | _ => false

def isChain (t : Tree) : Bool := match t.shape with | .optionalChain _ => true | _ => false

def isSuper (t : Tree) : Bool := match t.shape with | .superExpr => true | _ => false

def isImportCallee (t : Tree) : Bool := match t.shape with | .importCallee => true | _ => false

def template (r : Rules) (tagged : Bool) : Parse Tree := do
  let start ← position
  bump
  let (holes, stretches) ← templateParts (withIn (expression r)) tagged
  expectPunct .backquote
  return .node .template (← spanFrom start) [.list holes, .list stretches]

def taggedTemplate (r : Rules) (tag types : Tree) : Parse Tree := do
  let t ← template r true
  let span ← spanFrom tag.span.lo
  if isChain tag then report span .taggedTemplateInChain
  return .node .taggedTemplate span [tag, types, t]

/-! ## Arrow functions -/

/-- Reports names that strict code cannot bind; `fuel` bounds the height of the pattern. -/
def checkStrictNames : (fuel : Nat) → Tree → Parse Unit
  | 0, _ => return ()
  | fuel + 1, t => do
    let checkName (name : Tree) : Parse Unit := do
      if name.name? = some "eval" || name.name? = some "arguments" then
        reportPlainly name.span .evalOrArguments
    match t with
    | .node .bindingIdent _ (name :: _) => checkName name
    | .node (.arrayPattern _) _ (items :: _) | .node (.objectPattern _) _ (items :: _) =>
      for p in items.parts do checkStrictNames fuel p
    | .node (.restPattern _) _ (target :: _) | .node .assignPattern _ (target :: _) =>
      checkStrictNames fuel target
    | .node .keyValuePattern _ [_, target] => checkStrictNames fuel target
    | .node .shorthandPattern _ (key :: _) => checkName key
    | _ => return ()

/-- What stands between parentheses that may hold parameters or an expression. -/
structure ParenItem where
  isPattern : Bool
  tree : Tree

/-- The parameters that the items between parentheses are. -/
def itemsAsParameters (items : List ParenItem) (trailing : Option Span) : Parse (List Tree) := do
  let count := items.length
  let targets ← items.zipIdx.mapM fun (item, i) => do
    let isLast := i + 1 = count
    let t := item.tree
    if !isLast then
      match t.shape with
      | .spread _ | .restPattern _ =>
        report t.span .restParameterNotLast
        return []
      | _ => if item.isPattern then return [t] else return [← asPattern .binding t]
    else if item.isPattern then
      if isRest t then
        if let some comma := trailing then report comma .commaAfterRest
      return [t]
    else
      match t with
      | .node (.spread dots) _ [inner] =>
        if let .assign _ := inner.shape then report t.span .restInitializer
        if let some comma := trailing then report comma .commaAfterRest
        let target ← asPattern .binding inner
        return [Tree.node (.restPattern dots) inner.span [target, .absent]]
      | _ => return [← asPattern .binding t]
  let targets := targets.flatten
  for t in targets do checkStrictNames (t.height + 1) t
  return targets

def arrowNode (span : Span) (isAsync : Bool) (targets : List Tree) (body types result : Tree) :
    Tree :=
  .node (.arrow ⟨isAsync, false⟩) span [.list targets, body, types, result]

/-- An assignment, if an assignment operator follows its left side. -/
def assignmentTail (r : Rules) (start : Nat) (left : Tree) : Parse Tree := do
  match ← sound? with
  | some (.assign op) =>
    let left ←
      if op = "=" then asPattern .assignment left
      else
        if !isTarget left then
          report left.span
            (if ← isTypescript then .invalidAssignmentTarget else .notAssignable)
        pure (if left.name?.isSome then bindingIdentNode left else left)
    bump
    let right ← r.assignment
    return .node (.assign op) (← spanFrom start) [left, right]
  | _ => return left

/-- The operands of an operator, with those of all operators after it. -/
def binaryExpr (r : Rules) : Parse Tree := do
  let c ← context
  let left ←
    try r.unary
    catch
      | .failure failure => do
        let operatorNext : Bool :=
          match ← required with
          | .word "in" => c.includesIn
          | .word "instanceof" | .binary _ => true
          | _ => false
        if operatorNext then
          report (← tokenSpan) .expressionExpected
          pure (invalidAt failure.span)
        else throw (.failure failure)
      | stop => throw stop
  if isArrow left then return left
  r.binaryTail left 0

/-- The two branches of a conditional expression, from its question mark on. -/
def conditionalTail (r : Rules) (start : Nat) (test : Tree) (includesIn : Bool) : Parse Tree := do
  let yes ← within (fun c => { c with
    inConditional := true
    expectsColon := true
    includesIn := c.includesIn || includesIn }) r.assignment
  expectPunct .colon
  let no ← within (fun c => { c with inConditional := true, expectsColon := false }) r.assignment
  return .node .conditional ⟨start, no.span.hi⟩ [test, yes, no]

/-- The mark of an optional parameter between parentheses, or a conditional expression. -/
def questionInParens (r : Rules) (start : Nat) (item : Tree) : Parse (Tree × Bool) := do
  if !(← isTypescript) || !(← isPunct .question) then return (item, false)
  let isSpread := match item.shape with | .spread _ => true | _ => false
  match ← ahead? with
  | some (.punct .comma) | some (.punct .colon) | some (.punct .rightParen) | some (.assign "=") =>
    bump
    let _ ← sound?
    if isSpread then report (← get).last .restOptional
    let inner := if isSpread then item.part 0 else item
    if inner.name?.isNone then fail item.span .optionalPattern
    return (item, true)
  | _ =>
    if isSpread then return (item, false)
    expectPunct .question
    return (← conditionalTail r start item false, false)

/-- The pattern that an item between parentheses is, with its type and its default. -/
def typedItem (r : Rules) (patternStart : Nat) (item : Tree) (optional : Bool) : Parse Tree := do
  let (inner, dots) :=
    match item with
    | .node (.spread dots) _ [inner] => (inner, some dots)
    | _ => (item, none)
  let target ← asPattern .binding inner
  let target := if optional then (markOptional target).getD target else target
  let target ←
    match dots with
    | some dots => pure (Tree.node (.restPattern dots) (← spanFrom patternStart) [target, .absent])
    | none => pure target
  let target ←
    match target.shape with
    | .assignPattern | .invalid => pure target
    | _ =>
      let annotation ← typeClause? r
      if annotation.isAbsent then pure target
      else
        let span ← spanFrom patternStart
        match target with
        | .node .bindingIdent _ (name :: _) =>
          pure (Tree.node .bindingIdent span [name.withSpan span, annotation])
        | _ => pure ((target.setPart 1 annotation).withSpan span)
  if ← eatAssign then
    let default ← r.assignment
    return .node .assignPattern (← spanFrom patternStart) [target, default]
  return target

/-- The item between parentheses that was followed by an arrow is the name of a parameter. -/
def isArrowName (item : ParenItem) : Bool :=
  item.tree.name?.isSome || (item.isPattern && isBindingIdent item.tree)

/-- What stands between parentheses, and the comma at its end. -/
def parenItems (r : Rules) : Parse (List ParenItem × Option Span) := do
  expectPunct .leftParen
  let found ← iterate (([], none) : List ParenItem × Option Span) fun (items, trailing) => do
    if (← atEnd) || (← isPunct .rightParen) then return .done (items.reverse, trailing)
    let isAsync ←
      if ← isWord "async" then
        match ← ahead? with
        | some (.punct .leftParen) | some (.word _) => pure true
        | _ => pure false
      else pure false
    let start ← position
    modify fun s => { s with arrowStart := some start }
    let modified ← eatModifier
    let patternStart ← position
    let plain ←
      if ← isTypescript then
        if ← isBindingName then pure true
        else if ← isPunct .ellipsis then
          match ← ahead? with
          | some (.word w) => pure (!Token.isReserved w)
          | _ => pure false
        else pure false
      else pure false
    let item ←
      if plain then
        if ← eatPunct .ellipsis then
          let dots := (← get).last
          let e ← binaryExpr r
          pure (Tree.node (.spread dots) ⟨dots.lo, e.span.hi⟩ [e])
        else
          let e ← binaryExpr r
          assignmentTail r start e
      else withIn (spreadable r)
    let (item, optional) ← questionInParens r start item
    let item : ParenItem ←
      if optional || ((← isTypescript) && (← isPunct .colon)) then
        let target ← typedItem r patternStart item optional
        pure ⟨true, target⟩
      else pure ⟨false, item⟩
    if modified then report (← spanFrom start) .parameterPropertyOutside
    let items := item :: items
    let items ←
      if ← eatPunct .arrow then
        if (items.getLast?.map isArrowName).getD false then
          let targets ← itemsAsParameters items.reverse none
          let body ← arrowBody r false (areSimple targets)
          let arrow := arrowNode (← spanFrom start) isAsync targets body .absent .absent
          pure (⟨false, arrow⟩ :: items)
        else pure items
      else pure items
    if ← isPunct .rightParen then return .again (items, trailing)
    expectPunct .comma
    let comma := (← get).last
    let trailing := if ← isPunct .rightParen then some comma else trailing
    return .again (items, trailing)
  expectPunct .rightParen
  return found

/-- Reports defaults in an object literal that turned out to be no pattern. -/
def checkNoDefaults (e : Tree) : Parse Unit := do
  if let .objectLit := e.shape then
    for p in e.parts do
      if let .assignProp := p.shape then report p.span .assignmentProperty

/-- The arrow function in the branch of a conditional expression, where a colon may belong to
either. -/
def arrowInConditional (r : Rules) (start : Nat) (isAsync : Bool) (items : List ParenItem) :
    Parse (Option Tree) := do
  let c ← context
  if !((← isTypescript) && c.inConditional && c.expectsColon && (← isPunct .colon)) then
    return none
  attempt do
    let result ← resultAnnotation r (.punct .colon)
    expectPunct .arrow
    let targets ← itemsAsParameters items none
    let body ← arrowBody r isAsync (areSimple targets)
    if c.expectsColon && !(← isPunct .colon) then unexpected "fail"
    return some (arrowNode (← spanFrom start) isAsync targets body .absent result)

/-- An arrow function from its arrow on. -/
def arrowAfterParens (r : Rules) (start : Nat) (canBeArrow isAsync : Bool)
    (items : List ParenItem) (trailing : Option Span) (result : Tree) : Parse Tree := do
  if ← afterBreak then failHere .lineBreakBeforeArrow
  if !canBeArrow then failHere .arrowNotAllowed
  expectPunct .arrow
  let targets ← itemsAsParameters items trailing
  let body ← arrowBody r isAsync (areSimple targets)
  let arrow := arrowNode (← spanFrom start) isAsync targets body .absent result
  if let .block := body.shape then
    if let some (.binary _) ← sound? then
      report (← tokenSpan) .expectedSemicolon
      let e ← r.binaryTail arrow 0
      if !(← isStatementEnd) then report (← tokenSpan) .expectedSemicolon
      return e
  return arrow

/-- An expression in parentheses, or an arrow function that begins with them. -/
def parenthesized (r : Rules) (canBeArrow : Bool) (asyncSpan : Option Span) : Parse Tree := do
  let start ← match asyncSpan with | some s => pure s.lo | none => position
  let isAsync := asyncSpan.isSome
  let (items, trailing) ←
    within (fun c => { c with expectsColon := false, includesIn := true }) (parenItems r)
  let hasPattern := items.any (·.isPattern)
  if let some arrow ← arrowInConditional r start isAsync items then return arrow
  let result ←
    if !(← context).expectsColon && (← isTypescript) && (← isPunct .colon) then
      Tree.ofOption <$> attempt do
        let result ← resultAnnotation r (.punct .colon)
        if !(← isPunct .arrow) then unexpected "fail"
        return some result
    else pure .absent
  if hasPattern || result.isPresent || (← isPunct .arrow) then
    return ← arrowAfterParens r start canBeArrow isAsync items trailing result
  for item in items do checkNoDefaults item.tree
  let es := items.map (·.tree)
  match asyncSpan with
  | some span =>
    return .node .call (← spanFrom span.lo) [identNode "async" span, .list es, .absent]
  | none =>
    let spreadIn (e : Tree) : Parse Unit := do
      if let .spread _ := e.shape then fail (e.part 0).span .spreadInParens
    match es with
    | [] => fail (← spanFrom start) .emptyParens
    | [e] =>
      spreadIn e
      return .node .paren (← spanFrom start) [e]
    | first :: rest =>
      for e in es do spreadIn e
      let span : Span := ⟨first.span.lo, (rest.getLastD first).span.hi⟩
      return .node .paren (← spanFrom start) [.node .sequence span es]

/-- An asynchronous arrow function with type parameters, from those on. -/
def genericAsyncArrow (r : Rules) (start : Nat) : Parse (Option Tree) := do
  if !(← isAny [.binary "<", .tagStart]) then return none
  let head ← attempt do
    let types ← typeParameters r false true
    expectPunct .leftParen
    let items ← parameters r
    expectPunct .rightParen
    let result ← resultAnnotation? r
    expectPunct .arrow
    return some (types, items, result)
  match head with
  | none => return none
  | some (types, items, result) =>
    within (fun c => { c with inAsync := true, inGenerator := false }) do
      let targets := parameterTargets items
      let body ← arrowBody r true (areSimple targets)
      return some (arrowNode (← spanFrom start) true targets body types result)

/-! ## Operands -/

def arrayLiteral (r : Rules) : Parse Tree := do
  let start ← position
  bump
  let items ← iterate ([] : List Tree) fun items => do
    if (← atEnd) || (← isPunct .rightBracket) then return .done items.reverse
    if ← eatPunct .comma then return .again (.absent :: items)
    let item ← withIn (spreadable r)
    if !(← isPunct .rightBracket) then
      expectPunct .comma
      let comma := (← get).last
      if ← isPunct .rightBracket then
        modify fun s => { s with trailingCommas := (start, comma) :: s.trailingCommas }
    return .again (item :: items)
  expectPunct .rightBracket
  return .node .arrayLit (← spanFrom start) items

/-- A regular expression at the slash that begins it. -/
def regexLiteral : Parse Tree := do
  let start ← position
  match ← placed? with
  | some t =>
    bump
    let s ← get
    let (token, scanner) := s.scanner.regex ⟨s.dialect, s.context⟩ start t.ahead
    set { s with scanner, current := some token, ahead := none }
    match ← required with
    | .regex body flags =>
      bump
      return .node (.regexLit body flags) (← spanFrom start) []
    | _ => failHere .expressionExpected
  | none => failHere .expressionExpected

/-- What follows a name: the rest of an arrow function, or nothing. -/
def nameOrArrow (r : Rules) (start : Nat) (canBeArrow : Bool) : Parse Tree := do
  let name ← identRef
  let c ← context
  if canBeArrow && name.name? = some "async" && (← isBindingName) then
    if ← pure c.forHead <&&> isWord "of" <&&> not <$> aheadIs (.punct .arrow) then
      if !c.forAwaitHead then report (← get).last .asyncInForOf
      return name
    let target ← bindingIdent
    if (← isTypescript) && (target.part 0).name? = some "as" && !(← isPunct .arrow) then
      let t ← inType r.type_
      return .node .asExpr (← spanFrom start) [name, t]
    expectPunct .arrow
    let body ← arrowBody r true true
    return arrowNode (← spanFrom start) true [target] body .absent .absent
  if canBeArrow && !(← afterBreak) then
    if ← eatPunct .arrow then
      checkStrictNames 1 (bindingIdentNode name)
      let body ← arrowBody r false true
      return arrowNode (← spanFrom start) false [bindingIdentNode name] body .absent .absent
  return name

/-- An operand without what follows it. -/
def primary (r : Rules) : Parse Tree := do
  let _ ← placed?
  let start ← position
  let canBeArrow := (← get).arrowStart == some start
  let other : Parse Tree := do
    if (← isWord "let") || (← isBindingName) then return ← nameOrArrow r start canBeArrow
    if ← eatPunct .hash then
      let name ← identName
      return .node .privateName (← spanFrom start) [name]
    failHere .expressionExpected
  match ← current? with
  | some token =>
    match token with
    | .word "this" =>
      bump
      return .node .thisExpr (← spanFrom start) []
    | .word "async" =>
      if ← aheadIs (.word "function") <&&> not <$> breakAhead then return ← functionExpr r true
      if ← pure canBeArrow <&&> isTypescript <&&> aheadIs (.binary "<") then
        let found ← attempt do
          let start ← position
          bump
          genericAsyncArrow r start
        if let some arrow := found then return arrow
      if ← pure canBeArrow <&&> aheadIs (.punct .leftParen) <&&> not <$> breakAhead then
        bump
        return ← parenthesized r canBeArrow (some (← get).last)
      other
    | .punct .leftBracket => within (fun c => { c with expectsColon := false }) (arrayLiteral r)
    | .punct .leftBrace => objectLiteral r
    | .word "function" => functionExpr r false
    | .word "null" | .word "true" | .word "false" | .string .. | .number .. | .bigint .. => literal
    | .binary "/" | .assign "/=" => regexLiteral
    | .punct .backquote =>
      within (fun c => { c with expectsColon := false }) (template r false)
    | .punct .leftParen => parenthesized r canBeArrow none
    | .punct .atSign =>
      let marks ← decorators r false
      if marks.isEmpty then other else classExpr r start marks
    | .word "class" => classExpr r start []
    | _ => other
  | none => other

/-! ## What follows an operand -/

/-- An expression can begin at the current token. -/
def startsExpression : Parse Bool := do
  match ← current? with
  | none => return false
  | some t =>
    match t with
    | .string .. | .number .. | .bigint .. | .regex .. => return true
    | .punct p =>
      match p with
      | .backquote | .leftParen | .leftBracket | .leftBrace | .tilde | .bang | .plusPlus
      | .minusMinus | .hash => return true
      | _ => return false
    | .word w =>
      if ["this", "super", "null", "true", "false", "function", "class", "new", "delete",
          "typeof", "void", "await", "yield"].contains w then return true
      if w = "import" then
        match ← ahead? with
        | some (.punct .leftParen) | some (.punct .dot) | some (.binary "<") => return true
        | _ => return false
      return !Token.isReserved w
    | _ => return false

/-- Type arguments that no call or template follows. -/
def instantiation? (r : Rules) : Parse Tree := do
  if !(← isTypescript) || !(← isBinary "<") then return .absent
  Tree.ofOption <$> attempt do
    let types ← typeArguments r
    match ← current? with
    | some (.binary "<") | some (.binary ">") | some (.binary "+") | some (.binary "-")
    | some (.punct .leftParen) | some (.punct .backquote) => return none
    | token =>
      let isOperator := match token with | some (.binary _) => true | _ => false
      if ← afterBreak <||> pure isOperator <||> not <$> startsExpression then return some types
      return none

/-- An expression with type arguments, if there are some. -/
def withTypes (e types : Tree) (start : Nat) : Parse Tree := do
  if types.isAbsent then return e
  return .node .instantiation (← spanFrom start) [e, types]

/-- The word `async` that could begin an arrow function. -/
def isPossibleAsync (e : Tree) : Parse Bool := do
  return e.name? = some "async" && (← get).arrowStart = some e.span.lo && !(← afterBreak)

/-- Type arguments after an operand, with the call or the template that they are for; the flag
tells whether more can follow. -/
def genericTail? (r : Rules) (start : Nat) (callee : Tree) (noCalls : Bool) :
    Parse (Option (Tree × Bool)) :=
  within (fun c => { c with anglesAreOperators := true }) <| attempt do
    if ← pure (!noCalls) <&&> isPossibleAsync callee then
      if let some arrow ← genericAsyncArrow r start then return some (arrow, true)
    let types ← typeArguments r
    if !noCalls && (← isPunct .leftParen) then
      let items ← arguments r false
      let span ← spanFrom start
      let call := Tree.node .call span [callee, .list items.parts, types]
      if isChain callee then return some (.node (.optionalChain false) span [call], true)
      return some (call, true)
    if ← isPunct .backquote then
      return some (← taggedTemplate r callee types, true)
    if ← isAny [.assign "=", .word "as"] then
      return some (.node .instantiation (← spanFrom start) [callee, types], false)
    unexpected (if noCalls then "`" else "( or `")

/-- The member of `super` with the key, or a fault. -/
def superMember (callee property : Tree) (span : Span) (noCalls chained : Bool) : Parse Tree := do
  if !(← context).directSuperAllowed then failHere .invalidSuper
  if chained then failHere (if noCalls then .invalidSuperCall else .invalidSuper)
  if isPrivate property then failHere .superPrivateName
  return .node .member span [callee, property]

/-- One thing that follows an operand, and whether more can follow. -/
def subscript (r : Rules) (start : Nat) (callee : Tree) (noCalls noComputed : Bool) :
    Parse (Tree × Bool) := do
  let _ ← sound?
  let plain := !isSuper callee && !isImportCallee callee
  if ← isTypescript then
    if !(← afterBreak) && (← isPunct .bang) then
      modify fun s => { s with scanner.exprAllowed := false }
      bump
      if isSuper callee then failHere (.nonNullNotAllowed "super")
      if isImportCallee callee then failHere (.nonNullNotAllowed "import")
      return (.node .nonNull (← spanFrom start) [callee], true)
    if plain && (← isAny [.binary "<", .binary "<<"]) then
      if let some found ← genericTail? r start callee noCalls then return found
  let chained ←
    if ← isPunct .question <&&> aheadIs (.punct .dot) then
      bump
      pure true
    else pure false
  let isChained := chained || isChain callee
  let opensBracket ←
    if noComputed then pure false
    else if ← pure chained <&&> isPunct .dot <&&> aheadIs (.punct .leftBracket) then
      bump
      eatPunct .leftBracket
    else eatPunct .leftBracket
  if opensBracket then
    let bracket := (← get).last.lo
    let e ← withIn (expression r)
    expectPunct .rightBracket
    let span ← spanFrom callee.span.lo
    let property := Tree.node .computed (← spanFrom bracket) [e]
    let types ← instantiation? r
    if isSuper callee then
      return (← superMember callee property span noCalls chained, true)
    let m := Tree.node .member span [callee, property]
    let m := if isChained then Tree.node (.optionalChain chained) span [m] else m
    return (← withTypes m types start, true)
  let opensCall ←
    if chained && (← isPunct .dot) then
      if ← aheadIs (.punct .leftParen) <||> isTypescript <&&> aheadIs (.binary "<") then
        eatPunct .dot
      else pure (!noCalls && (← isPunct .leftParen))
    else pure (!noCalls && (← isPunct .leftParen))
  if opensCall then
    let types ←
      if (← isTypescript) && (← isBinary "<") then typeArguments r else pure .absent
    let items ← arguments r (isImportCallee callee)
    let span ← spanFrom start
    let call := Tree.node .call span [callee, .list items.parts, types]
    if isChained then
      if !plain then failHere .superCallInChain
      return (.node (.optionalChain chained) span [call], true)
    return (call, true)
  if ← eatPunct .dot then
    let property ← privateOrIdentName
    let span ← spanFrom callee.span.lo
    let types ← instantiation? r
    if isImportCallee callee then
      if property.name? = some "meta" then return (.node .importMeta span [], true)
      unexpected "meta"
    if isSuper callee then
      return (← superMember callee property span noCalls chained, true)
    let m := Tree.node .member span [callee, property]
    let m := if isChained then Tree.node (.optionalChain chained) span [m] else m
    return (← withTypes m types start, true)
  if isSuper callee then failHere (if noCalls then .invalidSuperCall else .invalidSuper)
  if isImportCallee callee then failHere .importNotAllowed
  if ← isPunct .backquote then
    let t ← within (fun c => { c with expectsColon := false }) (taggedTemplate r callee .absent)
    return (t, true)
  return (callee, false)

def subscripts (r : Rules) (callee : Tree) (noCalls noComputed : Bool) : Parse Tree :=
  let start := callee.span.lo
  iterate callee fun e => do
    let (e, more) ← subscript r start e noCalls noComputed
    return if more then .again e else .done e

/-- What follows the word `import` in an expression. -/
def importTail (r : Rules) (start : Nat) (noCalls : Bool) : Parse Tree := do
  if ← eatPunct .dot then
    let name ← identName
    if name.name? ≠ some "meta" then unexpected "meta"
    subscripts r (.node .importMeta (← spanFrom start) []) noCalls false
  else subscripts r (.node .importCallee (← spanFrom start) []) noCalls false

/-- An operand with its members, or a `new` expression. -/
def newOrMember (r : Rules) (isNew : Bool) : Parse Tree :=
  within (fun c => { c with anglesAreOperators := true }) do
    let start ← position
    if ← eatWord "new" then
      if ← eatPunct .dot then
        if ← eatWord "target" then
          let span ← spanFrom start
          let c ← context
          if !c.insideFunctionScope && !c.inParameters && !c.inClass then
            report span .newTargetOutside
          return ← subscripts r (.node .newTarget span []) true false
        unexpected "target"
      let callee ← r.newCallee isNew
      if isArrow callee then return callee
      if isNew then
        if isChain callee then fail callee.span .chainInNew
        if let .node .member _ (object :: _) := callee then
          if isChain object then fail object.span .chainInNew
      let types ←
        if (← isTypescript) && (← isAny [.binary "<", .binary "<<"]) then
          Tree.ofOption <$> attempt do
            let types ← within (fun c => { c with anglesAreOperators := false }) (typeArguments r)
            if !(← isPunct .leftParen) then expectPunct .leftParen
            return some types
        else pure .absent
      if !isNew || (← isPunct .leftParen) then
        let items ← arguments r false
        let e := Tree.node .newExpr (← spanFrom start) [callee, items, types]
        return ← subscripts r e true false
      return .node .newExpr (← spanFrom start) [callee, .absent, types]
    if ← eatWord "super" then
      return ← subscripts r (.node .superExpr (← spanFrom start) []) true false
    if ← eatWord "import" then return ← importTail r start true
    let e ← primary r
    if isArrow e then return e
    let types ← instantiation? r
    subscripts r (← withTypes e types start) true false

def leftHandSide (r : Rules) : Parse Tree := do
  let start ← position
  if ← isJsx then
    match ← required with
    | .tagText raw =>
      bump
      return .node (.jsxText raw) (← get).last []
    | .tagStart => return ← r.tagElement start
    | _ => pure ()
    if ← isBinary "<" <&&> not <$> aheadIs (.punct .bang) then return ← r.tagElement start
  if ← eatWord "super" then
    return ← subscripts r (.node .superExpr (← spanFrom start) []) false false
  if ← eatWord "import" then return ← importTail r start false
  let callee ← newOrMember r true
  if isArrow callee then return callee
  let types ←
    if (← isTypescript) && (← isAny [.binary "<", .binary "<<"]) then
      Tree.ofOption <$> attempt do
        let types ← typeArguments r
        return if ← isPunct .leftParen then some types else none
    else pure .absent
  if let .node .newExpr span [inner, .node .absent _ _, _] := callee then
    if types.isPresent then expectPunct .leftParen
    return .node .newExpr span [inner, .absent, types]
  if ← isPunct .leftParen then
    let items ← arguments r false
    let span ← spanFrom start
    let call := Tree.node .call span [callee, items, types]
    let call := if isChain callee then Tree.node (.optionalChain false) span [call] else call
    return ← subscripts r call false false
  if types.isPresent then expectPunct .leftParen
  return callee

/-! ## Operators -/

def precedence : String → Nat
  | "??" | "||" => 1
  | "&&" => 2
  | "|" => 3
  | "^" => 4
  | "&" => 5
  | "==" | "!=" | "===" | "!==" => 6
  | "<" | "<=" | ">" | ">=" | "in" | "instanceof" => 7
  | "<<" | ">>" | ">>>" => 8
  | "+" | "-" => 9
  | "*" | "/" | "%" => 10
  | _ => 11

/-- Joins an angle bracket with the token right behind it into the operator that they spell. -/
def mergeAngles : Parse Unit := do
  match ← placed?, ← placedAhead? with
  | some a, some b =>
    if a.span.hi ≠ b.span.lo then return ()
    let joined : Option Token :=
      match a.token, b.token with
      | .binary ">", .binary ">" => some (.binary ">>")
      | .binary ">", .assign "=" => some (.binary ">=")
      | .binary ">", .binary ">>" => some (.binary ">>>")
      | .binary ">", .binary ">=" => some (.assign ">>=")
      | .binary ">", .assign ">>=" => some (.assign ">>>=")
      | .binary "<", .binary "<" => some (.binary "<<")
      | .binary "<", .assign "=" => some (.binary "<=")
      | .binary "<", .binary "<=" => some (.assign "<<=")
      | _, _ => none
    match joined with
    | some token =>
      modify fun s =>
        { s with
          current := some { a with token, span := ⟨a.span.lo, b.span.hi⟩ }
          ahead := none }
    | none => return ()
  | _, _ => return ()

/-- The type after the current token. -/
def typeAfterToken (r : Rules) : Parse Tree := do
  let t ← inType do
    bump
    r.type_
  if !(← context).inType && (← isAny [.binary ">", .binary "<"]) then mergeAngles
  return t

def isLogical (t : Tree) : Bool :=
  match t.shape with | .binary op => op = "&&" || op = "||" | _ => false

/-- One operator after a left operand, with its right operand; none if no operator of a higher
precedence follows. -/
def binaryStep (r : Rules) (left : Tree) (minPrec : Nat) : Parse (Option Tree) := do
  if (← isTypescript) && !(← afterBreak) then
    let start := left.span.lo
    if minPrec < 7 && (← isWord "as") then
      if ← aheadIs (.word "const") then
        bump
        let _ ← sound?
        bump
        return some (.node .constAssertion (← spanFrom start) [left])
      let t ← typeAfterToken r
      return some (.node .asExpr (← spanFrom start) [left, t])
    if ← isWord "satisfies" then
      let t ← typeAfterToken r
      return some (.node .satisfiesExpr (← spanFrom start) [left, t])
  let op? : Option String ←
    match ← sound? with
    | some (.word "in") => pure (if (← context).includesIn then some "in" else none)
    | some (.word "instanceof") => pure (some "instanceof")
    | some (.binary op) => pure (some op)
    | _ => pure none
  match op? with
  | none => return none
  | some op =>
    if precedence op ≤ minPrec then return none
    bump
    if op = "**" then
      match left.shape with
      | .unary _ | .awaitExpr => failHere .unaryBeforePower
      | _ => pure ()
    let right ← r.unary
    let right ← r.binaryTail right (if op = "**" then precedence op - 1 else precedence op)
    if op = "??" then
      if isLogical left then report left.span .nullishMixed
      if isLogical right then report right.span .nullishMixed
    return some (.node (.binary op) ⟨left.span.lo, right.span.hi⟩ [left, right])

/-- The operators above a precedence after a left operand, with their right operands. -/
def binaryTail (r : Rules) (left : Tree) (minPrec : Nat) : Parse Tree := do
  let first ← binaryStep r left minPrec
  match first with
  | none => return left
  | some first =>
    iterate first fun left => do
      match ← binaryStep r left minPrec with
      | none => return .done left
      | some e =>
        if isLogical e then
          if let .binary "??" := (e.part 0).shape then report e.span .nullishMixed
        return .again e

/-- An operand after `await`. -/
def awaitExpr (r : Rules) (started : Option Nat) : Parse Tree := do
  let start ← match started with | some n => pure n | none => position
  if started.isNone then bump
  if ← isBinary "*" then failHere .awaitStar
  let c ← context
  let span ← spanFrom start
  if (← isAny [.punct .rightParen, .punct .rightBracket, .punct .comma]) || (← isStatementEnd) then
    report span .awaitAsName
    return identNode "await" span
  if c.inFunction && !c.inAsync then report (← tokenSpan) .awaitInFunction
  if c.inParameters && !c.inFunction then report span .awaitInParameter
  let e ← r.unary
  return .node .awaitExpr (← spanFrom start) [e]

/-- An expression without the parentheses around it. -/
def withoutParens : Tree → Tree
  | .node .paren _ [e] => withoutParens e
  | e => e

/-- Reports an operand of `delete` that names no property. -/
def checkDeleted (e : Tree) : Parse Unit := do
  if e.name?.isSome then reportPlainly e.span .deleteOfName
  if ← isTypescript then
    let inner := withoutParens e
    match inner with
    | .node .member _ _ | .node (.optionalChain _) _ [.node .member _ _] => pure ()
    | _ => report inner.span .deleteOfNonReference

/-- An operand with the operators before and after it. -/
def unary (r : Rules) : Parse Tree := do
  let start ← position
  if !(← isJsx) && (← isTypescript) then
    if ← eatBinary "<" then
      if ← eatWord "const" then
        expect (.binary ">")
        let e ← r.unary
        return .node .constAssertion (← spanFrom start) [e]
      return ← typeAssertion r start
  if ← isAny [.punct .plusPlus, .punct .minusMinus] then
    let op ← shown
    bump
    let e ← r.unary
    checkTarget e false
    return .node (.update op true) ⟨start, e.span.hi⟩ [e]
  if ← isAny [.word "delete", .word "void", .word "typeof", .binary "+", .binary "-",
      .punct .tilde, .punct .bang] then
    let op ← shown
    bump
    let operandStart := (← position) - 1
    let e ←
      try r.unary
      catch
        | .failure failure => do
          report failure.span failure.fault
          pure (invalidAt ⟨operandStart, operandStart⟩)
        | stop => throw stop
    if op = "delete" then checkDeleted e
    return .node (.unary op) ⟨start, e.span.hi⟩ [e]
  if ← isWord "await" then return ← awaitExpr r none
  let e ← leftHandSide r
  if isArrow e then return e
  if ← afterBreak then return e
  if ← isAny [.punct .plusPlus, .punct .minusMinus] then
    checkTarget e false
    let op ← shown
    bump
    return .node (.update op false) (← spanFrom e.span.lo) [e]
  return e

/-! ## Assignments -/

def yieldExpr (r : Rules) : Parse Tree := do
  let start ← position
  bump
  let c ← context
  if c.inParameters && !c.inFunction then fail (← get).last .yieldInParameter
  let alone ←
    if ← isStatementEnd then pure true
    else if ← isAny [.binary "*", .binary "/", .assign "/="] then pure false
    else
      match ← sound? with
      | some t => pure (!t.startsExpr)
      | none => pure false
  if alone then return .node (.yieldExpr false) (← spanFrom start) [.absent]
  let delegate ← eatBinary "*"
  let e ← r.assignment
  return .node (.yieldExpr delegate) (← spanFrom start) [e]

def conditional (r : Rules) : Parse Tree := do
  let start ← position
  let test ← binaryExpr r
  if isArrow test then return test
  if ← eatPunct .question then conditionalTail r start test true else return test

/-- The scanner no longer stands in an opening tag that turned out to be none. -/
def leaveTag : Parse Unit :=
  modify fun s =>
    match s.scanner.modes with
    | .openingTag :: .tagBody :: modes => { s with scanner.modes := modes }
    | _ => s

/-- An arrow function that begins with type parameters. -/
def genericArrow? (r : Rules) : Parse (Option Tree) := do
  if !(← isTypescript) || !(← isAny [.binary "<", .tagStart]) then return none
  match ← ahead? with
  | some (.word _) | some (.tagName _) =>
    within (fun c => { c with expectsColon := false }) <| attempt do
      if ← is .tagStart then leaveTag
      let types ← typeParameters r false true
      let e ← r.plainAssignment
      match e with
      | .node (.arrow flags) span [items, body, _, result] =>
        return some (.node (.arrow flags) ⟨types.span.lo, span.hi⟩ [items, body, types, result])
      | _ => unexpected "("
  | _ => return none

/-- An expression without commas, where an angle bracket is no tag that failed. -/
def plainAssignment (r : Rules) : Parse Tree := do
  let start ← position
  if let some arrow ← genericArrow? r then return arrow
  if (← context).inGenerator && (← isWord "yield") then return ← yieldExpr r
  let arrowStart : Option Nat :=
    match ← required with
    | .word w => if isPlainWord w || w = "yield" then some start else none
    | .punct .leftParen => some start
    | _ => none
  modify fun s => { s with arrowStart }
  let start ← position
  let e ← conditional r
  if isArrow e then return e
  match e.shape with
  | .conditional | .binary _ | .unary _ | .update .. => return e
  | _ => assignmentTail r start e

/-- An expression without commas. -/
def assignment (r : Rules) : Parse Tree := do
  if (← isTypescript) && (← isJsx) && (← is .tagStart) then
    match ← attempt (some <$> plainAssignment r) with
    | some e => return e
    | none =>
      leaveTag
      plainAssignment r
  else plainAssignment r

end RouteManifest.Script.Grammar
