import RouteManifest.Script.Grammar.Pattern

/-!
# Types

Types, the members of object types, and the declarations that introduce types or namespaces.
-/

namespace RouteManifest.Script.Grammar

/-- A stretch of a template. -/
def templateElement (tagged : Bool) : Parse Tree := do
  let start ← position
  match ← required with
  | .template raw bad =>
    bump
    match bad with
    | some failure => if !tagged then throw (.failure failure)
    | none => pure ()
    let tail ← isPunct .backquote
    return .node (.templateElement raw tail) (← spanFrom start) []
  | _ => unexpected "template token"

/-- The holes and the stretches of a template, from after its first mark to before its last. -/
def templateParts (hole : Parse Tree) (tagged : Bool) : Parse (List Tree × List Tree) := do
  let first ← templateElement tagged
  iterate ([], [first], first) fun (holes, stretches, last) => do
    if let .templateElement _ true := last.shape then
      return .done (holes.reverse, stretches.reverse)
    expectPunct .dollarBrace
    let e ← hole
    expectPunct .rightBrace
    let next ← templateElement tagged
    return .again (e :: holes, next :: stretches, next)

/-- A name that may be qualified by dots. -/
def entityName (reservedAllowed : Bool) : Parse Tree := do
  let first ← identName
  if first.name? = some "void" then
    let start ← position
    report ⟨start, start⟩ .expectedSemicolon
  iterate first fun left => do
    if !(← eatPunct .dot) then return .done left
    let start ← position
    if !(← isPunct .hash) && !(← isAnyWord) then
      report ⟨start, start⟩ .expectedAnIdentifier
      return .done left
    let right ← if reservedAllowed then identName else ident false
    return .again (.node .qualifiedName ⟨left.span.lo, right.span.hi⟩ [left, right])

def typeReference (r : Rules) : Parse Tree := do
  let start ← position
  let modified ← eatModifier
  let name ← entityName true
  let types ←
    if !(← afterBreak) && (← isAny [.binary "<", .binary "<<"]) then typeArgumentsInType r
    else pure .absent
  if modified then report (← spanFrom start) .parameterPropertyOutside
  return .node .typeReference (← spanFrom start) [name, types]

/-- A separator after a member of an object type. -/
def memberEnd : Parse Unit := do
  if !(← eatPunct .comma) then expectSemicolon

/-- The parameters of a signature and their closing parenthesis. -/
def signatureParameters (r : Rules) : Parse Tree := do
  let items ← parameters r
  let items ← items.mapM fun p => do
    let target := p.part 1
    match target.shape with
    | .bindingIdent | .arrayPattern _ | .objectPattern _ | .restPattern _ => return target
    | _ =>
      unexpected <|
        "an identifier, [ for an array pattern, \x7b for an object patter or ... for a rest " ++
          "pattern"
  expectPunct .rightParen
  return .list items

/-- The type of a result, or what a test says about an argument, after a token. -/
def resultAnnotation (r : Rules) (t : Token) : Parse Tree :=
  inType do
    let start ← position
    if !(← eat t) then
      let got ← shownOptional
      failHere (.expected t.display got)
    let predicateStart ← position
    let asserts ←
      if ← isWord "asserts" then
        match ← ahead? with
        | some (.word w) => pure (!Token.isReserved w)
        | _ => pure false
      else pure false
    if asserts then
      bump
      let _ ← sound?
    let isPredicate ←
      if ← isBindingName <&&> aheadIs (.word "is") then pure !(← breakAhead) else pure false
    if !asserts && !isPredicate then return ← typeClause r false start
    let name ← identName
    let annotation ←
      if isPredicate then
        bump
        typeClause r false (← position)
      else pure .absent
    let t := Tree.node (.typePredicate asserts) (← spanFrom predicateStart) [name, annotation]
    return .node .typeClause (← spanFrom start) [t]

def resultAnnotation? (r : Rules) : Parse Tree := do
  if ← isPunct .colon then resultAnnotation r (.punct .colon) else return .absent

/-- Type parameters, parameters and result of a signature. -/
def signature (r : Rules) : Parse (Tree × Tree × Tree) := do
  let types ← typeParameters? r false true
  expectPunct .leftParen
  let items ← signatureParameters r
  let result ← resultAnnotation? r
  return (types, items, result)

def signatureMember (r : Rules) (constructs : Bool) : Parse Tree := do
  let start ← position
  if constructs then expectWord "new"
  let (types, items, result) ← signature r
  memberEnd
  let shape := if constructs then Shape.constructSignature else .callSignature
  return .node shape (← spanFrom start) [items, result, types]

/-- A bracket opens an index signature. -/
def opensIndexSignature : Parse Bool :=
  lookAhead do
    bump
    if !(← isBindingName) then return false
    bump
    isAny [.punct .colon, .punct .comma]

/-- An index signature, if one begins here. -/
def indexSignature? (r : Rules) (start : Nat) (isReadonly isStatic : Bool) :
    Parse (Option Tree) := do
  if !(← isTypescript) then return none
  if !(← isPunct .leftBracket) then return none
  if !(← opensIndexSignature) then return none
  expectPunct .leftBracket
  let nameStart ← position
  let name ← identName
  let typeStart ← position
  if ← eatPunct .comma then report name.span .indexSignatureParameters
  else expectPunct .colon
  let annotation ← typeClause r false typeStart
  let parameter := Tree.node .bindingIdent (← spanFrom nameStart)
    [name.withSpan (← spanFrom nameStart), annotation]
  expectPunct .rightBracket
  let result ← typeClause? r
  memberEnd
  return some
    (.node (.indexSignature isReadonly isStatic) (← spanFrom start) [.list [parameter], result])

/-- The key of a member of an object type, and whether it is computed. -/
def memberKey (r : Rules) : Parse (Bool × Tree) := do
  if ← eatPunct .leftBracket then
    let e ← r.assignment
    expectPunct .rightBracket
    return (true, e)
  within (fun c => { c with inPropertyName := true }) do
    match ← required with
    | .number .. | .string .. => return (false, ← literal)
    | _ =>
      let key ← privateOrIdentName
      if let .privateName := key.shape then report key.span .privateNameInType
      return (false, key)

def propertyOrMethodSignature (r : Rules) (start : Nat) (isReadonly : Bool) : Parse Tree := do
  let (isComputed, key) ← memberKey r
  let isOptional ← eatPunct .question
  if ← isAny [.punct .leftParen, .binary "<"] then
    if isReadonly then failHere .readonlyMethod
    let (types, items, result) ← signature r
    memberEnd
    return .node (.methodSignature isComputed isOptional) (← spanFrom start)
      [key, items, result, types]
  let annotation ← typeClause? r
  memberEnd
  return .node (.propertySignature isReadonly isComputed isOptional) (← spanFrom start)
    [key, annotation]

/-- A getter or a setter of an object type. -/
def accessorSignature (r : Rules) (isReadonly : Bool) : Parse (Option Tree) := do
  let start ← position
  if isReadonly then failHere .readonlyAccessor
  let isGetter ← eatWord "get"
  if !isGetter then expectWord "set"
  let (isComputed, key) ← memberKey r
  expectPunct .leftParen
  if isGetter then
    expectPunct .rightParen
    let annotation ← typeClause? r
    memberEnd
    return some (.node (.getterSignature isComputed) (← spanFrom start) [key, annotation])
  else
    let items ← signatureParameters r
    match items.parts with
    | [] => failHere .setterWithoutParameter
    | parameter :: _ =>
      memberEnd
      return some (.node (.setterSignature isComputed) (← spanFrom start) [key, parameter])

def typeMember (r : Rules) : Parse Tree := do
  if ← isAny [.punct .leftParen, .binary "<"] then return ← signatureMember r false
  if ← isWord "new" then
    if ← lookAhead (do bump; isAny [.punct .leftParen, .binary "<"]) then
      return ← signatureMember r true
  let start ← position
  let isReadonly := (← modifier? ["readonly"] false).isSome
  if let some member ← indexSignature? r start isReadonly false then return member
  if let some member ← attempt (accessorSignature r isReadonly) then return member
  propertyOrMethodSignature r start isReadonly

/-- The members of an object type with their braces. -/
def typeMembers (r : Rules) : Parse (List Tree) := do
  expectPunct .leftBrace
  let members ← iterate ([] : List Tree) fun items => do
    if ← atListEnd .members then return .done items.reverse
    return .again ((← typeMember r) :: items)
  expectPunct .rightBrace
  return members

def typeLiteral (r : Rules) : Parse Tree := do
  let start ← position
  let members ← typeMembers r
  return .node .typeLiteral (← spanFrom start) members

/-- A brace opens a mapped type. -/
def opensMappedType : Parse Bool :=
  lookAhead do
    bump
    if ← eatBinary "+" <||> eatBinary "-" then return ← isWord "readonly"
    if ← isWord "readonly" then bump
    if !(← isPunct .leftBracket) then return false
    bump
    if !(← isBindingName) then return false
    bump
    isWord "in"

/-- A modifier of a mapped type, which a sign can stand before. -/
def mappedModifier (t : Token) : Parse (Option String) := do
  for sign in ["+", "-"] do
    if ← eatBinary sign then
      expect t
      return some sign
  if ← eat t then return some "" else return none

def mappedType (r : Rules) : Parse Tree := do
  let start ← position
  expectPunct .leftBrace
  let isReadonly ← mappedModifier (.word "readonly")
  expectPunct .leftBracket
  let nameStart ← position
  let name ← identName
  let constraint ← typeAfter r (.word "in")
  let parameter := Tree.node (.typeParameter false false false) (← spanFrom nameStart)
    [name, constraint, .absent]
  let key ← if ← eatWord "as" then r.type_ else pure .absent
  expectPunct .rightBracket
  let isOptional ← mappedModifier (.punct .question)
  let t ← typeAfter? r (.punct .colon)
  expectSemicolon
  expectPunct .rightBrace
  return .node (.mappedType isReadonly isOptional) (← spanFrom start) [parameter, key, t]

/-- The label of an element of a tuple, if there is one. -/
def tupleLabel? : Parse (Option Tree) :=
  attempt do
    let start ← position
    let dots ← if ← eatPunct .ellipsis then some <$> spanFrom start else pure none
    let name ← identName
    let name ←
      if ← eatPunct .question then
        let span : Span := ⟨name.span.lo, (← get).last.hi⟩
        pure (Tree.node (.ident (name.name?.getD "") 0 true) span [])
      else pure name
    expectPunct .colon
    let label := bindingIdentNode name
    match dots with
    | some dots => return some (.node (.restPattern dots) (← spanFrom start) [label, .absent])
    | none => return some label

def tupleElement (r : Rules) : Parse Tree := do
  let start ← position
  let label := Tree.ofOption (← tupleLabel?)
  if ← eatPunct .ellipsis then
    let t ← r.type_
    let span ← spanFrom start
    return .node .tupleElement span [label, .node .restType span [t]]
  let t ← r.type_
  if ← eatPunct .question then
    let span ← spanFrom start
    return .node .tupleElement span [label, .node .optionalType span [t]]
  return .node .tupleElement (← spanFrom start) [label, t]

def tupleType (r : Rules) : Parse Tree := do
  let start ← position
  expectPunct .leftBracket
  let items ← delimited .tuple false (tupleElement r)
  expectPunct .rightBracket
  let span ← spanFrom start
  let kinds := items.map fun e => (e.part 1).shape
  let isOptional (s : Shape) : Bool := match s with | .optionalType => true | _ => false
  let isRequired (s : Shape) : Bool :=
    match s with | .optionalType | .restType => false | _ => true
  if (kinds.dropWhile (!isOptional ·)).any isRequired then fail span .requiredAfterOptional
  return .node .tupleType span items

def importType (r : Rules) : Parse Tree := do
  let start ← position
  bump
  expectPunct .leftParen
  let _ ← placed?
  let argumentSpan ← tokenSpan
  let source ←
    match ← required with
    | .string .. => literal
    | _ =>
      bump
      report argumentSpan .importTypeLiteral
      pure (invalidAt argumentSpan)
  expectPunct .rightParen
  let qualifier ← if ← eatPunct .dot then entityName false else pure .absent
  let types ← if ← isBinary "<" then typeArgumentsInType r else pure .absent
  return .node .importType (← spanFrom start) [source, qualifier, types]

def typeQuery (r : Rules) : Parse Tree := do
  let start ← position
  expectWord "typeof"
  let name ← if ← isWord "import" then importType r else entityName true
  let types ←
    if !(← afterBreak) && (← isBinary "<") then typeArgumentsInType r else pure .absent
  return .node .typeQuery (← spanFrom start) [name, types]

/-- What a test says about `this`. -/
def thisPredicate (r : Rules) (start : Nat) (asserts : Bool) (this : Tree) : Parse Tree := do
  let annotation ←
    if ← eatWord "is" then typeClause r false (← position) else pure .absent
  return .node (.typePredicate asserts) (← spanFrom start) [this, annotation]

def thisType : Parse Tree := do
  expectWord "this"
  return .node .thisType (← get).last []

def keywordTypes : List String :=
  ["void", "null", "any", "boolean", "bigint", "never", "number", "object", "string", "symbol",
   "unknown", "undefined", "intrinsic"]

/-- A type that begins with a word which is no operator. -/
def namedType (r : Rules) (w : String) : Parse Tree := do
  let start ← position
  if ← pure (w == "asserts") <&&> aheadIs (.word "this") then
    bump
    return ← thisPredicate r start true (← thisType)
  let qualified ← aheadIs (.punct .dot)
  if keywordTypes.contains w && !qualified then
    bump
    return .node (.keywordType w) (← spanFrom start) []
  typeReference r

/-- A type without brackets after it. -/
def primaryType (r : Rules) : Parse Tree := do
  let start ← position
  let other : Parse Tree :=
    unexpected <|
      "an identifier, void, yield, null, await, break, a string literal, a numeric literal, " ++
        "true, false, `, -, import, this, typeof, \x7b, [, ("
  match ← required with
  | .word w =>
    if isPlainWord w || ["void", "yield", "null", "await", "break"].contains w then namedType r w
    else if w = "true" || w = "false" then
      return .node .literalType (← spanFrom start) [← literal]
    else if w = "import" then importType r
    else if w = "this" then
      let this ← thisType
      if !(← afterBreak) && (← isWord "is") then thisPredicate r start false this
      else return this
    else if w = "typeof" then typeQuery r
    else other
  | .string .. | .number .. | .bigint .. =>
    let l ← literal
    return .node .literalType (← spanFrom start) [l]
  | .punct .backquote =>
    bump
    let (types, stretches) ← templateParts r.type_ false
    expectPunct .backquote
    let span ← spanFrom start
    let template := Tree.node .templateType span [.list types, .list stretches]
    return .node .literalType span [template]
  | .binary "-" =>
    bump
    match ← required with
    | .number .. | .bigint .. => pure ()
    | _ => unexpected "numeric literal or bigint literal"
    let l ← literal
    let negative : Shape :=
      match l.shape with
      | .numberLit raw => .numberLit ("-" ++ raw)
      | .bigintLit raw => .bigintLit ("-" ++ raw)
      | shape => shape
    return .node .literalType (← spanFrom start) [.node negative l.span l.parts]
  | .punct .leftBrace => if ← opensMappedType then mappedType r else typeLiteral r
  | .punct .leftBracket => tupleType r
  | .punct .leftParen =>
    expectPunct .leftParen
    let t ← r.type_
    expectPunct .rightParen
    return .node .parenType (← spanFrom start) [t]
  | _ => other

/-- A type with the brackets after it. -/
def arrayType (r : Rules) : Parse Tree := do
  let first ← primaryType r
  iterate first fun t => do
    if ← afterBreak <||> not <$> eatPunct .leftBracket then return .done t
    if ← eatPunct .rightBracket then
      return .again (.node .arrayType (← spanFrom t.span.lo) [t])
    let index ← r.type_
    expectPunct .rightBracket
    return .again (.node .indexedType (← spanFrom t.span.lo) [t, index])

/-! ## Operators on types -/

/-- Types joined by an operator, which can also stand before the first. -/
def joinedType (shape : Shape) (op : String) (one : Parse Tree) : Parse Tree := do
  let start ← position
  let _ ← eatBinary op
  let first ← one
  if !(← isBinary op) then return first
  let items ← iterate [first] fun items => do
    if ← eatBinary op then return .again ((← one) :: items) else return .done items.reverse
  return .node shape (← spanFrom start) items

def unionType (r : Rules) : Parse Tree :=
  joinedType .unionType "|" (joinedType .intersectionType "&" r.operatorType)

/-- A parameter was passed in which a function type could begin. -/
def skipParameterStart (r : Rules) : Parse Bool := do
  let _ ← eatModifier
  if (← isBindingName) || (← isWord "this") then
    bump
    return true
  if ← isAny [.punct .leftBrace, .punct .leftBracket] then
    try
      let _ ← r.pattern
      return true
    catch
      | .failure _ => return false
      | stop => throw stop
  return false

/-- A function type begins here. -/
def startsFunctionType (r : Rules) : Parse Bool := do
  if ← isBinary "<" then return true
  if !(← isPunct .leftParen) then return false
  lookAhead do
    bump
    if ← isAny [.punct .rightParen, .punct .ellipsis] then return true
    if ← skipParameterStart r then
      if ← isAny [.punct .colon, .punct .comma, .punct .question, .assign "="] then return true
      if ← eatPunct .rightParen then return ← isPunct .arrow
    return false

def functionType (r : Rules) (constructs : Bool) : Parse Tree := do
  let start ← position
  let isAbstract ← if constructs then eatWord "abstract" else pure false
  if constructs then expectWord "new"
  let types ← typeParameters? r false true
  expectPunct .leftParen
  let items ← signatureParameters r
  let result ← resultAnnotation r (.punct .arrow)
  let shape := if constructs then Shape.constructorType isAbstract else .functionType
  return .node shape (← spanFrom start) [items, types, result]

def nonConditionalType (r : Rules) : Parse Tree := do
  if ← startsFunctionType r then return ← functionType r false
  if ← isWord "abstract" <&&> aheadIs (.word "new") then return ← functionType r true
  if ← isWord "new" then return ← functionType r true
  unionType r

def inferType (r : Rules) : Parse Tree := do
  let start ← position
  expectWord "infer"
  let name ← identName
  let constraint ← attempt do
    expectWord "extends"
    let c ← nonConditionalType r
    if (← context).noConditionalTypes || !(← isPunct .question) then return some c
    else return none
  let parameter := Tree.node (.typeParameter false false false) name.span
    [name, .ofOption constraint, .absent]
  return .node .inferType (← spanFrom start) [parameter]

/-- A type with the operators before it. -/
def operatorType (r : Rules) : Parse Tree := do
  for op in ["keyof", "unique", "readonly"] do
    if ← isWord op then
      let start ← position
      bump
      let t ← r.operatorType
      return .node (.operatorType op) (← spanFrom start) [t]
  if ← isWord "infer" then inferType r
  else arrayType r

/-- Any type. -/
def type (r : Rules) : Parse Tree :=
  within (fun c => { c with noConditionalTypes := false }) do
    let start ← position
    let check ← nonConditionalType r
    if ← afterBreak <||> not <$> eatWord "extends" then return check
    let bound ←
      within (fun c => { c with noConditionalTypes := true }) (nonConditionalType r)
    expectPunct .question
    let yes ← r.type_
    expectPunct .colon
    let no ← r.type_
    return .node .conditionalType (← spanFrom start) [check, bound, yes, no]

/-- A type in angle brackets before an expression. -/
def typeAssertion (r : Rules) (start : Nat) : Parse Tree := do
  let t ← inType r.type_
  expect (.binary ">")
  let e ← r.unary
  return .node .typeAssertion (← spanFrom start) [e, t]

/-! ## Declarations -/

/-- A name with type arguments after `extends` or `implements`. -/
def heritage (r : Rules) : Parse Tree := do
  let start ← position
  let name ← identName
  let e ← r.subscripts name true true
  match e with
  | .node .instantiation span [inner, types] => return .node .heritage span [inner, types]
  | _ =>
    match e.shape with
    | .ident .. | .member => pure ()
    | _ => report (← spanFrom start) .notTypeName
    let types ← if ← isBinary "<" then typeArguments r else pure .absent
    return .node .heritage (← spanFrom start) [e, types]

def heritageList (r : Rules) : Parse (List Tree) := delimited .heritage false (heritage r)

/-- An interface, from its name on. -/
def interfaceDecl (r : Rules) (start : Nat) : Parse Tree := do
  let name ← identName
  let taken :=
    ["string", "null", "number", "object", "any", "unknown", "boolean", "bigint", "symbol",
     "void", "never", "intrinsic"]
  if taken.contains (name.name?.getD "") then report name.span .invalidInterfaceName
  let types ← typeParameters? r true false
  let bases ← if ← eatWord "extends" then heritageList r else pure []
  if ← isWord "extends" then
    report (← tokenSpan) .severalExtends
    iterate () fun _ => do
      if (← atEnd) || (← isPunct .leftBrace) then return .done ()
      bump
      return .again ()
  let bodyStart ← position
  let members ← inType (typeMembers r)
  let body := Tree.node .interfaceBody (← spanFrom bodyStart) members
  return .node (.interfaceDecl false) (← spanFrom start) [name, types, .list bases, body]

/-- A type alias, from its name on. -/
def typeAliasDecl (r : Rules) (start : Nat) : Parse Tree := do
  let name ← identName
  let types ← typeParameters? r true false
  let t ← typeAfter r (.assign "=")
  expectSemicolon
  return .node (.typeAliasDecl false) (← spanFrom start) [name, types, t]

def enumMember (r : Rules) : Parse Tree := do
  let start ← position
  let key ←
    match ← required with
    | .string .. => literal
    | .number .. =>
      let l ← literal
      report l.span .numericEnumMember
      pure l
    | .punct .leftBracket =>
      bump
      let _ ← expression r
      report (← spanFrom start) .computedEnumMember
      expectPunct .rightBracket
      pure (identNode "" (← spanFrom start))
    | _ => identName
  let init ←
    if ← eatAssign then r.assignment
    else if (← isPunct .comma) || (← isPunct .rightBrace) then pure .absent
    else
      let here ← position
      bump
      modify fun s =>
        { s with current := some ⟨.punct .comma, s.last, false, []⟩ }
      report ⟨here, here⟩ .expectedSemicolon
      pure .absent
  return .node .enumMember (← spanFrom start) [key, init]

/-- An enumeration, from its name on. -/
def enumDecl (r : Rules) (start : Nat) (isConst : Bool) : Parse Tree := do
  let name ← identName
  expectPunct .leftBrace
  let members ← delimited .members true (enumMember r)
  expectPunct .rightBrace
  return .node (.enumDecl false isConst) (← spanFrom start) [name, .list members]

/-- The name of a module behind `require`, or of a namespace. -/
def moduleReference : Parse Tree := do
  if ← isWord "require" <&&> aheadIs (.punct .leftParen) then
    let start ← position
    expectWord "require"
    expectPunct .leftParen
    match ← required with
    | .string .. => pure ()
    | _ => unexpected "a string literal"
    let source ← literal
    expectPunct .rightParen
    return .node .externalReference (← spanFrom start) [source]
  else entityName false

/-- A name for a module or for a part of a namespace, from the equals sign on. -/
def importEquals (start : Nat) (name : Tree) (isExport typeOnly : Bool) : Parse Tree := do
  expect (.assign "=")
  let reference ← moduleReference
  expectSemicolon
  return .node (.importEquals isExport typeOnly) (← spanFrom start) [name, reference]

end RouteManifest.Script.Grammar
