import RouteManifest.Script.Grammar.Function

/-!
# Classes

Classes with their bases, and the members of classes with their modifiers.
-/

namespace RouteManifest.Script.Grammar

/-- A key of a class member, possibly private. -/
def memberName (r : Rules) : Parse Tree := do
  if ← isPunct .hash then
    let name ← privateName
    if (name.part 0).name? = some "constructor" then report name.span .privateConstructor
    return name
  else propertyKey r

def isPrivate (key : Tree) : Bool := match key.shape with | .privateName => true | _ => false

def namesConstructor (key : Tree) : Bool :=
  match key.shape with
  | .ident w _ _ => w = "constructor"
  | .stringLit value _ => value = "constructor"
  | _ => false

/-- A method follows the key before it. -/
def isMethodNext : Parse Bool := do
  if ← isPunct .leftParen then return true
  if ← isTypescript then isAny [.binary "<", .tagStart] else return false

/-- A field ends or goes on after the key before it; a line break counts if `asi`. -/
def isFieldNext (asi : Bool) : Parse Bool := do
  if (← isTypescript) && (← isAny [.punct .bang, .punct .colon]) then return true
  if ← isAny [.assign "=", .punct .rightBrace] then return true
  if asi then isStatementEnd else isPunct .semicolon

/-- What is known of a member before its key. -/
structure MemberHead where
  start : Nat
  marks : List Tree
  modifiers : Modifiers
  isAccessor : Bool

/-- A method from its parameters on. -/
def classMethod (r : Rules) (head : MemberHead) (key : Tree) (kind : MethodKind)
    (flags : FunctionFlags) (list : Parse (List Tree)) : Parse Tree := do
  let f ← within (fun c => { c with inField := false })
    (functionRest r head.marks head.start list flags)
  let span ← spanFrom head.start
  if isPrivate key then
    if head.modifiers.access.isSome then
      report ⟨span.lo, key.span.hi⟩ .accessOnPrivate
  else if head.modifiers.isAbstract && (f.part 2).isPresent then report span .abstractBody
  return .node (.methodMember kind { head.modifiers with isReadonly := false, isDeclare := false })
    span [key, f]

/-- A field from after its key. -/
def classField (r : Rules) (head : MemberHead) (key : Tree) : Parse Tree := do
  let m := head.modifiers
  if namesConstructor key then fail key.span .fieldNamedConstructor
  if isPrivate key then
    if m.isDeclare then report key.span (.modifierOnPrivate "declare")
    if m.isAbstract then report key.span (.modifierOnPrivate "abstract")
  let isDefinite ←
    if (← isTypescript) && !m.isOptional then eatPunct .bang else pure false
  let annotation ← typeClause? r
  within (fun c => { c with includesIn := true, inField := true }) do
    let value ← if ← eatAssign then r.assignment else pure .absent
    if !(← eatSemicolon) then report (← tokenSpan) .expectedSemicolon
    let shape : Shape :=
      if head.isAccessor then .accessorMember m else .fieldMember { m with isDefinite }
    return .node shape (← spanFrom head.start) [key, value, annotation, .list head.marks]

/-- A member whose key is a word that was taken for a modifier, if it is one. -/
def memberNamed? (r : Rules) (head : MemberHead) (word : Span → Tree) (span : Span)
    (asi braceEnds : Bool) : Parse (Option Tree) := do
  let key := word span
  if ← isMethodNext then
    let m := head.modifiers
    let head := { head with modifiers := { m with isDeclare := false, isStatic := false } }
    return some (← classMethod r head key .method ⟨false, false⟩ (parameters r))
  if ← isFieldNext asi <||> isTypescript <&&> isPunct .question then
    if braceEnds && (← isPunct .leftBrace) then return none
    let isOptional ← if ← isTypescript then eatPunct .question else pure false
    return some (← classField r { head with modifiers := { head.modifiers with isOptional } } key)
  return none

/-- The constructor from its type parameters on. -/
def classConstructor (r : Rules) (head : MemberHead) (key : Tree) (modifierSpan : Option Span) :
    Parse Tree := do
  let m := head.modifiers
  if (← isTypescript) && m.isOverride then
    report (← spanFrom head.start) (.modifierOnConstructor "override")
  if (← isTypescript) && (← isBinary "<") then
    let start ← position
    if ← aheadIs (.binary ">") then
      bump
      let inner ← position
      bump
      report (← spanFrom start) .emptyTypeParameters
      report (← spanFrom inner) .constructorTypeParameters
    else
      let types ← typeParameters r false true
      for p in types.parts do report p.span .constructorTypeParameters
  expectPunct .leftParen
  let items ← constructorParameters r
  expectPunct .rightParen
  if (← isTypescript) && (← isPunct .colon) then
    let annotation ← typeClause r true (← position)
    report annotation.span .constructorResultType
  if let some span := modifierSpan then
    if m.isAbstract then report span .abstractConstructor
  let targets := parameterTargets items
  let isProperty (p : Tree) : Bool :=
    match p.shape with | .parameterProperty _ => true | _ => false
  let simple := items.all fun p => isProperty p || isBindingIdent (p.part 1)
  let body ← functionBody r ⟨false, false⟩ simple
  if (← isTypescript) && body.isAbsent then checkDefaults targets
  return .node (.constructor m) (← spanFrom head.start) [key, .list items, body]

def staticBlock (r : Rules) (start : Nat) : Parse Tree := do
  let body ← within
    (fun c => { c with inStaticBlock := true, inField := true, usingAllowed := true }) (block r)
  return .node .staticBlock (← spanFrom start) [body]

/-- The modifiers that can stand in any number before a key. -/
def memberModifiers (head : MemberHead) : Parse (Modifiers × Option Span × Option Span) :=
  iterate (head.modifiers, none, none) fun (m, modifierSpan, readonlySpan) => do
    match ← modifier? ["abstract", "readonly", "override", "static"] true with
    | none => return .done (m, modifierSpan, readonlySpan)
    | some w =>
      let span := (← get).last
      if w = "abstract" then
        if m.isAbstract then report span (.modifierSeen w)
        else if m.isOverride then report span (.modifierOrder w "override")
        else if m.isReadonly then report span (.modifierOrder w "readonly")
        return .again ({ m with isAbstract := true }, some span, readonlySpan)
      else if w = "override" then
        if m.isOverride then report span (.modifierSeen w)
        else if m.isReadonly then report span (.modifierOrder w "readonly")
        else if m.isDeclare then report span (.modifierConflict w "declare")
        else if !(← context).hasBase then report span .overrideWithoutBase
        return .again ({ m with isOverride := true }, some span, readonlySpan)
      else if w = "readonly" then
        if m.isReadonly then
          report span (.modifierSeen w)
          return .again (m, some span, readonlySpan)
        return .again ({ m with isReadonly := true }, some span, some span)
      else
        if m.isOverride then report span (.modifierOrder w "override")
        return .again ({ m with isStatic := true }, some span, readonlySpan)

/-- A member from its modifiers other than access and `declare` on. -/
def memberFromModifiers (r : Rules) (head : MemberHead) (declareSpan staticSpan : Option Span) :
    Parse Tree := do
  let start := head.start
  let (m, modifierSpan, readonlySpan) ← memberModifiers head
  let isAccessor ←
    if head.isAccessor then pure true
    else if (← isTypescript) && !m.isReadonly && (← isWord "accessor") then
      if ← aheadIs (.punct .leftParen) then pure false else eatWord "accessor"
    else pure false
  if m.isStatic && (← isPunct .leftBrace) then
    if let some span := declareSpan then report span .modifiersNotAllowed
    if m.access.isSome then report (← tokenSpan) .modifiersNotAllowed
    return ← staticBlock r start
  if ← isWord "static" <&&> aheadIs (.punct .leftBrace) then
    if let some span := modifierSpan then report span .modifiersNotAllowed
    if let some span := staticSpan then report span .modifiersNotAllowed
    bump
    return ← staticBlock r start
  if (← isTypescript) && !m.isAbstract && !m.isOverride && m.access.isNone then
    if let some member ← indexSignature? r start m.isReadonly m.isStatic then return member
  let methodHead (m : Modifiers) : MemberHead :=
    { head with modifiers := { m with isStatic := staticSpan.isSome } }
  if ← eatBinary "*" then
    let key ← memberName r
    if m.isReadonly then report (← spanFrom start) .readonlyMethod
    if namesConstructor key then report (← spanFrom start) .generatorConstructor
    return ← classMethod r (methodHead m) key .method ⟨false, true⟩ (parameters r)
  let key ←
    match readonlySpan with
    | some span =>
      if ← isAny [.punct .bang, .punct .colon] then pure (identNode "readonly" span)
      else memberName r
    | none => memberName r
  let isOptional ← if ← isTypescript then eatPunct .question else pure false
  let m := { m with isOptional }
  if ← isMethodNext then
    if let some span := declareSpan then report span .declareModifier
    if m.isReadonly then fail (← spanFrom start) .readonlyMethod
    if namesConstructor key && !m.isStatic then
      return ← classConstructor r { head with modifiers := m } key modifierSpan
    return ← classMethod r (methodHead m) key .method ⟨false, false⟩ (parameters r)
  let nextLineGenerator := (← afterBreak) && (← isBinary "*")
  let accessorWord : Option String ←
    match key.name? with
    | some w =>
      if ← pure ((w == "get" || w == "set") && !nextLineGenerator)
          <&&> not <$> isFieldNext false then
        pure (some w)
      else pure none
    | none => pure none
  if ← pure accessorWord.isNone <&&> isFieldNext true then
    return ← classField r { head with modifiers := m, isAccessor } key
  if key.name? = some "async" && !(← afterBreak) then
    let isOverride := (← modifier? ["override"] false).isSome
    if isOverride then report (← get).last (.modifierOrder "override" "async")
    let isGenerator ← eatBinary "*"
    let key ← memberName r
    if namesConstructor key then fail key.span .asyncConstructor
    if m.isReadonly then fail (← spanFrom start) .readonlyMethod
    let optionalHere ←
      if !m.isOptional && (← isTypescript) then eatPunct .question else pure false
    let m := { m with isOptional := m.isOptional || optionalHere
                      isOverride := m.isOverride || isOverride }
    return ← classMethod r (methodHead m) key .method ⟨true, isGenerator⟩ (parameters r)
  match accessorWord with
  | some w =>
    let keySpan := key.span
    let key ← memberName r
    if m.isReadonly then report keySpan .readonlyAccessor
    if namesConstructor key then report keySpan .accessorConstructor
    if w = "get" then
      classMethod r (methodHead m) key .getter ⟨false, false⟩ (getterParameters r keySpan)
    else classMethod r (methodHead m) key .setter ⟨false, false⟩ (setterParameters r keySpan)
  | none => unexpected "* for generator, private key, identifier or async"

/-- A member of a class. -/
def classMember (r : Rules) : Parse Tree := do
  let start ← position
  let marks ← decorators r false
  let declared ← if ← isTypescript then eatWord "declare" else pure false
  let access ← accessModifier?
  let declared ←
    if declared then pure true
    else if ← isTypescript then eatWord "declare" else pure false
  let head : MemberHead := ⟨start, marks, { Modifiers.none with access }, false⟩
  let declareSpan ← if declared then some <$> spanFrom start else pure none
  if declared then
    let wordSpan := (← get).last
    if let some member ← memberNamed? r head (identNode "declare") wordSpan true false then
      return member
  let head := { head with modifiers := { head.modifiers with isDeclare := declared } }
  let staticStart ← position
  let staticSpan ← if ← eatWord "static" then some <$> spanFrom staticStart else pure none
  if let some span := staticSpan then
    if let some member ← memberNamed? r head (identNode "static") span false true then
      return member
  let head := { head with modifiers := { head.modifiers with isStatic := staticSpan.isSome } }
  memberFromModifiers r head declareSpan staticSpan

/-- The members of a class up to its closing brace. -/
def classMembers (r : Rules) : Parse (List Tree) := do
  let (items, _) ← iterate (([], false) : List Tree × Bool) fun (items, hasConstructor) => do
    if (← atEnd) || (← isPunct .rightBrace) then return .done (items.reverse, hasConstructor)
    if ← eatPunct .semicolon then
      return .again (.node .emptyMember (← get).last [] :: items, hasConstructor)
    let member ← within (fun c => { c with directSuperAllowed := true, inClass := true })
      (classMember r)
    let mut hasConstructor := hasConstructor
    if !(← context).inDeclare then
      if let .node (.constructor _) span [_, _, body] := member then
        if body.isPresent then
          if hasConstructor then report span .duplicateConstructor
          hasConstructor := true
    return .again (member :: items, hasConstructor)
  return items

/-- The base of a class with its type arguments. -/
def baseClass (r : Rules) : Parse (Tree × Tree) := do
  let e ← r.leftHandSide
  match e with
  | .node .instantiation _ [inner, types] => return (inner, types)
  | _ =>
    if (← isTypescript) && (← isBinary "<") then return (e, ← typeArguments r)
    else return (e, .absent)

/-- A class from its keyword on: its name, and its body with all the rest. -/
def classFrom (r : Rules) (start : Nat) (marks : List Tree) (isAbstract nameNeeded : Bool) :
    Parse (Tree × Tree) := do
  expectWord "class"
  let name ← if nameNeeded then bindingIdent else bindingIdent?
  let name := if name.isAbsent then name else name.part 0
  if ← isTypescript then
    let taken :=
      ["string", "null", "number", "object", "any", "unknown", "boolean", "bigint", "symbol",
       "void", "never", "intrinsic"]
    if taken.contains (name.name?.getD "") then report name.span .invalidClassName
  let types ← if ← isTypescript then typeParameters? r true true else pure .absent
  let (base, baseTypes) ←
    if ← eatWord "extends" then
      let found ← baseClass r
      if ← isTypescript <&&> eatPunct .comma then
        for e in ← heritageList r do report e.span .severalBases
      pure found
    else pure (.absent, .absent)
  if ← eatWord "extends" then
    report (← get).last .duplicateExtends
    let _ ← baseClass r
  let interfaces ←
    if ← isTypescript <&&> eatWord "implements" then heritageList r else pure []
  if ← isTypescript <&&> eatWord "implements" then
    report (← get).last .duplicateImplements
    let _ ← heritageList r
  let (base, baseTypes) ←
    if ← isTypescript <&&> eatWord "extends" then
      report (← get).last .extendsAfterImplements
      let found ← baseClass r
      pure (if base.isAbsent then found else (base, baseTypes))
    else pure (base, baseTypes)
  expectPunct .leftBrace
  let members ← within (fun c => { c with hasBase := base.isPresent }) (classMembers r)
  if ← atEnd then report (← tokenSpan) (.expected "\x7d" "<eof>")
  else expectPunct .rightBrace
  let span ← spanFrom start
  if !isAbstract then
    for m in members do
      match m.shape with
      | .methodMember _ modifiers | .fieldMember modifiers =>
        if modifiers.isAbstract && !isPrivate (m.part 0) then report m.span .abstractOutside
      | _ => pure ()
  return (name, .node (.classBody isAbstract) span
    [.list marks, .list members, base, types, baseTypes, .list interfaces])

def classDecl (r : Rules) (start classStart : Nat) (marks : List Tree) (isAbstract : Bool) :
    Parse Tree := do
  let (name, body) ← classFrom r classStart marks isAbstract true
  return .node (.classDecl false) (← spanFrom start) [name, body]

def classExpr (r : Rules) (start : Nat) (marks : List Tree) : Parse Tree := do
  let (name, body) ← classFrom r start marks false false
  return .node .classExpr (← spanFrom start) [name, body]

/-- The class of a default export, which needs no name. -/
def defaultClass (r : Rules) (start classStart : Nat) (marks : List Tree) (isAbstract : Bool) :
    Parse Tree := do
  let (name, body) ← classFrom r classStart marks isAbstract false
  let span ← spanFrom start
  return .node .exportDefaultDecl span [.node .classExpr body.span [name, body]]

end RouteManifest.Script.Grammar
