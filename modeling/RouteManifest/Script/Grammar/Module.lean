import RouteManifest.Script.Grammar.Statement

/-!
# Imports, exports and modules

The items that can stand only at the top level, and whole modules. This is also where the rules
that refer to each other are tied together.
-/

namespace RouteManifest.Script.Grammar

/-- The text that names another module. -/
def sourceText : Parse Tree := do
  match ← required with
  | .string .. => literal
  | _ => unexpected "a string literal"

/-- The attributes of an import, which plain scripts do not have. -/
def attributes? (r : Rules) : Parse Tree := do
  let _ ← sound?
  if !(← isTypescript) || (← afterBreak) then return .absent
  if ← eatWord "assert" <||> eatWord "with" then objectLiteral r else return .absent

/-- A name that an import binds. -/
def importedBinding : Parse Tree :=
  within (fun c => { c with inAsync := false, inGenerator := false }) do
    return (← bindingIdent).part 0

/-- The word `type` was read in a list of names: what it and the words after it stand for. The
answer is the node if it is complete, or else the name that goes on and whether it is a type. -/
def typedName (start : Nat) (word : Tree) (bind : Parse Tree)
    (make : Bool → Span → Tree → Tree → Tree) (checkName : Tree → Parse Unit)
    (inTypeList : Parse Unit) : Parse (Tree ⊕ Tree) := do
  let name ← identName
  if name.name? ≠ some "as" then
    inTypeList
    return .inr name
  if !(← isAnyWord) then
    checkName name
    inTypeList
    return .inl (make true (← spanFrom start) name .absent)
  let second ← bind
  let span : Span := ⟨start, word.span.hi⟩
  if second.name? = some "as" && (← isAnyWord) then
    let last ← bind
    inTypeList
    return .inl (make true span name last)
  return .inl (make false span word second)

/-- A name is free to be bound. -/
def checkImportable (name : Tree) : Parse Unit := do
  if Token.isReserved (name.name?.getD "") then fail name.span .reservedImport

def importSpecifier (typeOnly : Bool) : Parse Tree := do
  let start ← position
  let imported ← moduleExportName
  let bind : Parse Tree := do return (← bindingIdent).part 0
  match imported.shape with
  | .stringLit value _ =>
    if ← eatWord "as" then
      let target ← bind
      return .node (.importNamed false) ⟨start, target.span.hi⟩ [target, imported]
    fail imported.span (.stringImportBinding value)
  | _ =>
    let make (isType : Bool) (span : Span) (name target : Tree) : Tree :=
      if target.isAbsent then .node (.importNamed isType) span [name, .absent]
      else .node (.importNamed isType) span [target, name]
    let found ←
      if (← isTypescript) && imported.name? = some "type" && (← isAnyWord) then
        typedName start imported bind make checkImportable
          (if typeOnly then report imported.span .typeInTypeImport else return ())
      else pure (.inr imported)
    let isType := match found with | .inr name => name.span ≠ imported.span | .inl _ => false
    match found with
    | .inl node => return node
    | .inr name =>
      if ← eatWord "as" then
        let target ← bind
        return .node (.importNamed isType) ⟨start, target.span.hi⟩ [target, name]
      checkImportable name
      return .node (.importNamed isType) (← spanFrom start) [name, .absent]

/-- The names in braces of an import or an export. -/
def nameList (one : Parse Tree) : Parse (List Tree) := do
  let items ← iterate ([] : List Tree) fun items => do
    if (← atEnd) || (← isPunct .rightBrace) then return .done items.reverse
    let items := (← one) :: items
    if ← isPunct .rightBrace then return .done items.reverse
    expectPunct .comma
    return .again items
  expectPunct .rightBrace
  return items

/-- The name of a default import, after the word `type` if it only imports a type. -/
def importHead : Parse (Tree × Bool) := do
  let first ← importedBinding
  if !(← isTypescript) || first.name? ≠ some "type" then return (first, false)
  if ← isAny [.binary "*", .punct .leftBrace] then return (.absent, true)
  if ← isBindingName then
    if ← not <$> isWord "from" <||> aheadIs (.word "from") then
      return (← importedBinding, true)
    if ← aheadIs (.assign "=") then return (← identName, true)
  return (first, false)

def importDeclaration (r : Rules) : Parse Tree := do
  let start ← position
  match ← ahead? with
  | some (.punct .dot) | some (.punct .leftParen) =>
    let e ← expression r
    let _ ← eatSemicolon
    return .node .exprStmt (← spanFrom start) [e]
  | _ => pure ()
  expectWord "import"
  match ← sound? with
  | some (.string ..) =>
    let source ← literal
    let marks ← attributes? r
    expectSemicolon
    return .node (.importDecl false) (← spanFrom start) [.list [], source, marks]
  | _ => pure ()
  let (name, typeOnly) ← if ← isBindingName then importHead else pure (.absent, false)
  let defaults ←
    if name.isAbsent then pure []
    else
      if (← isTypescript) && (← is (.assign "=")) then
        return ← importEquals start name false typeOnly
      if !(← isWord "from") then expectPunct .comma
      pure [Tree.node .importDefault name.span [name]]
  let listStart ← position
  let others ←
    if ← eatBinary "*" then
      expectWord "as"
      let target ← importedBinding
      pure [Tree.node .importStar (← spanFrom listStart) [target]]
    else if ← eatPunct .leftBrace then nameList (importSpecifier typeOnly)
    else pure []
  expectWord "from"
  let source ← sourceText
  let marks ← attributes? r
  expectSemicolon
  return .node (.importDecl typeOnly) (← spanFrom start)
    [.list (defaults ++ others), source, marks]

def exportSpecifier (typeOnly : Bool) : Parse Tree := do
  let start ← position
  let named ← moduleExportName
  let make (isType : Bool) (span : Span) (name target : Tree) : Tree :=
    .node (.exportSpecifier isType) span [name, target]
  let found ←
    if (← isTypescript) && named.name? = some "type" && (← isAnyWord) then
      typedName start named identName make (fun _ => return ())
        (if typeOnly then report named.span .typeInTypeExport else return ())
    else pure (.inr named)
  let isType := match found with | .inr name => name.span ≠ named.span | .inl _ => false
  match found with
  | .inl node => return node
  | .inr name =>
    let target ← if ← eatWord "as" then moduleExportName else pure .absent
    return make isType (← spanFrom start) name target

/-- The module that an export names, with its attributes and the end of the statement. -/
def fromClause (r : Rules) : Parse (Tree × Tree) := do
  expectWord "from"
  let source ← sourceText
  let marks ← attributes? r
  let _ ← eatSemicolon
  return (source, marks)

/-- Reports what only another module could export. -/
def checkLocalExport (specifier : Tree) : Parse Unit := do
  let name := specifier.part 0
  match name.shape with
  | .ident w _ _ => if Token.isReserved w then report name.span (.exportWithoutFrom w)
  | .stringLit .. => report name.span .stringExportBinding
  | _ => return ()

/-- An export of names: all of another module, or a list. -/
def exportNames (r : Rules) (start : Nat) (typeOnly : Bool) : Parse Tree := do
  if ← isBinary "*" then
    if !(← aheadIs (.word "as")) then
      bump
      let (source, marks) ← fromClause r
      return .node (.exportAll typeOnly) (← spanFrom start) [source, marks]
    let starStart ← position
    bump
    expectWord "as"
    let name ← moduleExportName
    let star := Tree.node .exportStarAs (← spanFrom starStart) [name]
    if !(← isWord "from") then expectWord "from"
    let (source, marks) ← fromClause r
    return .node (.exportNamed typeOnly) (← spanFrom start) [.list [star], source, marks]
  expectPunct .leftBrace
  let names ← nameList (exportSpecifier typeOnly)
  let (source, marks) ←
    if ← isWord "from" then fromClause r
    else
      for n in names do checkLocalExport n
      let _ ← eatSemicolon
      pure (.absent, .absent)
  return .node (.exportNamed typeOnly) (← spanFrom start) [.list names, source, marks]

/-- Decorators after the word `export`, where there may be none before it as well. -/
def innerDecorators (r : Rules) (marks : List Tree) : Parse (List Tree) := do
  if !(← isPunct .atSign) then return marks
  let start ← position
  let inner ← decorators r false
  if !marks.isEmpty then fail (← spanFrom start) .decoratorsTwice
  return if inner.isEmpty then marks else inner

def exportDefault (r : Rules) (start : Nat) (marks : List Tree) : Parse Tree := do
  let marks ← innerDecorators r marks
  if ← isTypescript then
    if ← isWord "abstract" <&&> aheadIs (.word "class") <&&> not <$> breakAhead then
      let classStart ← position
      bump
      return ← defaultClass r start classStart marks true
    if ← isWord "abstract" <&&> aheadIs (.word "interface") then
      report (← tokenSpan) .abstractConstructor
      bump
    if ← isWord "interface" then
      let interfaceStart ← position
      bump
      let decl ← interfaceDecl r interfaceStart
      return .node .exportDefaultDecl (← spanFrom start) [decl]
  if ← isWord "class" then
    return ← defaultClass r start (← position) marks false
  if ← isWord "async" <&&> aheadIs (.word "function") <&&> not <$> breakAhead then
    return ← defaultFunction r start marks true
  if ← isWord "function" then return ← defaultFunction r start marks false
  let e ← withIn r.assignment
  expectSemicolon
  return .node .exportDefaultExpr (← spanFrom start) [e]

/-- A declaration that is exported, if one follows. -/
def exportedDeclaration? (r : Rules) (start : Nat) (marks : List Tree) : Parse (Option Tree) := do
  if ← isWord "class" then
    return some (← classDecl r start (← position) marks false)
  if ← isWord "async" <&&> aheadIs (.word "function") <&&> not <$> breakAhead then
    return some (← functionDecl r marks true)
  if ← isWord "function" then return some (← functionDecl r marks false)
  if ← isTypescript <&&> isWord "const" <&&> aheadIs (.word "enum") then
    let enumStart ← position
    bump
    let _ ← required
    bump
    return some (← enumDecl r enumStart true)
  if ← isAny [.word "var", .word "const"] then return some (← variableDecl r false)
  if ← isWord "let" then
    if ← declaresAhead then return some (← variableDecl r false)
  return none

/-- Exports that only typed modules have. -/
def typedExport? (r : Rules) (start : Nat) (marks : List Tree) : Parse (Option Tree) := do
  let afterStart ← position
  let wrap (decl : Tree) : Parse Tree := do
    return .node .exportDecl (← spanFrom start) [decl]
  if ← eatWord "declare" then
    if let some decl ← ambientDeclaration? r afterStart marks then return some (← wrap decl)
  match ← current? with
  | some (.word w) =>
    let here ← position
    if let some decl ← attempt (wordDeclaration r here marks w true) then
      return some (← wrap decl)
  | _ => pure ()
  if ← eatWord "import" then
    let typeOnly ← if ← isWord "type" then aheadIsAnyWord else pure false
    if typeOnly then bump
    let name ← identName
    return some (← importEquals start name true typeOnly)
  if ← eatAssign then
    let e ← expression r
    expectSemicolon
    return some (.node .exportAssignment (← spanFrom start) [e])
  if ← eatWord "as" then
    expectWord "namespace"
    let name ← ident false
    expectSemicolon
    return some (.node .namespaceExport (← spanFrom start) [name])
  return none

def exportDeclaration (r : Rules) (marks : List Tree) : Parse Tree := do
  let start ← position
  bump
  let _ ← placed?
  if ← isTypescript then
    if let some t ← typedExport? r start marks then return t
  let typeOnly ← if ← isTypescript then eatWord "type" else pure false
  if !typeOnly then
    if ← eatWord "default" then return ← exportDefault r start marks
  let marks ← innerDecorators r marks
  if !typeOnly then
    if let some decl ← exportedDeclaration? r start marks then
      return .node .exportDecl (← spanFrom start) [decl]
  exportNames r start typeOnly

/-- Any statement, or an item of a module where those are in order. -/
def statement (r : Rules) (declarations topLevel : Bool) : Parse Tree := do
  let start ← position
  let marks ← decorators r true
  if ← isWord "import" then
    if topLevel then return ← importDeclaration r
    match ← ahead? with
    | some (.punct .leftParen) | some (.punct .dot) =>
      let e ← expression r
      let _ ← eatSemicolon
      return .node .exprStmt (← spanFrom start) [e]
    | _ => failHere .importExportOutside
  if ← isWord "export" then
    if topLevel then return ← exportDeclaration r marks
    failHere .importExportOutside
  within (fun c => { c with expectsColon := false, usingAllowed := true })
    (statementAfterMarks r start declarations topLevel marks)

/-- The items of a module up to the end of the text. -/
def moduleBody (r : Rules) : Parse Tree := do
  let start ← position
  let shebang ←
    match ← sound? with
    | some (.shebang text) =>
      bump
      pure (some text)
    | _ => pure none
  let items ← iterate ([] : List Tree) fun items => do
    if (← sound?).isNone then return .done items.reverse
    return .again ((← r.statement true true) :: items)
  return .node (.moduleBody shebang) (← spanFrom start) items

/-- The rules, each of which can be entered only so many times inside one another. -/
def rules : (fuel : Nat) → Rules
  | 0 =>
    let stop {α : Type} : Parse α := failHere .unexpectedEnd
    { assignment := stop, plainAssignment := stop, unary := stop
      binaryTail := fun _ _ => stop, subscripts := fun _ _ _ => stop
      newCallee := fun _ => stop, leftHandSide := stop, statement := fun _ _ => stop
      pattern := stop, type_ := stop, operatorType := stop, namespaceDecl := fun _ => stop
      tagElement := fun _ => stop, ifStatement := stop }
  | n + 1 =>
    { assignment := fun s => assignment (rules n) s
      plainAssignment := fun s => plainAssignment (rules n) s
      unary := fun s => unary (rules n) s
      binaryTail := fun left p s => binaryTail (rules n) left p s
      subscripts := fun e a b s => subscripts (rules n) e a b s
      newCallee := fun isNew s => newOrMember (rules n) isNew s
      leftHandSide := fun s => leftHandSide (rules n) s
      statement := fun a b s => statement (rules n) a b s
      pattern := fun s => bindingPattern (rules n) s
      type_ := fun s => type (rules n) s
      operatorType := fun s => operatorType (rules n) s
      namespaceDecl := fun start s => namespaceDecl (rules n) start s
      tagElement := fun start s => tagElementAt (rules n) start s
      ifStatement := fun s => ifStatement (rules n) s }

/-- Between two characters of a text, so many rules can be entered at most. -/
def rulesPerCharacter : Nat := 24

def rulesFor (text : List Char) : Rules := rules (rulesPerCharacter * (text.length + 2))

end RouteManifest.Script.Grammar
