import RouteManifest.Script.Grammar.Expression

/-!
# Statements

Statements and the declarations that can stand where a statement can.
-/

namespace RouteManifest.Script.Grammar

/-- A statement that is no declaration. -/
def subStatement (r : Rules) : Parse Tree := r.statement false false

/-- An expression in parentheses that is part of a statement. -/
def condition (r : Rules) : Parse Tree := do
  expectPunct .leftParen
  let e ← withIn (expression r)
  expectPunct .rightParen
  return e

/-- After `let`, the token shows that names are declared. -/
def followsLet : Token → Bool
  | .punct .leftBrace | .punct .leftBracket => true
  | .word w => ["let", "yield", "await"].contains w || isPlainWord w
  | _ => false

/-- What follows the word `let` shows that names are declared. -/
def declaresAhead : Parse Bool := do return ((← ahead?).map followsLet).getD false

/-! ## Variables -/

/-- A variable with its value. -/
def declarator (r : Rules) (inHead : Bool) (kind : String) : Parse Tree := do
  let start ← position
  let target ← r.pattern
  let isDefinite ←
    if (← isTypescript) && isBindingIdent target then eatPunct .bang else pure false
  let target ←
    if ← isTypescript then
      let annotation ← typeClause? r
      pure (if annotation.isPresent then target.setPart 1 annotation else target)
    else pure target
  let ended ← if inHead then isAny [.word "in", .word "of"] else pure false
  let init ←
    if ended then pure .absent
    else if ← eatAssign then r.assignment
    else
      if !(← context).inDeclare then
        if kind = "const" then report (← spanFrom start) .constWithoutInit
        else if !isBindingIdent target then fail (← spanFrom start) .patternWithoutInit
      pure .absent
  return .node (.declarator isDefinite) (← spanFrom start) [target, init]

/-- A comma stands where another variable should. -/
def trailingComma? (whole : Span) : Parse Bool := do
  if (← isPunct .semicolon) || (← atEnd) then
    let last := (← get).last
    report (if last = whole then ⟨last.hi, last.hi⟩ else last) .trailingComma
    return true
  else return false

/-- What follows a missing semicolon is passed up to the next one. -/
def recoverStatement (r : Rules) : Parse Unit := do
  report (← tokenSpan) .expectedSemicolon
  try let _ ← expression r
  catch
    | .failure _ => pure ()
    | stop => throw stop
  iterate () fun _ => do
    if ← eatSemicolon then return .done ()
    bump
    match ← current? with
    | some (.fault _) => return .done ()
    | _ => return .again ()

/-- A declaration of variables; `inHead` tells that it stands in the head of a loop. -/
def variableDecl (r : Rules) (inHead : Bool) : Parse Tree := do
  let start ← position
  let kind ← shown
  bump
  let wordSpan ← spanFrom start
  if (← isTypescript) && inHead then
    let isEmpty ←
      if ← isAny [.word "in", .word "of"] then
        lookAhead do
          bump
          let _ ← r.assignment
          expectPunct .rightParen
          return true
      else pure false
    if isEmpty then
      report ⟨wordSpan.hi, wordSpan.hi⟩ .emptyDeclarationList
      return .node (.variableDecl kind false) (← spanFrom start) []
  let withInHere := kind ≠ "var" || !inHead
  let one : Parse Tree :=
    within (fun c => { c with includesIn := c.includesIn || withInHere }) (declarator r inHead kind)
  let first ← one
  let items ← iterate [first] fun items => do
    if !(← eatPunct .comma) then return .done items.reverse
    if ← trailingComma? wordSpan then return .done items.reverse
    return .again ((← one) :: items)
  if !inHead then
    if !(← eatSemicolon) then recoverStatement r
  return .node (.variableDecl kind false) (← spanFrom start) items

/-- A declaration of resources, if one begins at the word `using`. -/
def usingDecl? (r : Rules) (start : Nat) (isAwait : Bool) : Parse (Option Tree) := do
  let _ ← sound?
  if ← breakAhead then return none
  match ← ahead? with
  | some (.word w) => if Token.isReserved w then return none
  | _ => return none
  bump
  let items ← iterate (([], true) : List Tree × Bool) fun (items, isFirst) => do
    if ← pure (!isFirst) <&&> not <$> eatPunct .comma then return .done items.reverse
    if (← isPunct .semicolon) || (← atEnd) then
      report (← get).last .trailingComma
      return .done items.reverse
    return .again ((← declarator r false "var") :: items, false)
  if !(← isTypescript) then report (← spanFrom start) .usingNotEnabled
  if !(← context).usingAllowed then report (← spanFrom start) .usingNotAllowed
  for d in items do
    if !isBindingIdent (d.part 0) then report (← spanFrom start) .usingWithPattern
    if (d.part 1).isAbsent then report (← spanFrom start) .usingWithoutInit
  return some (.node (.usingDecl isAwait) (← spanFrom start) items)

/-! ## Jumps and blocks -/

/-- A jump to an enclosing statement. -/
def jumpStatement (r : Rules) (start : Nat) (isBreak : Bool) : Parse Tree := do
  let _ := r
  bump
  let label ←
    if ← eatSemicolon then pure .absent
    else
      let name ← identRef
      expectSemicolon
      pure name
  let span ← spanFrom start
  let known ←
    match label.name? with
    | some w => pure ((← get).labels.contains w)
    | none => pure true
  let c ← context
  if isBreak then
    if !known then report span .breakTarget
    else if !c.breakAllowed then report span .breakOutside
  else if !c.continueAllowed then report span .continueOutside
  else if !known then report span .jumpTarget
  return .node (if isBreak then .breakStmt else .continueStmt) span [label]

def returnStatement (r : Rules) : Parse Tree := do
  let start ← position
  bump
  let e ← if ← isStatementEnd then pure .absent else withIn (expression r)
  expectSemicolon
  let span ← spanFrom start
  if !(← context).inFunction then report span .returnNotAllowed
  return .node .returnStmt span [e]

def throwStatement (r : Rules) : Parse Tree := do
  let start ← position
  bump
  if ← afterBreak then failHere .lineBreakInThrow
  let e ← withIn (expression r)
  expectSemicolon
  return .node .throwStmt (← spanFrom start) [e]

/-- The statement with another one behind its last `else`; `fuel` bounds their number. -/
def withElse (t last : Tree) : (fuel : Nat) → Tree
  | 0 => t
  | fuel + 1 =>
    let span : Span := ⟨t.span.lo, last.span.hi⟩
    let other := t.part 2
    match other.shape with
    | .ifStmt => (t.setPart 2 (withElse other last fuel)).withSpan span
    | _ => (t.setPart 2 last).withSpan span

def ifStatement (r : Rules) : Parse Tree := do
  let start ← position
  bump
  expectPunct .leftParen
  let test ← within (fun c => { c with ignoresElse := false, includesIn := true }) (expression r)
  expectPunct .rightParen
  let yes ← within (fun c => { c with ignoresElse := false }) (subStatement r)
  let no ←
    if (← context).ignoresElse then pure .absent
    else
      iterate (Tree.absent, 0) fun (chain, count) => do
        if !(← eatWord "else") then return .done chain
        if ← isWord "if" then
          let next ← within (fun c => { c with ignoresElse := true }) r.ifStatement
          let chain := if chain.isAbsent then next else withElse chain next (count + 1)
          return .again (chain, count + 1)
        let last ← within (fun c => { c with ignoresElse := false }) (subStatement r)
        return .done (if chain.isAbsent then last else withElse chain last (count + 1))
  return .node .ifStmt (← spanFrom start) [test, yes, no]

/-- One case of a `switch`. -/
def switchCase (r : Rules) (hasDefault : Bool) : Parse (Tree × Bool) := do
  let isCase ← isWord "case"
  let start ← position
  bump
  let test ←
    if isCase then withIn (expression r)
    else
      if hasDefault then failHere .multipleDefaults
      pure .absent
  expectPunct .colon
  let body ← iterate ([] : List Tree) fun items => do
    if (← atEnd) || (← isAny [.word "case", .word "default", .punct .rightBrace]) then
      return .done items.reverse
    return .again ((← r.statement true false) :: items)
  return (.node .switchCase (← spanFrom start) [test, .list body], hasDefault || !isCase)

def switchStatement (r : Rules) : Parse Tree := do
  let start ← position
  bump
  let e ← condition r
  expectPunct .leftBrace
  let cases ← within (fun c => { c with breakAllowed := true }) <|
    iterate (([], false) : List Tree × Bool) fun (items, hasDefault) => do
      if !(← isAny [.word "case", .word "default"]) then return .done items.reverse
      let (item, hasDefault) ← switchCase r hasDefault
      return .again (item :: items, hasDefault)
  expectPunct .rightBrace
  return .node .switchStmt (← spanFrom start) [e, .list cases]

def catchClause? (r : Rules) : Parse Tree := do
  let start ← position
  if !(← eatWord "catch") then return .absent
  let parameter ←
    if ← eatPunct .leftParen then
      let target ← r.pattern
      let typeStart ← position
      let target ←
        if ← isTypescript <&&> eatPunct .colon then
          let t ← inType r.type_
          pure (target.setPart 1 (.node .typeClause (← spanFrom typeStart) [t]))
        else pure target
      expectPunct .rightParen
      pure target
    else pure .absent
  let body ← block r
  return .node .catchClause (← spanFrom start) [parameter, body]

def finallyBlock? (r : Rules) : Parse Tree := do
  if ← eatWord "finally" then block r else return .absent

def tryStatement (r : Rules) : Parse Tree := do
  let start ← position
  bump
  let body ← block r
  let after ← position
  let handler ← catchClause? r
  let finalizer ← finallyBlock? r
  if handler.isAbsent && finalizer.isAbsent then report ⟨after, after⟩ .expectedSemicolon
  return .node .tryStmt (← spanFrom start) [body, handler, finalizer]

/-- A `catch` or a `finally` without its `try`. -/
def strayHandler (r : Rules) (isCatch : Bool) : Parse Tree := do
  let span ← tokenSpan
  report span .expectedSemicolon
  let quietly (p : Parse Tree) : Parse Unit := do
    try let _ ← p
    catch
      | .failure _ => pure ()
      | stop => throw stop
  if isCatch then quietly (catchClause? r)
  quietly (finallyBlock? r)
  return .node .exprStmt span [invalidAt span]

/-! ## Loops -/

/-- The body of a loop. -/
def loopBody (r : Rules) : Parse Tree :=
  within (fun c => { c with breakAllowed := true, continueAllowed := true }) (subStatement r)

def whileStatement (r : Rules) : Parse Tree := do
  let start ← position
  bump
  let test ← condition r
  let body ← loopBody r
  return .node .whileStmt (← spanFrom start) [test, body]

def doStatement (r : Rules) : Parse Tree := do
  let start ← position
  bump
  let body ← loopBody r
  expectWord "while"
  let test ← condition r
  let _ ← eatSemicolon
  return .node .doWhileStmt (← spanFrom start) [test, body]

def withStatement (r : Rules) : Parse Tree := do
  if ← isTypescript then report (← tokenSpan) .withUnsupported
  reportPlainly (← tokenSpan) .withInStrictMode
  let start ← position
  bump
  let object ← condition r
  let body ← within (fun c => { c with inFunction := true }) (subStatement r)
  return .node .withStmt (← spanFrom start) [object, body]

/-- The parts of a loop's head. -/
inductive LoopHead where
  | counted (init test update : Tree)
  | forIn (left right : Tree)
  | forOf (left right : Tree)

/-- The head of a loop over something, from its word on. -/
def iterationHead (r : Rules) (left : Tree) : Parse LoopHead := do
  let isOf ← isWord "of"
  bump
  if isOf then return .forOf left (← withIn r.assignment)
  if let .usingDecl _ := left.shape then report left.span .usingInForIn
  return .forIn left (← withIn (expression r))

/-- The head of a counting loop after its first semicolon. -/
def countedHead (r : Rules) (init : Tree) : Parse LoopHead := do
  let test ←
    if ← eatPunct .semicolon then pure .absent
    else
      let e ← withIn (expression r)
      expectPunct .semicolon
      pure e
  let update ← if ← isPunct .rightParen then pure .absent else withIn (expression r)
  return .counted init test update

/-- The head of a loop that begins with declared variables. -/
def variableHead (r : Rules) : Parse LoopHead := do
  let decl ← variableDecl r true
  if ← isAny [.word "of", .word "in"] then
    match decl.parts with
    | [d] =>
      let target := d.part 0
      if (d.part 1).isPresent then report target.span .initializerInHead
      if (← isTypescript) && !isAssignPattern target && (target.part 1).isPresent then
        report target.span .typeInForOf
    | ds => for d in ds.drop 1 do report (d.part 0).span .oneBindingExpected
    return ← iterationHead r decl
  expectPunct .semicolon
  countedHead r decl

/-- The expression is the name of the word `using`, perhaps awaited. -/
def namesUsing (e : Tree) : Option Bool :=
  if e.name? = some "using" then some false
  else
    match e with
    | .node .awaitExpr _ [inner] => if inner.name? = some "using" then some true else none
    | _ => none

def loopHead (r : Rules) : Parse LoopHead := do
  let declares ←
    if ← isAny [.word "const", .word "var"] then pure true
    else isWord "let" <&&> declaresAhead
  if declares then return ← variableHead r
  if ← eatPunct .semicolon then return ← countedHead r .absent
  let start ← position
  let init ← withoutIn (expression r)
  if ← isTypescript then
    if let some isAwait := namesUsing init then
      if !(← isWord "of") then
        match ← ahead? with
        | some (.word "of") | some (.word "in") =>
          let target ← bindingIdent
          let d := Tree.node (.declarator false) (← spanFrom start) [target, .absent]
          let decl := Tree.node (.usingDecl isAwait) (← spanFrom start) [d]
          let _ ← required
          return ← iterationHead r decl
        | _ => pure ()
  if ← isAny [.word "of", .word "in"] then
    let isIn ← isWord "in"
    let target ← asPattern .assignment init
    if (← isTypescript) && isIn then
      match target.shape with
      | .arrayPattern _ | .objectPattern _ => report target.span .patternInForIn
      | _ => pure ()
    return ← iterationHead r target
  expectPunct .semicolon
  countedHead r init

def forStatement (r : Rules) : Parse Tree := do
  let start ← position
  bump
  let awaitStart ← position
  let awaitSpan ← if ← eatWord "await" then some <$> spanFrom awaitStart else pure none
  expectPunct .leftParen
  let head ← within
    (fun c => { c with forHead := true, forAwaitHead := awaitSpan.isSome }) (loopHead r)
  expectPunct .rightParen
  let body ← loopBody r
  let span ← spanFrom start
  let checkAwait : Parse Unit := do
    if let some s := awaitSpan then fail s .forAwaitNotOf
  match head with
  | .counted init test update =>
    checkAwait
    return .node .forStmt span [init, test, update, body]
  | .forIn left right =>
    checkAwait
    return .node .forInStmt span [left, right, body]
  | .forOf left right => return .node (.forOfStmt awaitSpan.isSome) span [left, right, body]

/-! ## Labels and declarations -/

def labeledStatement (r : Rules) (label : Tree) : Parse Tree :=
  within (fun c => { c with breakAllowed := true, usingAllowed := false }) do
    let start := label.span.lo
    let w := label.name?.getD ""
    let count := (← get).labels.count w
    modify fun s => { s with labels := s.labels ++ [w] }
    let body ←
      if ← isWord "function" then
        let f ← functionDecl r [] false
        report f.span .labelledFunction
        if let .function flags := (f.part 1).shape then
          if flags.isAsync || flags.isGenerator then report f.span .labelledGenerator
        pure f
      else subStatement r
    for _ in List.range count do report label.span (.duplicateLabel w)
    modify fun s => { s with labels := s.labels.erase w }
    return .node .labeledStmt (← spanFrom start) [label, body]

/-- The declaration with a mark that it only declares. -/
def declared (t : Tree) : Tree :=
  let shape : Shape :=
    match t.shape with
    | .functionDecl _ => .functionDecl true
    | .classDecl _ => .classDecl true
    | .variableDecl kind _ => .variableDecl kind true
    | .interfaceDecl _ => .interfaceDecl true
    | .typeAliasDecl _ => .typeAliasDecl true
    | .enumDecl _ isConst => .enumDecl true isConst
    | .namespaceDecl _ isGlobal => .namespaceDecl true isGlobal
    | s => s
  .node shape t.span t.parts

/-- The declaration with a body that starts elsewhere. -/
def startingAt (start : Nat) (t : Tree) : Tree :=
  let move (x : Tree) : Tree := x.withSpan ⟨start, x.span.hi⟩
  match t.shape with
  | .functionDecl _ | .classDecl _ => move (t.setPart 1 (move (t.part 1)))
  | _ => move t

/-- The block of a namespace. -/
def namespaceBlock (r : Rules) : Parse Tree := do
  let start ← position
  expectPunct .leftBrace
  let items ← blockBody r true
  return .node .namespaceBlock (← spanFrom start) items

/-- A namespace, from its name on. -/
def namespaceDecl (r : Rules) (start : Nat) : Parse Tree := do
  let name ← identName
  let body ←
    if ← eatPunct .dot then
      let inner ← r.namespaceDecl (← position)
      pure (Tree.node (.innerNamespace false false) inner.span inner.parts)
    else namespaceBlock r
  return .node (.namespaceDecl false false) (← spanFrom start) [name, body]

/-- A module named by a text, or the global scope. -/
def ambientModule (r : Rules) (start : Nat) : Parse Tree := do
  let (isGlobal, name) ←
    if ← isWord "global" then pure (true, ← identName)
    else
      match ← required with
      | .string .. => pure (false, ← literal)
      | _ => unexpected "global or a string literal"
  let body ←
    if ← isPunct .leftBrace then namespaceBlock r
    else
      expectSemicolon
      pure .absent
  return .node (.namespaceDecl false isGlobal) (← spanFrom start) [name, body]

/-- A declaration that a contextual word begins; the word is still ahead if `next`. -/
def wordDeclaration (r : Rules) (start : Nat) (marks : List Tree) (word : String) (next : Bool) :
    Parse (Option Tree) := do
  let pass : Parse Unit := do if next then bump
  match word with
  | "abstract" =>
    let here ← if next then pure true else if ← isWord "class" then pure !(← afterBreak)
      else pure false
    if here then
      pass
      return some (← classDecl r start start marks true)
    return none
  | "enum" =>
    if next || (← isBindingName) then
      pass
      return some (← enumDecl r start false)
    return none
  | "interface" =>
    if next || (← isBindingName) then
      pass
      return some (← interfaceDecl r start)
    return none
  | "module" =>
    if ← afterBreak then return none
    pass
    match ← required with
    | .string .. => return some (← ambientModule r start)
    | _ =>
      if next || (← isBindingName) then return some (← namespaceDecl r start)
      return none
  | "namespace" =>
    if next || (← isBindingName) then
      pass
      return some (← namespaceDecl r start)
    return none
  | "type" =>
    let here ← if next then pure true else if ← afterBreak then pure false else isBindingName
    if here then
      pass
      return some (← typeAliasDecl r start)
    return none
  | _ => return none

/-- What `declare` stands before, if it is a declaration. -/
def ambientDeclaration? (r : Rules) (start : Nat) (marks : List Tree) : Parse (Option Tree) := do
  if (← context).inDeclare then report (← spanFrom start) .declareInAmbient
  within (fun c => { c with inDeclare := true }) do
    if ← isWord "function" then
      return some (declared (startingAt start (← functionDecl r marks false)))
    if ← isWord "class" then
      return some (declared (startingAt start (← classDecl r start start marks false)))
    if ← isWord "const" <&&> aheadIs (.word "enum") then
      bump
      bump
      return some (declared (startingAt start (← enumDecl r start true)))
    if ← isAny [.word "const", .word "var", .word "let"] then
      return some (declared (startingAt start (← variableDecl r false)))
    if ← isWord "global" then return some (declared (← ambientModule r start))
    match ← current? with
    | some (.word w) => return (← wordDeclaration r start marks w true).map declared
    | _ => return none

/-- The declaration that a name alone in a statement begins. -/
def declarationAfterName? (r : Rules) (marks : List Tree) (name : Tree) : Parse (Option Tree) := do
  let start := name.span.lo
  match name.name?.getD "" with
  | "declare" => return (← ambientDeclaration? r start marks).map declared
  | "global" =>
    if ← isPunct .leftBrace then
      let body ← namespaceBlock r
      return some (.node (.namespaceDecl false true) (← spanFrom start) [name, body])
    return none
  | w => wordDeclaration r start marks w false

/-! ## Any statement -/

/-- An expression with the end of its statement. -/
def expressionEnd (r : Rules) (start : Nat) (e : Tree) : Parse Tree := do
  if ← eatSemicolon then return .node .exprStmt (← spanFrom start) [e]
  match ← sound? with
  | some (.binary _) =>
    report (← tokenSpan) .expectedSemicolon
    let e ← r.binaryTail e 0
    return .node .exprStmt (← spanFrom start) [e]
  | _ => failHere .expectedStatementEnd

/-- A statement that begins with an expression. -/
def expressionStatement (r : Rules) (start : Nat) (marks : List Tree) : Parse Tree := do
  let e ← withIn (expression r)
  match e.name? with
  | none => expressionEnd r start e
  | some w =>
    if ← eatPunct .colon then return ← labeledStatement r e
    if w = "interface" && (← afterBreak) then
      reportPlainly e.span (.nameInStrictMode w)
      let _ ← eatSemicolon
      return .node .exprStmt (← spanFrom start) [e]
    if ← isTypescript then
      if let some t ← declarationAfterName? r marks e then return t
    if w = "enum" || w = "interface" then reportPlainly e.span (.nameInStrictMode w)
    if (← isTypescript) && ["public", "static", "abstract"].contains w then
      if ← eatWord "interface" then
        report e.span .invalidInterfaceName
        return ← interfaceDecl r start
    expressionEnd r start e

/-- A statement that begins with `await using`, which declares resources or waits for a value. -/
def awaitUsing (r : Rules) (start : Nat) : Parse Tree := do
  bump
  if let some t ← usingDecl? r start true then return t
  let e ← withIn (r.binaryTail (← awaitExpr r (some start)) 0)
  let _ ← eatSemicolon
  return .node .exprStmt (← spanFrom start) [e]

/-- The next token is any word on the same line. -/
def wordAhead : Parse Bool := do
  if ← aheadIsAnyWord then return !(← breakAhead) else return false

/-- The statement that the current word begins, if the word begins one. -/
def wordStatement? (r : Rules) (start : Nat) (declarations topLevel : Bool) (marks : List Tree)
    (word : String) : Parse (Option Tree) := do
  let ts ← isTypescript
  match word with
  | "await" =>
    if ← pure (declarations || topLevel) <&&> aheadIs (.word "using") then
      some <$> awaitUsing r start
    else return none
  | "break" => some <$> jumpStatement r start true
  | "continue" => some <$> jumpStatement r start false
  | "debugger" =>
    bump
    expectSemicolon
    return some (.node .debuggerStmt (← spanFrom start) [])
  | "do" => some <$> doStatement r
  | "for" => some <$> forStatement r
  | "function" =>
    if !declarations then report (← tokenSpan) .declarationNotAllowed
    some <$> functionDecl r marks false
  | "class" =>
    if !declarations then report (← tokenSpan) .declarationNotAllowed
    some <$> classDecl r start start marks false
  | "if" => some <$> ifStatement r
  | "return" => some <$> returnStatement r
  | "switch" => some <$> switchStatement r
  | "throw" => some <$> throwStatement r
  | "catch" => some <$> strayHandler r true
  | "finally" => some <$> strayHandler r false
  | "try" => some <$> tryStatement r
  | "with" => some <$> withStatement r
  | "while" => some <$> whileStatement r
  | "var" => some <$> variableDecl r false
  | "const" => if declarations then some <$> variableDecl r false else return none
  | "let" =>
    if ← pure declarations <&&> declaresAhead then some <$> variableDecl r false
    else return none
  | "using" => if declarations then usingDecl? r start false else return none
  | "interface" =>
    if ← pure ts <&&> wordAhead then
      let start ← position
      bump
      some <$> interfaceDecl r start
    else return none
  | "type" =>
    if ← pure ts <&&> wordAhead then
      let start ← position
      bump
      some <$> typeAliasDecl r start
    else return none
  | "enum" =>
    if ← pure ts <&&> wordAhead then
      let start ← position
      bump
      some <$> enumDecl r start false
    else return none
  | _ => return none

/-- A statement after its decorators, where imports and exports are ruled out. -/
def statementAfterMarks (r : Rules) (start : Nat) (declarations topLevel : Bool)
    (marks : List Tree) : Parse Tree := do
  if ← isTypescript <&&> isWord "const" <&&> aheadIs (.word "enum") then
    bump
    bump
    return ← enumDecl r start true
  match ← required with
  | .word w =>
    if let some t ← wordStatement? r start declarations topLevel marks w then return t
  | .punct .leftBrace => return ← within (fun c => { c with usingAllowed := true }) (block r)
  | _ => pure ()
  if ← eatPunct .semicolon then return .node .emptyStmt (← spanFrom start) []
  if ← isWord "async" <&&> aheadIs (.word "function") <&&> not <$> breakAhead then
    return ← functionDecl r marks true
  expressionStatement r start marks

end RouteManifest.Script.Grammar
