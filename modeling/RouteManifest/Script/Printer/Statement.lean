import RouteManifest.Script.Printer.Class
import RouteManifest.Script.Printer.Type
import RouteManifest.Script.Printer.Expression

/-!
# Writing statements and declarations

Every statement ends its line, except a block.
-/

namespace RouteManifest.Script.Printer

/-- Writes a declaration of variables without its semicolon. -/
def variableList (sub : Writer) (t : Tree) : Print Unit := do
  match t.shape with
  | .variableDecl kind isDeclare =>
    markStart t
    flag isDeclare "declare"
    put s!"{kind} "
  | .usingDecl isAwait =>
    markStart t
    flag isAwait "await"
    put "using "
  | _ => pure ()
  putList .commas (t.parts.map sub)

/-- Writes a namespace from its name on; `inner` are the names that follow. -/
def namespaceRest (sub : Writer) : (fuel : Nat) → Tree → Print Unit
  | 0, _ => pure ()
  | fuel + 1, body =>
    match body.shape with
    | .innerNamespace _ _ => do
      put "."
      sub (body.part 0)
      namespaceRest sub fuel (body.part 1)
    | .absent => pure ()
    | _ => do
      put " \x7b"
      leading body
      indented (putList { lines := true, closingLine := false } (body.parts.map sub))
      endLine
      put "\x7d"

def declaration (sub : Writer) (t : Tree) : Print Bool := do
  match t.shape with
  | .functionDecl isDeclare =>
    markStart t
    flag isDeclare "declare"
    functionHead (functionFlags (t.part 1))
    blank
    sub (t.part 0)
    functionRest sub (t.part 1)
  | .classDecl isDeclare => classDeclaration sub isDeclare true t
  | .variableDecl _ _ | .usingDecl _ =>
    variableList sub t
    put ";"
  | .interfaceDecl isDeclare =>
    flag isDeclare "declare"
    put "interface "
    sub (t.part 0)
    sub (t.part 1)
    let bases := (t.part 2).parts
    if !bases.isEmpty then
      put " extends "
      putList .commas (bases.map sub)
    blank
    sub (t.part 3)
  | .typeAliasDecl isDeclare =>
    flag isDeclare "declare"
    put "type "
    sub (t.part 0)
    sub (t.part 1)
    put " = "
    sub (t.part 2)
    put ";"
  | .enumDecl isDeclare isConst =>
    flag isDeclare "declare"
    flag isConst "const"
    put "enum "
    sub (t.part 0)
    put " \x7b"
    putList .commaBlock ((t.part 1).parts.map sub)
    put "\x7d"
  | .enumMember =>
    sub (t.part 0)
    after " = " (full sub) (t.part 1)
  | .namespaceDecl isDeclare isGlobal =>
    flag isDeclare "declare"
    if !isGlobal then put "module "
    sub (t.part 0)
    namespaceRest sub t.height (t.part 1)
  | .declarator _ =>
    markStart t
    full sub (t.part 0)
    after " = " (full sub) (t.part 1)
  | _ => return false
  return true

/-- Writes the head of a loop over something: a declaration or a pattern. -/
def loopHead (sub : Writer) (t : Tree) : Print Unit :=
  match t.shape with
  | .variableDecl _ _ | .usingDecl _ => variableList sub t
  | _ => full sub t

def condition (sub : Writer) (t : Tree) : Print Unit := do
  put "("
  full sub t
  put ")"

/-- Writes a statement without what follows it; `false` if the node is none. -/
def statementBody (sub : Writer) (t : Tree) : Print Bool := do
  match t.shape with
  | .block => block sub true t
  | .emptyStmt => put ";"
  | .debuggerStmt =>
    markStart t
    put "debugger;"
  | .withStmt =>
    markStart t
    put "with"
    condition sub (t.part 0)
    sub (t.part 1)
  | .returnStmt =>
    markStart t
    put "return"
    if (t.part 0).isPresent then operand sub (t.part 0)
    put ";"
  | .labeledStmt =>
    markStart t
    sub (t.part 0)
    put ": "
    sub (t.part 1)
  | .breakStmt =>
    markStart t
    put "break"
    after " " sub (t.part 0)
    put ";"
  | .continueStmt =>
    markStart t
    put "continue"
    after " " sub (t.part 0)
    put ";"
  | .ifStmt =>
    markStart t
    put "if "
    condition sub (t.part 0)
    blank
    sub (t.part 1)
    if (t.part 2).isPresent then
      if (t.part 1).shape matches .block then blank
      put "else "
      sub (t.part 2)
  | .switchStmt =>
    markStart t
    put "switch"
    condition sub (t.part 0)
    put "\x7b"
    putList .block ((t.part 1).parts.map sub)
    put "\x7d"
  | .throwStmt =>
    markStart t
    put "throw"
    operand sub (t.part 0)
    put ";"
  | .tryStmt =>
    markStart t
    put "try "
    block sub true (t.part 0)
    if (t.part 1).isPresent then
      blank
      sub (t.part 1)
    if (t.part 2).isPresent then
      put " finally"
      block sub true (t.part 2)
  | .whileStmt =>
    markStart t
    put "while"
    condition sub (t.part 0)
    sub (t.part 1)
  | .doWhileStmt =>
    markStart t
    put "do "
    sub (t.part 1)
    put "while "
    condition sub (t.part 0)
    markEnd t
  | .forStmt =>
    markStart t
    put "for("
    loopHead sub (t.part 0)
    put ";"
    after " " (full sub) (t.part 1)
    put ";"
    after " " (full sub) (t.part 2)
    put ")"
    sub (t.part 3)
  | .forInStmt =>
    markStart t
    put "for("
    loopHead sub (t.part 0)
    put " in "
    full sub (t.part 1)
    put ")"
    sub (t.part 2)
  | .forOfStmt isAwait =>
    markStart t
    put "for "
    flag isAwait "await"
    put "("
    loopHead sub (t.part 0)
    put " of "
    full sub (t.part 1)
    put ")"
    sub (t.part 2)
  | .exprStmt =>
    full sub (t.part 0)
    put ";"
  | .functionDecl _ | .classDecl _ | .variableDecl _ _ | .usingDecl _ | .interfaceDecl _
  | .typeAliasDecl _ | .enumDecl _ _ | .namespaceDecl _ _ => return ← declaration sub t
  | _ => return false
  return true

def statement (sub : Writer) (t : Tree) : Print Bool := do
  if !(← statementBody sub t) then return false
  if !(t.shape matches .block) then
    trailing t
    endLine
  return true

def clause (sub : Writer) (t : Tree) : Print Bool := do
  match t.shape with
  | .switchCase =>
    markStart t
    if (t.part 0).isPresent then
      put "case "
      full sub (t.part 0)
    else put "default"
    put ":"
    let body := (t.part 1).parts
    if !body.isEmpty then putList { Arrangement.block with closingLine := false } (body.map sub)
  | .catchClause =>
    markStart t
    put "catch "
    if (t.part 0).isPresent then condition sub (t.part 0)
    blank
    block sub true (t.part 1)
  | _ => return false
  return true

end RouteManifest.Script.Printer
