import RouteManifest.Script.Printer.Statement
import RouteManifest.Script.Printer.Tag
import RouteManifest.Script.Module

/-!
# Writing modules

Imports, exports and whole modules. This is also where the writers of all kinds of nodes are tied
together.
-/

namespace RouteManifest.Script.Printer

def attributes (sub : Writer) (t : Tree) : Print Unit := after " with " sub t

/-- Writes the names of an import or an export in braces. -/
def nameList (sub : Writer) (items : List Tree) : Print Unit := do
  put "\x7b"
  putList .paddedCommas (items.map sub)
  put "\x7d"

/-- Writes the module that an import or an export names, and ends the declaration. -/
def source (sub : Writer) (t from_ marks : Tree) : Print Unit := do
  sub from_
  attributes sub marks
  put ";"
  markEnd t

/-- Writes the names that an import binds, with the word behind them. -/
def importedNames (sub : Writer) (items : List Tree) : Print Unit := do
  let named := items.filter (·.shape matches .importNamed _)
  let others := items.filter fun t => !(t.shape matches .importNamed _)
  let groups := others.map sub ++ if named.isEmpty then [] else [nameList sub named]
  if !groups.isEmpty then
    separated .commas groups
    put " from "

/-- Writes an item of a module without what follows it; `false` if the node is none. -/
def itemBody (sub : Writer) (t : Tree) : Print Bool := do
  match t.shape with
  | .importDecl typeOnly =>
    markStart t
    put "import "
    flag typeOnly "type"
    importedNames sub (t.part 0).parts
    source sub t (t.part 1) (t.part 2)
  | .exportDecl =>
    let decl := t.part 0
    markStart t
    if decl.shape matches .classDecl _ then decorators sub ((decl.part 1).part 0).parts
    put "export "
    leading decl
    match decl.shape with
    | .classDecl isDeclare => classDeclaration sub isDeclare false decl
    | _ =>
      let _ ← declaration sub decl
    markEnd t
  | .exportNamed typeOnly =>
    markStart t
    put "export "
    flag typeOnly "type"
    let items := (t.part 0).parts
    let named := items.filter (·.shape matches .exportSpecifier _)
    let others := items.filter fun t => !(t.shape matches .exportSpecifier _)
    let list := if named.isEmpty && !others.isEmpty then [] else [nameList sub named]
    separated .commas (others.map sub ++ list)
    if (t.part 1).isPresent then put " from "
    source sub t (t.part 1) (t.part 2)
  | .exportAll typeOnly =>
    markStart t
    put "export "
    flag typeOnly "type"
    put "* from "
    source sub t (t.part 0) (t.part 1)
  | .exportDefaultDecl =>
    markStart t
    put "export default "
    let decl := t.part 0
    leading decl
    match decl.shape with
    | .interfaceDecl _ =>
      let _ ← declaration sub decl
    | _ => sub decl
  | .exportDefaultExpr =>
    markStart t
    put "export default "
    full sub (t.part 0)
    put ";"
    markEnd t
  | .importEquals isExport typeOnly =>
    flag isExport "export"
    put "import "
    flag typeOnly "type"
    sub (t.part 0)
    put " = "
    sub (t.part 1)
    put ";"
  | .exportAssignment =>
    put "export = "
    full sub (t.part 0)
  | .namespaceExport =>
    put "export = "
    sub (t.part 0)
  | _ => return false
  return true

/-- Writes one of the names of an import or an export; `false` if the node is none. -/
def specifier (sub : Writer) (t : Tree) : Print Bool := do
  match t.shape with
  | .importNamed typeOnly =>
    markStart t
    flag typeOnly "type"
    if (t.part 1).isPresent then
      sub (t.part 1)
      put " as "
    sub (t.part 0)
    markEnd t
  | .importDefault => sub (t.part 0)
  | .importStar =>
    put "* as "
    sub (t.part 0)
  | .exportSpecifier typeOnly =>
    markStart t
    flag typeOnly "type"
    sub (t.part 0)
    after " as " sub (t.part 1)
    markEnd t
  | .exportStarAs =>
    markStart t
    put "* as "
    sub (t.part 0)
    markEnd t
  | .exportDefaultFrom => sub (t.part 0)
  | .externalReference =>
    put "require("
    sub (t.part 0)
    put ")"
  | _ => return false
  return true

def moduleItem (sub : Writer) (t : Tree) : Print Bool := do
  if !(← itemBody sub t) then return false
  trailing t
  endLine
  return true

/-- The first of several writers that takes a node writes it. -/
def anyOf : List (Tree → Print Bool) → Tree → Print Unit
  | [], _ => pure ()
  | w :: ws, t => do
    if !(← w t) then anyOf ws t

/-- Writes a node; `fuel` bounds its height. -/
def write : (fuel : Nat) → Tree → Print Unit
  | 0, _ => pure ()
  | _, .node .absent _ _ => pure ()
  | fuel + 1, t => do
    let sub := write fuel
    leading t
    anyOf [literal sub, expression sub, objectProperty sub, pattern sub, statement sub,
      moduleItem sub, specifier sub, type sub, tag sub, classExpression sub, classMember sub,
      clause sub, declaration sub] t

def writeModule (t : Tree) : Print Unit := do
  leading t
  match t.shape with
  | .moduleBody (some shebang) =>
    put ("#!" ++ shebang)
    endLine
  | _ => pure ()
  t.parts.forM (write t.height)
  trailing t

/-- The strokes that write a module, in order. -/
def strokes (m : Module) (comments : Comments) : List Stroke :=
  ((writeModule m.tree).run ⟨[], comments⟩).2.strokes.reverse

/-- The pen after a module was written, with marks if it `records`. -/
def pen (records : Bool) (m : Module) (comments : Comments) : Pen :=
  (strokes m comments).foldl Pen.stroke (Pen.start records)

end RouteManifest.Script.Printer
