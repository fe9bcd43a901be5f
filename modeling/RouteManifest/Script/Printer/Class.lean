import RouteManifest.Script.Printer.Function

/-!
# Writing classes

Classes and their members, each on lines of its own.
-/

namespace RouteManifest.Script.Printer

/-- Writes the marks of a member in the order in which they have to stand. -/
def memberModifiers (m : Modifiers) : Print Unit := do
  accessibility m
  flag m.isStatic "static"
  flag m.isAbstract "abstract"
  flag m.isOverride "override"

def fieldValue (sub : Writer) (value : Tree) : Print Unit := after " = " (full sub) value

def classMember (sub : Writer) (t : Tree) : Print Bool := do
  match t.shape with
  | .constructor m =>
    markStart t
    accessibility m
    put "constructor"
    parameters sub (t.part 1).parts
    let body := t.part 2
    if body.isPresent then block sub true body else put ";"
  | .methodMember kind m =>
    let f := t.part 1
    leading (t.part 0)
    markStart t
    decorators sub (f.part 1).parts
    memberModifiers m
    match kind with
    | .method =>
      flag (functionFlags f).isAsync "async"
      if (functionFlags f).isGenerator then put "*"
    | .getter => put "get "
    | .setter => put "set "
    sub (t.part 0)
    if m.isOptional then put "?"
    sub (f.part 3)
    parameters sub (f.part 0).parts
    typeBehindColon sub (f.part 4)
    let body := f.part 2
    if body.isPresent then
      blank
      block sub true body
    else put ";"
  | .fieldMember m =>
    markStart t
    decorators sub (t.part 3).parts
    flag m.isDeclare "declare"
    memberModifiers m
    flag m.isReadonly "readonly"
    sub (t.part 0)
    if m.isOptional then put "?"
    if m.isDefinite then put "!"
    typeBehindColon sub (t.part 2)
    fieldValue sub (t.part 1)
    put ";"
    markEnd t
  | .accessorMember m =>
    innerDecorators sub (t.part 3).parts
    memberModifiers m
    put "accessor "
    sub (t.part 0)
    typeBehindColon sub (t.part 2)
    fieldValue sub (t.part 1)
    put ";"
    markEnd t
  | .staticBlock =>
    markStart t
    put "static"
    block sub true (t.part 0)
    markEnd t
  | .emptyMember => pure ()
  | _ => return false
  return true

/-- Writes a class from its base on. -/
def classRest (sub : Writer) (c : Tree) : Print Unit := do
  let base := c.part 2
  if base.isPresent then
    put " extends "
    full sub base
    sub (c.part 4)
  let interfaces := (c.part 5).parts
  if !interfaces.isEmpty then
    put " implements "
    putList .commas (interfaces.map sub)
  put " \x7b"
  putList .block ((c.part 1).parts.map sub)
  markClosing c
  put "\x7d"

def isAbstractClass (c : Tree) : Bool :=
  match c.shape with
  | .classBody isAbstract => isAbstract
  | _ => false

def classExpression (sub : Writer) (t : Tree) : Print Bool := do
  if !(t.shape matches .classExpr) then return false
  let name := t.part 0
  let c := t.part 1
  markStart t
  decorators sub (c.part 0).parts
  flag (isAbstractClass c) "abstract"
  put "class"
  if name.isPresent then
    blank
    sub name
    sub (c.part 3)
  classRest sub c
  return true

/-- Writes a class declaration, without its decorators if those stand before it already. -/
def classDeclaration (sub : Writer) (isDeclare withDecorators : Bool) (t : Tree) : Print Unit := do
  let c := t.part 1
  markStart t
  flag isDeclare "declare"
  if withDecorators then decorators sub (c.part 0).parts
  flag (isAbstractClass c) "abstract"
  put "class "
  sub (t.part 0)
  sub (c.part 3)
  classRest sub c

end RouteManifest.Script.Printer
