import RouteManifest.Script.Printer.Pen

/-!
# Writing functions, patterns and blocks

What the writers of expressions, statements and types have in common. A writer gets the one for
the parts of its node as a parameter, and writes a node without the comments behind it: whether
those follow depends on where the node stands. A writer of one kind of nodes answers whether the node
was of that kind.
-/

namespace RouteManifest.Script.Printer

/-- A writer of single nodes. -/
abbrev Writer := Tree → Print Unit

/-- Writes an expression or a pattern with the comments behind it. -/
def full (sub : Writer) (t : Tree) : Print Unit := do
  if let .bigintLit _ := t.shape then
    leading t
    markStart t
  sub t
  trailing t

/-- Writes a part that may be missing, behind a text. -/
def after (s : String) (writer : Writer) (t : Tree) : Print Unit := do
  if t.isPresent then
    put s
    writer t

def typeBehindColon (sub : Writer) (t : Tree) : Print Unit := after ": " sub t

/-- Writes decorators, each on a line of its own. -/
def decorators (sub : Writer) (marks : List Tree) : Print Unit := marks.forM sub

/-- Writes decorators on lines of their own in the middle of a line. -/
def innerDecorators (sub : Writer) (marks : List Tree) : Print Unit := do
  if !marks.isEmpty then putList { lines := true } (marks.map sub)

def accessibility (m : Modifiers) : Print Unit :=
  match m.access with
  | some word => put (word ++ " ")
  | none => pure ()

/-- Writes a word and a blank where a flag is set. -/
def flag (isSet : Bool) (word : String) : Print Unit := if isSet then put (word ++ " ") else pure ()

def parameters (writer : Writer) (items : List Tree) : Print Unit := do
  put "("
  putList .commas (items.map writer)
  put ")"

/-- Writes statements in braces. A block without statements and comments takes no line. -/
def block (sub : Writer) (withMark : Bool) (t : Tree) : Print Unit := do
  leading t
  if withMark then markStart t
  put "\x7b"
  let comments := (← get).comments.leading.at_ (t.span.hi - 1)
  if t.parts.isEmpty && (t.span.isNowhere || comments.isEmpty) then pure ()
  else putList .block (t.parts.map sub)
  leadingAt (t.span.hi - 1)
  markClosing t
  put "\x7d"

/-- Writes the parts of a function from its type parameters on. -/
def functionRest (sub : Writer) (f : Tree) : Print Unit := do
  let body := f.part 2
  sub (f.part 3)
  parameters sub (f.part 0).parts
  typeBehindColon sub (f.part 4)
  if body.isPresent then
    blank
    block sub false body
  else put ";"

/-- The marks of a function before its name. -/
def functionHead (flags : FunctionFlags) : Print Unit := do
  if flags.isAsync then put "async "
  put "function"
  if flags.isGenerator then put "*"

def functionFlags (f : Tree) : FunctionFlags :=
  match f.shape with
  | .function flags => flags
  | _ => ⟨false, false⟩

def pattern (sub : Writer) (t : Tree) : Print Bool := do
  match t.shape with
  | .bindingIdent =>
    sub (t.part 0)
    typeBehindColon sub (t.part 1)
  | .arrayPattern isOptional =>
    markStart t
    put "["
    let items := (t.part 0).parts
    let open_ := (items.getLast?.map Tree.isAbsent).getD false
    putList { Arrangement.commas with closingSeparator := open_ } (items.map (full sub))
    put "]"
    if isOptional then put "?"
    typeBehindColon sub (t.part 1)
    markEnd t
  | .objectPattern isOptional =>
    markStart t
    put "\x7b"
    let items := (t.part 0).parts
    if !items.isEmpty then putList .paddedCommas (items.map sub)
    put "\x7d"
    if isOptional then put "?"
    typeBehindColon sub (t.part 1)
    markEnd t
  | .restPattern _ =>
    markStart t
    put "..."
    full sub (t.part 0)
    typeBehindColon sub (t.part 1)
  | .assignPattern =>
    markStart t
    full sub (t.part 0)
    put " = "
    full sub (t.part 1)
    markEnd t
  | .keyValuePattern =>
    markStart t
    sub (t.part 0)
    put ": "
    full sub (t.part 1)
    markEnd t
  | .shorthandPattern =>
    markStart t
    sub (t.part 0)
    after " = " (full sub) (t.part 1)
    markEnd t
  | .parameter =>
    markStart t
    innerDecorators sub (t.part 0).parts
    full sub (t.part 1)
    markEnd t
  | .parameterProperty m =>
    innerDecorators sub (t.part 0).parts
    accessibility m
    flag m.isOverride "override"
    flag m.isReadonly "readonly"
    sub (t.part 1)
  | .decorator =>
    markStart t
    put "@"
    full sub (t.part 0)
    endLine
    markEnd t
  | _ => return false
  return true

end RouteManifest.Script.Printer
