import RouteManifest.Script.Printer.Function
import RouteManifest.Script.Printer.Quoted

/-!
# Writing expressions

Names, literals, operators, calls and functions. Arrays and objects that hold anything stand on
lines of their own, and operators stand between blanks.
-/

namespace RouteManifest.Script.Printer

/-- A dot after the number would be taken for its decimal point. -/
def needsTwoDots (raw : String) : Bool :=
  let cs := raw.toList
  cs.all Char.isDigit && !(cs.length ≥ 2 && cs.head? = some '0')

def literal (sub : Writer) (t : Tree) : Print Bool := do
  match t.shape with
  | .ident name _ isOptional =>
    markStart t
    put name
    if isOptional then put "?"
  | .privateName =>
    markStart t
    put "#"
    sub (t.part 0)
  | .stringLit value raw =>
    markStart t
    putLines (raw.getD (quoted value))
  | .numberLit raw =>
    markStart t
    put raw
  | .bigintLit raw => putLiteral t.span raw
  | .boolLit value =>
    markStart t
    put (if value then "true" else "false")
  | .nullLit =>
    markStart t
    put "null"
  | .regexLit body flags =>
    markStart t
    put s!"/{body}/{flags}"
  | _ => return false
  return true

/-- Writes an item of an array or an argument of a call. -/
def item (sub : Writer) (t : Tree) : Print Unit := do
  match t.shape with
  | .spread dots =>
    leadingAt dots.lo
    put "..."
    full sub (t.part 0)
  | .absent => pure ()
  | _ => full sub t

def arguments (sub : Writer) (items : List Tree) : Print Unit := do
  put "("
  putList .commas (items.map (item sub))
  put ")"

/-- Writes what is between backquotes: stretches of text with holes between them. -/
def templateText (sub hole : Writer) : List Tree → List Tree → Print Unit
  | stretch :: stretches, holes => do
    sub stretch
    match holes with
    | [] => templateText sub hole stretches []
    | h :: holes =>
      put "$\x7b"
      hole h
      put "\x7d"
      templateText sub hole stretches holes
  | [], _ => pure ()

/-- The operand of a sign is written behind a blank, lest the two join. -/
def signsJoin (op : String) (operand : Tree) : Bool :=
  match operand.shape with
  | .unary inner => (op = "+" || op = "-") && inner = op
  | .update inner true => (op = "+" && inner = "++") || (op = "-" && inner = "--")
  | _ => false

/-- Writes the access to a property, behind its object. -/
def property (sub : Writer) (needsDot : Bool) (t : Tree) : Print Unit := do
  if t.shape matches .computed then sub t
  else
    if needsDot then
      leadingAt (t.span.lo - 2)
      put "."
    leadingAt (t.span.lo - 1)
    put "."
    sub t

/-- Writes an optional chain from its object or callee on. -/
def chain (sub : Writer) (optional : Bool) (base : Tree) : Print Unit := do
  let mark := if optional then "?." else ""
  match base.shape with
  | .member =>
    full sub (base.part 0)
    let isComputed := (base.part 1).shape matches .computed
    put (if optional || isComputed then mark else ".")
    sub (base.part 1)
  | _ =>
    full sub (base.part 0)
    put mark
    sub (base.part 2)
    arguments sub (base.part 1).parts

/-- Writes the operator and the right operand of a binary expression. -/
def binaryRest (sub : Writer) (op : String) (right : Tree) : Print Unit := do
  put s!" {op} "
  full sub right

/-- The left operands of a binary expression that are binary themselves, from the inside out. -/
def leftSpine : Tree → List (String × Tree) → Tree × List (String × Tree)
  | .node (.binary op) _ [left, right], rest => leftSpine left ((op, right) :: rest)
  | t, rest => (t, rest)

/-- The comments before an expression break the line, so that it cannot follow a word. -/
def startsBehindBreak (fuel : Nat) (t : Tree) : Print Bool := do
  let table := (← get).comments.leading
  return go table fuel t
where
  breaks (c : Comment) : Bool := c.isLine || c.text.toList.any Scan.isLineEnd
  go (table : CommentTable) : Nat → Tree → Bool
    | 0, _ => false
    | fuel + 1, t =>
      (table.at_ t.span.lo).any breaks ||
        match t.shape with
        | .call => !(table.at_ (t.part 0).span.lo).isEmpty
        | .member | .binary _ | .conditional | .sequence | .assign _ => go table fuel (t.part 0)
        | _ => false

/-- Writes the operand of a word, in parentheses where a line would end between them. -/
def operand (sub : Writer) (t : Tree) : Print Unit := do
  let wrapped ← startsBehindBreak t.height t
  put (if wrapped then "(" else " ")
  full sub t
  if wrapped then put ")"

def objectProperty (sub : Writer) (t : Tree) : Print Bool := do
  match t.shape with
  | .keyValue =>
    let key := t.part 0
    let value := t.part 1
    markAt key.span.lo
    sub key
    if value.span.isNowhere then markAt key.span.hi
    put ": "
    if key.span.isNowhere then markAt value.span.lo
    full sub value
  | .assignProp =>
    markStart t
    sub (t.part 0)
    put "="
    full sub (t.part 1)
  | .getterProp =>
    markStart t
    put "get "
    sub (t.part 0)
    put " ()"
    typeBehindColon sub (t.part 1)
    blank
    block sub true (t.part 2)
  | .setterProp =>
    markStart t
    put "set "
    sub (t.part 0)
    put " ("
    full sub (t.part 1)
    put ")"
    block sub true (t.part 2)
  | .methodProp =>
    markStart t
    let flags := functionFlags (t.part 1)
    flag flags.isAsync "async"
    if flags.isGenerator then put "*"
    sub (t.part 0)
    blank
    functionRest sub (t.part 1)
  | .computed =>
    markStart t
    put "["
    full sub (t.part 0)
    put "]"
    markEnd t
  | _ => return false
  return true

def arrowBody (sub : Writer) (t : Tree) : Print Unit :=
  if t.shape matches .block then block sub false t else indented (full sub t)

def expression (sub : Writer) (t : Tree) : Print Bool := do
  match t.shape with
  | .thisExpr =>
    putMarked t.span "this"
  | .superExpr => putMarked t.span "super"
  | .importCallee => putMarked t.span "import"
  | .arrayLit =>
    markStart t
    put "["
    let items := t.parts
    let open_ := (items.getLast?.map Tree.isAbsent).getD false
    if !items.isEmpty then
      putList { Arrangement.commaBlock with closingSeparator := open_ } (items.map (item sub))
    put "]"
    markEnd t
  | .objectLit =>
    markStart t
    put "\x7b"
    if !t.parts.isEmpty then putList .commaBlock (t.parts.map sub)
    markClosing t
    put "\x7d"
  | .spread _ =>
    markStart t
    put "..."
    full sub (t.part 0)
    markEnd t
  | .functionExpr =>
    markStart t
    functionHead (functionFlags (t.part 1))
    after " " sub (t.part 0)
    functionRest sub (t.part 1)
  | .unary op =>
    markStart t
    put op
    if op.toList.any Char.isAlpha || signsJoin op (t.part 0) then blank
    full sub (t.part 0)
  | .update op before =>
    markStart t
    if before then put op
    full sub (t.part 0)
    if !before then put op
  | .binary _ =>
    let (first, rest) := leftSpine t []
    full sub first
    rest.forM fun (op, right) => binaryRest sub op right
  | .assign op =>
    full sub (t.part 0)
    put s!" {op} "
    full sub (t.part 1)
  | .member =>
    markStart t
    let object := t.part 0
    match object.shape with
    | .numberLit raw =>
      sub object
      property sub (needsTwoDots raw) (t.part 1)
      markEnd t
    | .superExpr =>
      sub object
      property sub false (t.part 1)
    | _ =>
      full sub object
      property sub false (t.part 1)
      markEnd t
  | .conditional =>
    markStart t
    full sub (t.part 0)
    put " ? "
    full sub (t.part 1)
    put " : "
    full sub (t.part 2)
  | .call =>
    markStart t
    let callee := t.part 0
    if callee.shape matches .superExpr | .importCallee then sub callee else full sub callee
    sub (t.part 2)
    arguments sub (t.part 1).parts
  | .newExpr =>
    markStart t
    put "new "
    full sub (t.part 0)
    sub (t.part 2)
    if (t.part 1).isPresent then arguments sub (t.part 1).parts
  | .sequence =>
    markStart t
    separated .commas (t.parts.map (full sub))
  | .arrow flags =>
    markStart t
    flag flags.isAsync "async"
    if flags.isGenerator then put "*"
    sub (t.part 2)
    parameters (full sub) (t.part 0).parts
    if (t.part 3).isPresent then
      typeBehindColon sub (t.part 3)
      blank
    put "=>"
    arrowBody sub (t.part 1)
  | .yieldExpr delegate =>
    markStart t
    put "yield"
    if delegate then put "*"
    if (t.part 0).isPresent then operand sub (t.part 0)
  | .awaitExpr =>
    markStart t
    put "await "
    full sub (t.part 0)
  | .newTarget =>
    markStart t
    put "new.target"
  | .importMeta =>
    markStart t
    put "import.meta"
  | .paren =>
    markStart t
    put "("
    full sub (t.part 0)
    markClosing t
    put ")"
  | .template =>
    markStart t
    put "`"
    templateText sub (full sub) (t.part 1).parts (t.part 0).parts
    put "`"
    markEnd t
  | .templateElement raw _ =>
    markStart t
    putLines raw
    markEnd t
  | .taggedTemplate =>
    markStart t
    full sub (t.part 0)
    sub (t.part 1)
    sub (t.part 2)
    markEnd t
  | .optionalChain optional => chain sub optional (t.part 0)
  | .typeAssertion =>
    put "<"
    sub (t.part 1)
    put ">"
    full sub (t.part 0)
  | .constAssertion =>
    full sub (t.part 0)
    put " as const"
  | .nonNull =>
    full sub (t.part 0)
    put "!"
  | .asExpr =>
    full sub (t.part 0)
    put " as "
    sub (t.part 1)
  | .satisfiesExpr =>
    full sub (t.part 0)
    put " satisfies "
    sub (t.part 1)
  | .instantiation =>
    full sub (t.part 0)
    sub (t.part 1)
  | .invalid => put "<invalid>"
  | _ => return false
  return true

end RouteManifest.Script.Printer
