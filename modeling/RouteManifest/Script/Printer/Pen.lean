import RouteManifest.Script.Comments
import RouteManifest.Script.Tree

/-!
# The pen

Writing a tree goes from left to right. The writers of nodes draft the strokes of a pen and take the
comments that they write; they never see what the pen has come to. The pen holds the text so far,
where it stands, how far lines are indented and, if it records, the marks: places of the text
together with the positions of the source that they come from. A mark set at the start of a line
waits for the first text of the line, so that it stands behind the indentation.
-/

namespace RouteManifest.Script.Printer

/-- A place of the written text that comes from a position of the source. -/
structure Mark where
  line : Nat
  column : Nat
  position : Nat
  deriving DecidableEq, Repr, Inhabited

/-- One movement of the pen. -/
inductive Stroke where
  /-- a text that ends no line -/
  | write (text : String)
  /-- a text that may hold line ends of its own -/
  | writeLines (text : String)
  | endLine
  | indent
  | outdent
  /-- a mark, at the place of the pen or of the first text of the line -/
  | mark (position : Nat)
  /-- a text with marks at both of its ends -/
  | marked (span : Span) (text : String)
  /-- a text with marks at both of its ends, the first of them before any indentation -/
  | literal (span : Span) (text : String)
  deriving DecidableEq, Repr, Inhabited

structure Pen where
  text : String
  line : Nat
  column : Nat
  indent : Nat
  lineStart : Bool
  waiting : Option Nat
  /-- whether marks are kept -/
  records : Bool
  marks : Array Mark

/-- The pen before anything is written. -/
def Pen.start (records : Bool) : Pen where
  text := ""
  line := 0
  column := 0
  indent := 0
  lineStart := true
  waiting := none
  records := records
  marks := #[]

/-- How many UTF-16 units a text takes. -/
def textUnits (s : String) : Nat := s.toList.foldl (fun n c => n + Source.units c) 0

/-- The text that indents a line. -/
def indentation (depth : Nat) : String := String.ofList (List.replicate (4 * depth) ' ')

namespace Pen

/-- Writes a text that ends no line, as it is. -/
def put (p : Pen) (s : String) : Pen :=
  { p with text := p.text ++ s, column := p.column + textUnits s }

/-- Marks the place of the pen if it records, unless the same mark is there already. -/
def mark (p : Pen) (position : Nat) : Pen :=
  let m : Mark := ⟨p.line, p.column, position⟩
  let here := p.marks.toList.reverse.takeWhile fun n => n.line = m.line && n.column = m.column
  if !p.records || position = 0 || here.contains m then p
  else { p with marks := p.marks.push m }

/-- The pen behind the indentation of its line. -/
def openLine (p : Pen) : Pen :=
  if p.lineStart then
    let p := { p with lineStart := false }.put (indentation p.indent)
    match p.waiting with
    | some position => { p with waiting := none }.mark position
    | none => p
  else p

/-- Writes a text, after the indentation if it is the first of its line. -/
def write (p : Pen) (s : String) : Pen := if s.isEmpty then p else p.openLine.put s

/-- Ends the line, unless it is empty. -/
def endLine (p : Pen) : Pen :=
  if p.lineStart then { p with waiting := none }
  else
    { p with
      text := p.text ++ "\n"
      line := p.line + 1
      column := 0
      lineStart := true
      waiting := none }

/-- The characters of a text after its last line end, with the number of line ends. -/
def lastLine : List Char → Nat → List Char → Nat × List Char
  | [], lines, tail => (lines, tail)
  | '\r' :: '\n' :: cs, lines, _ => lastLine cs (lines + 1) ('\n' :: cs)
  | '\r' :: cs, lines, _ => lastLine cs (lines + 1) cs
  | '\n' :: cs, lines, _ => lastLine cs (lines + 1) cs
  | _ :: cs, lines, tail => lastLine cs lines tail

/-- Writes a text that may hold line ends of its own. -/
def writeLines (p : Pen) (s : String) : Pen :=
  let p := p.write s
  match lastLine s.toList 0 [] with
  | (0, _) => p
  | (lines, tail) => { p with line := p.line + lines, column := tail.length }

/-- Marks the place of the pen, or of the first text of the line. -/
def markAt (p : Pen) (position : Nat) : Pen :=
  if position = 0 then p
  else if p.lineStart then { p with waiting := some position }
  else p.mark position

/-- The pen after a stroke. -/
def stroke (p : Pen) : Stroke → Pen
  | .write s => p.write s
  | .writeLines s => p.writeLines s
  | .endLine => p.endLine
  | .indent => { p with indent := p.indent + 1 }
  | .outdent => { p with indent := p.indent - 1 }
  | .mark position => p.markAt position
  | .marked span s => ((p.openLine.mark span.lo).put s).mark span.hi
  | .literal span s => ((p.mark span.lo).writeLines s).mark span.hi

end Pen

/-- The strokes so far, the last one first, and the comments not yet written. -/
structure Draft where
  strokes : List Stroke
  comments : Comments

abbrev Print := StateM Draft

def draw (stroke : Stroke) : Print Unit :=
  modify fun d => { d with strokes := stroke :: d.strokes }

/-- Writes a text. -/
def put (s : String) : Print Unit := draw (.write s)

def putLines (s : String) : Print Unit := draw (.writeLines s)

def blank : Print Unit := put " "

def endLine : Print Unit := draw .endLine

/-- Writes with lines indented one step further. -/
def indented (inner : Print Unit) : Print Unit := do
  draw .indent
  inner
  draw .outdent

def markAt (position : Nat) : Print Unit := draw (.mark position)

def markStart (t : Tree) : Print Unit := markAt t.span.lo

def markEnd (t : Tree) : Print Unit := markAt t.span.hi

/-- Marks the bracket that closes a node. -/
def markClosing (t : Tree) : Print Unit :=
  if t.span.isNowhere then pure () else markAt (t.span.hi - 1)

/-- Writes a text with marks at both of its ends. -/
def putMarked (span : Span) (s : String) : Print Unit :=
  if span.isNowhere then put s else draw (.marked span s)

/-- Writes a text with marks at both of its ends, the first of them before any indentation. -/
def putLiteral (span : Span) (s : String) : Print Unit :=
  if span.isNowhere then putLines s else draw (.literal span s)

/-- Writes comments, each behind a blank if `spaced`. -/
def putComments (spaced : Bool) : List Comment → Print Unit
  | [] => pure ()
  | c :: rest => do
    if spaced then put " "
    if c.isLine then
      markAt c.span.lo
      putLines ("//" ++ c.text)
      markAt c.span.hi
      endLine
    else
      markAt c.span.lo
      putLines "/*"
      putLines c.text
      markAt (c.span.hi - 2)
      putLines "*/"
      blank
    putComments spaced rest

/-- Writes the comments that lead the token at a position. -/
def leadingAt (position : Nat) : Print Unit := do
  let table := (← get).comments.leading
  let cs := table.at_ position
  if !cs.isEmpty then
    modify fun d => { d with comments.leading := table.remove position }
    putComments false cs

/-- Writes the comments that trail the token before a position. -/
def trailingAt (position : Nat) : Print Unit := do
  let table := (← get).comments.trailing
  let cs := table.at_ position
  if !cs.isEmpty then
    modify fun d => { d with comments.trailing := table.remove position }
    putComments true cs

def leading (t : Tree) : Print Unit := leadingAt t.span.lo

def trailing (t : Tree) : Print Unit := trailingAt t.span.hi

/-! ## Lists -/

/-- How the items of a list stand. -/
structure Arrangement where
  separator : String := ""
  /-- a blank behind each separator -/
  spaced : Bool := false
  /-- each item on lines of its own -/
  lines : Bool := false
  /-- a line end behind the last item -/
  closingLine : Bool := true
  indented : Bool := false
  /-- blanks inside the brackets -/
  padded : Bool := false
  /-- the last item has a separator too -/
  closingSeparator : Bool := false

namespace Arrangement

/-- Items separated by commas on one line. -/
def commas : Arrangement := { separator := ",", spaced := true }

/-- Items on lines of their own. -/
def block : Arrangement := { lines := true, indented := true }

/-- Items on lines of their own, separated by commas. -/
def commaBlock : Arrangement := { block with separator := "," }

/-- Items between blanks and separated by commas. -/
def paddedCommas : Arrangement := { commas with padded := true }

end Arrangement

/-- Items with what stands between them. -/
def separated (a : Arrangement) : List (Print Unit) → Print Unit
  | [] => pure ()
  | [item] => item
  | item :: rest => do
    item
    put a.separator
    if a.lines then endLine else if a.spaced then blank
    separated a rest

/-- The inside of a list. -/
def putList (a : Arrangement) (items : List (Print Unit)) : Print Unit := do
  if items.isEmpty then
    if a.lines then endLine else if a.padded then blank
  else
    if a.lines then endLine else if a.padded then blank
    let inner : Print Unit := do
      separated a items
      if a.closingSeparator then
        put a.separator
        blank
    if a.indented then indented inner else inner
    if a.lines then
      if a.closingLine then endLine
    else if a.padded then blank

end RouteManifest.Script.Printer
