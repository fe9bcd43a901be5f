import RouteManifest.Proofs.Quoting
import RouteManifest.Proofs.RecordingPens
import RouteManifest.Routes.Shape

/-!
# Writing export names

The strokes that write the property of export names, and the text that they come to: the key and the
array on the line of the property, and the quoted names on lines of their own, indented one step
further.
-/

namespace RouteManifest.Script.Printer

open Routes

/-- No comment belongs to the place of what was not in the source. -/
structure Quiet (comments : Comments) : Prop where
  leading : comments.leading.at_ 0 = []
  trailing : comments.trailing.at_ 0 = []

/-- The work draws the strokes, in order, takes no comment and comes to a value. -/
def Draws {α : Type} (p : Print α) (strokes : List Stroke) (a : α) : Prop :=
  ∀ d : Draft, Quiet d.comments → p d = (a, { d with strokes := strokes.reverse ++ d.strokes })

section

variable {α β : Type} {p : Print α} {f : α → Print β} {first second : List Stroke} {a : α} {b : β}

theorem Draws.bind (draws : Draws p first a) (draws' : Draws (f a) second b) :
    Draws (p >>= f) (first ++ second) b := by
  intro d quiet
  have run : (p >>= f) d = f (p d).1 (p d).2 := rfl
  rw [run, draws d quiet]
  exact (draws' { d with strokes := first.reverse ++ d.strokes } quiet).trans (by simp)

end

theorem draws_pure {α : Type} (a : α) : Draws (pure a) [] a := fun _ _ => rfl

theorem draws_draw (stroke : Stroke) : Draws (draw stroke) [stroke] () := fun _ _ => rfl

theorem draws_leadingAt : Draws (leadingAt 0) [] () := by
  intro d quiet
  have run : leadingAt 0 d =
      (if !(d.comments.leading.at_ 0).isEmpty then _ else pure () : Print Unit) d := rfl
  rw [run, quiet.leading]
  rfl

theorem draws_trailingAt : Draws (trailingAt 0) [] () := by
  intro d quiet
  have run : trailingAt 0 d =
      (if !(d.comments.trailing.at_ 0).isEmpty then _ else pure () : Print Unit) d := rfl
  rw [run, quiet.trailing]
  rfl

theorem draws_anyOf_head {w : Tree → Print Bool} {ws : List (Tree → Print Bool)} {t : Tree}
    {strokes : List Stroke} (draws : Draws (w t) strokes true) :
    Draws (anyOf (w :: ws) t) strokes () := by
  have all := draws.bind (f := fun taken => if !taken then anyOf ws t else pure ()) (draws_pure ())
  rw [List.append_nil] at all
  exact all

theorem draws_anyOf_tail {w : Tree → Print Bool} {ws : List (Tree → Print Bool)} {t : Tree}
    {strokes : List Stroke} (none : Draws (w t) [] false) (draws : Draws (anyOf ws t) strokes ()) :
    Draws (anyOf (w :: ws) t) strokes () :=
  none.bind (f := fun taken => if !taken then anyOf ws t else pure ()) draws

/-! ## The strokes of the property -/

/-- The literal of a name. -/
def literalOf (name : String) : Tree := .node (.stringLit name none) .nowhere []

def nameStrokes (name : String) : List Stroke := [.mark 0, .writeLines (quoted name)]

/-- The strokes of names, each of which stands on a line of its own. -/
def namesStrokes : List String → List Stroke
  | [] => []
  | [name] => nameStrokes name
  | name :: next :: names =>
    nameStrokes name ++ .write "," :: .endLine :: namesStrokes (next :: names)

/-- The strokes between the brackets. -/
def insideStrokes (names : List String) : List Stroke :=
  if names.isEmpty then []
  else .endLine :: .indent :: (namesStrokes names ++ [.outdent, .endLine])

def arrayStrokes (names : List String) : List Stroke :=
  .mark 0 :: .write "[" :: (insideStrokes names ++ [.write "]", .mark 0])

def propertyStrokes (names : List String) : List Stroke :=
  .mark 0 :: .mark 0 :: .write exportsKey :: .mark 0 :: .write ": " :: .mark 0 :: arrayStrokes names

theorem draws_literal (n : Nat) (name : String) :
    Draws (write (n + 1) (literalOf name)) (nameStrokes name) () := by
  have body : Draws (literal (write n) (literalOf name)) (nameStrokes name) true :=
    (draws_draw _).bind ((draws_draw _).bind (draws_pure true))
  exact draws_leadingAt.bind (draws_anyOf_head body)

theorem draws_item (n : Nat) (name : String) :
    Draws (item (write (n + 1)) (literalOf name)) (nameStrokes name) () := by
  have all : Draws (full (write (n + 1)) (literalOf name)) (nameStrokes name ++ []) () :=
    (draws_literal n name).bind draws_trailingAt
  rw [List.append_nil] at all
  exact all

theorem draws_separated (n : Nat) (names : List String) :
    Draws (separated .commaBlock (names.map fun name => item (write (n + 1)) (literalOf name)))
      (namesStrokes names) () := by
  induction names with
  | nil => exact draws_pure ()
  | cons name names ih =>
    cases names with
    | nil => exact draws_item n name
    | cons next names =>
      exact (draws_item n name).bind ((draws_draw _).bind ((draws_draw _).bind ih))

/-- Names are written between the brackets with a line end behind the last one too. -/
theorem draws_inside (n : Nat) (name : String) (names : List String) :
    Draws (putList { Arrangement.commaBlock with closingSeparator := false }
        ((name :: names).map fun name => item (write (n + 1)) (literalOf name)))
      (.endLine :: .indent :: (namesStrokes (name :: names) ++ [.outdent, .endLine])) () := by
  have shifted : Draws (draw .outdent >>= fun _ => draw .endLine) ([.outdent] ++ [.endLine]) () :=
    (draws_draw _).bind (draws_draw _)
  intro d quiet
  have run := ((draws_draw .endLine).bind (f := fun _ => _) ((draws_draw .indent).bind
    (f := fun _ => _) ((draws_separated n (name :: names)).bind (f := fun _ => _) shifted))) d quiet
  exact run

theorem draws_array (n : Nat) (names : List String) :
    Draws (write (n + 2) (.node .arrayLit .nowhere (names.map literalOf))) (arrayStrokes names)
      () := by
  let t : Tree := .node .arrayLit .nowhere (names.map literalOf)
  have noLiteral : Draws (literal (write (n + 1)) t) [] false := draws_pure false
  have noHole : ((names.map literalOf).getLast?.map Tree.isAbsent).getD false = false := by
    rw [List.getLast?_map]
    cases names.getLast? <;> rfl
  have body : Draws (expression (write (n + 1)) t) (arrayStrokes names) true := by
    cases names with
    | nil =>
      exact (draws_draw _).bind ((draws_draw _).bind ((draws_draw _).bind
        ((draws_draw _).bind (draws_pure true))))
    | cons name names =>
      have whole (hole : Bool) (none : hole = false) : Draws (do
          markStart t
          put "["
          putList { Arrangement.commaBlock with closingSeparator := hole }
            ((name :: names).map fun name => item (write (n + 1)) (literalOf name))
          put "]"
          markEnd t
          return true) (arrayStrokes (name :: names)) true := by
        subst none
        exact (draws_draw _).bind ((draws_draw _).bind ((draws_inside n name names).bind
          ((draws_draw _).bind ((draws_draw _).bind (draws_pure true)))))
      have same : ((name :: names).map literalOf).map (item (write (n + 1))) =
          (name :: names).map fun name => item (write (n + 1)) (literalOf name) := List.map_map
      rw [← same] at whole
      exact whole _ noHole
  exact draws_leadingAt.bind (draws_anyOf_tail noLiteral (draws_anyOf_head body))

theorem draws_key (n : Nat) :
    Draws (write (n + 1) (.node (.ident exportsKey 0 false) .nowhere []))
      [.mark 0, .write exportsKey] () := by
  have body : Draws (literal (write n) (.node (.ident exportsKey 0 false) .nowhere []))
      [.mark 0, .write exportsKey] true :=
    (draws_draw _).bind ((draws_draw _).bind (draws_pure true))
  exact draws_leadingAt.bind (draws_anyOf_head body)

/-- The property of export names is written as its key and its array. -/
theorem draws_exportsProperty (n : Nat) (names : List String) :
    Draws (write (n + 3) (exportsProperty names)) (propertyStrokes names) () := by
  have noLiteral : Draws (literal (write (n + 2)) (exportsProperty names)) [] false :=
    draws_pure false
  have noExpression : Draws (expression (write (n + 2)) (exportsProperty names)) [] false :=
    draws_pure false
  have array : Draws (full (write (n + 2)) (.node .arrayLit .nowhere (names.map literalOf)))
      (arrayStrokes names ++ []) () :=
    (draws_array n names).bind draws_trailingAt
  rw [List.append_nil] at array
  have value : Draws (do
      full (write (n + 2)) (.node .arrayLit .nowhere (names.map literalOf))
      return true) (arrayStrokes names ++ []) true := array.bind (draws_pure true)
  rw [List.append_nil] at value
  have body : Draws (objectProperty (write (n + 2)) (exportsProperty names))
      (propertyStrokes names) true :=
    (draws_draw _).bind ((draws_key (n + 1)).bind ((draws_draw _).bind ((draws_draw _).bind
      ((draws_draw _).bind value))))
  exact draws_leadingAt.bind
    (draws_anyOf_tail noLiteral (draws_anyOf_tail noExpression (draws_anyOf_head body)))

/-! ## The text of the property -/

/-- Where the pen stands: behind the text, with lines indented so far, and at the start of a line
or not. -/
structure Pen.Stands (p : Pen) (text : List Char) (depth : Nat) (lineStart : Bool) : Prop where
  text : p.text.toList = text
  indent : p.indent = depth
  lineStart : p.lineStart = lineStart

namespace Pen

variable {p q : Pen} {text : List Char} {depth : Nat} {lineStart : Bool}

theorem Stands.of_sameText (same : SameText p q) (stands : q.Stands text depth lineStart) :
    p.Stands text depth lineStart :=
  ⟨same.text ▸ stands.text, same.indent.trans stands.indent, same.lineStart.trans stands.lineStart⟩

/-- A mark is nothing to the text. -/
theorem Stands.mark (stands : p.Stands text depth lineStart) (position : Nat) :
    (p.stroke (.mark position)).Stands text depth lineStart :=
  .of_sameText (SameText.markAt_left p position) stands

/-- What is written stands behind the indentation if it is the first of its line. -/
theorem Stands.write (stands : p.Stands text depth lineStart) {s : String} (some_ : s ≠ "") :
    (p.stroke (.write s)).Stands
      (text ++ (if lineStart then (indentation depth).toList else []) ++ s.toList) depth false := by
  have full : ¬ s.isEmpty = true := by simpa using some_
  cases lineStart with
  | true =>
    refine .of_sameText
      (q := ({ p with lineStart := false }.put (indentation p.indent)).put s) ?_ ?_
    · change SameText (p.write s) _
      rw [Pen.write, if_neg full]
      exact (SameText.openLine_left stands.lineStart).put s
    · refine ⟨?_, stands.indent, rfl⟩
      simp [Pen.put, stands.text, stands.indent]
  | false =>
    have opened : p.openLine = p := if_neg (by simp [stands.lineStart])
    have run : p.stroke (.write s) = p.put s := by
      change p.write s = _
      rw [Pen.write, if_neg full, opened]
    rw [run]
    exact ⟨by simp [Pen.put, stands.text], stands.indent, stands.lineStart⟩

theorem Stands.writeLines (stands : p.Stands text depth lineStart) {s : String} (some_ : s ≠ "") :
    (p.stroke (.writeLines s)).Stands
      (text ++ (if lineStart then (indentation depth).toList else []) ++ s.toList) depth false :=
  .of_sameText (SameText.writeLines_left p s) (stands.write some_)

theorem Stands.endLine (stands : p.Stands text depth false) :
    (p.stroke .endLine).Stands (text ++ ['\n']) depth true := by
  have started : ¬ p.lineStart = true := by simp [stands.lineStart]
  have run : p.stroke .endLine = { p with
      text := p.text ++ "\n"
      line := p.line + 1
      column := 0
      lineStart := true
      waiting := none } := if_neg started
  rw [run]
  exact ⟨by simp [stands.text], stands.indent, rfl⟩

theorem Stands.indent_ (stands : p.Stands text depth lineStart) :
    (p.stroke .indent).Stands text (depth + 1) lineStart :=
  ⟨stands.text, congrArg (· + 1) stands.indent, stands.lineStart⟩

theorem Stands.outdent (stands : p.Stands text depth lineStart) :
    (p.stroke .outdent).Stands text (depth - 1) lineStart :=
  ⟨stands.text, congrArg (· - 1) stands.indent, stands.lineStart⟩

end Pen

/-- Quoted names, each on a line of its own. -/
def nameLines (depth : Nat) : List String → List Char
  | [] => []
  | [name] => (indentation depth).toList ++ (quoted name).toList
  | name :: next :: names =>
    (indentation depth).toList ++ (quoted name).toList ++ [','] ++ ['\n'] ++
      nameLines depth (next :: names)

/-- The text of the property, from the start of its line on. -/
def propertyText (depth : Nat) (names : List String) : List Char :=
  (indentation depth).toList ++ exportsKey.toList ++ [':', ' '] ++ ['['] ++
    (if names.isEmpty then []
      else ['\n'] ++ nameLines (depth + 1) names ++ ['\n'] ++ (indentation depth).toList) ++ [']']

namespace Pen

variable {p : Pen} {text : List Char} {depth : Nat}

theorem Stands.name (stands : p.Stands text depth true) (name : String) :
    ((nameStrokes name).foldl stroke p).Stands
      (text ++ (indentation depth).toList ++ (quoted name).toList) depth false := by
  have some_ : quoted name ≠ "" := by
    intro none
    have marks := congrArg List.length (toList_quoted name)
    rw [none] at marks
    simp at marks
  simpa [nameStrokes] using (stands.mark 0).writeLines some_

theorem Stands.names (stands : p.Stands text depth true) (name : String) (names : List String) :
    ((namesStrokes (name :: names)).foldl stroke p).Stands
      (text ++ nameLines depth (name :: names)) depth false := by
  induction names generalizing p text name with
  | nil =>
    rw [nameLines, ← List.append_assoc]
    exact stands.name name
  | cons next names ih =>
    have line := (((stands.name name).write (s := ",") (by decide)).endLine)
    have rest := ih line next
    rw [namesStrokes, List.foldl_append, nameLines]
    simpa using rest

/-- The strokes of the property come to its text. -/
theorem Stands.property (stands : p.Stands text depth true) (names : List String) :
    ((propertyStrokes names).foldl stroke p).Stands (text ++ propertyText depth names) depth
      false := by
  have key := ((stands.mark 0).mark 0).write (s := exportsKey) (by decide)
  have colon := (key.mark 0).write (s := ": ") (by decide)
  have opened := ((colon.mark 0).mark 0).write (s := "[") (by decide)
  rw [propertyStrokes, arrayStrokes, propertyText]
  cases names with
  | nil =>
    have closed := (opened.write (s := "]") (by decide)).mark 0
    simpa [insideStrokes] using closed
  | cons name names =>
    have inner := opened.endLine.indent_.names name names
    have closed := (inner.outdent.endLine.write (s := "]") (by decide)).mark 0
    simpa [insideStrokes] using closed

end Pen

/-! ## The route around the property -/

/-- Writes a list of which one item more follows. -/
def beforeLast (items : List (Print Unit)) : Print Unit :=
  items.forM fun item => do
    item
    put ","
    endLine

theorem separated_append (items : List (Print Unit)) (last : Print Unit) :
    separated .commaBlock (items ++ [last]) = beforeLast items >>= fun _ => last := by
  induction items with
  | nil => rfl
  | cons item rest ih =>
    obtain ⟨next, more, same⟩ : ∃ next more, rest ++ [last] = next :: more := by
      cases rest with
      | nil => exact ⟨_, _, rfl⟩
      | cons next rest => exact ⟨_, _, rfl⟩
    have step : separated .commaBlock (item :: (rest ++ [last])) = (do
        item
        put ","
        endLine
        separated .commaBlock (rest ++ [last])) := by
      rw [same]
      rfl
    rw [List.cons_append, step, ih]
    simp [beforeLast, List.forM_cons]

theorem putList_append (items : List (Print Unit)) (last : Print Unit) :
    putList .commaBlock (items ++ [last]) = (do
      endLine
      draw .indent
      beforeLast items
      last
      draw .outdent
      endLine) := by
  have some_ : ¬ (items ++ [last]).isEmpty = true := by simp
  have lines : putList .commaBlock (items ++ [last]) = (do
      endLine
      indented (do
        separated .commaBlock (items ++ [last])
        pure ())
      endLine) := if_neg some_
  rw [lines, separated_append]
  simp [indented]

/-- Writes a route up to the property that is appended to it. -/
def openRoute (n : Nat) (span : Span) (parts : List Tree) : Print Unit := do
  leadingAt span.lo
  markAt span.lo
  put "\x7b"
  endLine
  draw .indent
  beforeLast (parts.map (write n))

/-- Writes a route from behind the property that is appended to it. -/
def closeRoute (span : Span) : Print Unit := do
  draw .outdent
  endLine
  markClosing (.node .objectLit span [])
  put "\x7d"

/-- A route is written with the property on a line of its own, before the closing brace. -/
theorem write_withExports (n : Nat) (span : Span) (parts : List Tree) (names : List String) :
    write (n + 1) (withExports names (.node .objectLit span parts)) = (do
      openRoute n span parts
      write n (exportsProperty names)
      closeRoute span) := by
  let t : Tree := .node .objectLit span (parts ++ [exportsProperty names])
  have some_ : (parts ++ [exportsProperty names]).isEmpty = false := by simp
  have body : expression (write n) t = (do
      markAt span.lo
      put "\x7b"
      endLine
      draw .indent
      beforeLast (parts.map (write n))
      write n (exportsProperty names)
      closeRoute span
      return true) := by
    have unfolded : expression (write n) t = (do
        markAt span.lo
        put "\x7b"
        if !(parts ++ [exportsProperty names]).isEmpty then
          putList .commaBlock ((parts ++ [exportsProperty names]).map (write n))
        markClosing t
        put "\x7d"
        return true) := rfl
    have closing : markClosing t = markClosing (.node .objectLit span []) := rfl
    rw [unfolded, some_, List.map_append, List.map_singleton, putList_append, closing]
    simp [closeRoute]
  obtain ⟨others, chosen⟩ : ∃ others, write (n + 1) t = (do
      leading t
      if !(← literal (write n) t) then
        if !(← expression (write n) t) then anyOf others t) := ⟨_, rfl⟩
  have noLiteral : literal (write n) t = pure false := rfl
  change write (n + 1) t = _
  rw [chosen, noLiteral, body]
  simp [openRoute, leading, t, Tree.span]

/-- The pen after the strokes of a draft. -/
def Draft.pen (d : Draft) (p : Pen) : Pen := d.strokes.reverse.foldl Pen.stroke p

theorem Draft.pen_append (d : Draft) (strokes : List Stroke) (p : Pen) :
    Draft.pen { d with strokes := strokes.reverse ++ d.strokes } p =
      strokes.foldl Pen.stroke (d.pen p) := by
  simp [Draft.pen]

theorem Pen.lineStart_endLine (p : Pen) : p.endLine.lineStart = true := by
  unfold Pen.endLine
  split
  · assumption
  · rfl

/-- Behind the items before the last one, a new line begins. -/
theorem lineStart_beforeLast (items : List (Print Unit)) {d : Draft} {p : Pen}
    (start : (d.pen p).lineStart = true) : ((beforeLast items d).2.pen p).lineStart = true := by
  induction items generalizing d with
  | nil => exact start
  | cons item rest ih =>
    have run : beforeLast (item :: rest) d =
        beforeLast rest (endLine (put "," (item d).2).2).2 := rfl
    rw [run]
    refine ih ?_
    generalize (put "," (item d).2).2 = d'
    have ended := Draft.pen_append d' [.endLine] p
    exact (congrArg Pen.lineStart ended).trans (Pen.lineStart_endLine _)

/-- The appended property begins a line. -/
theorem lineStart_openRoute (n : Nat) (span : Span) (parts : List Tree) (d : Draft) (p : Pen) :
    ((openRoute n span parts d).2.pen p).lineStart = true := by
  obtain ⟨d', run⟩ : ∃ d', openRoute n span parts d =
      beforeLast (parts.map (write n)) (draw .indent (endLine d').2).2 := ⟨_, rfl⟩
  rw [run]
  refine lineStart_beforeLast _ ?_
  have ended := Draft.pen_append d' [.endLine, .indent] p
  exact (congrArg Pen.lineStart ended).trans (Pen.lineStart_endLine _)

def closeStrokes (span : Span) : List Stroke :=
  .outdent :: .endLine ::
    ((if span.isNowhere then [] else [.mark (span.hi - 1)]) ++ [.write "\x7d"])

theorem draws_closeRoute (span : Span) : Draws (closeRoute span) (closeStrokes span) () := by
  have mark : Draws (markClosing (.node .objectLit span []))
      (if span.isNowhere then [] else [.mark (span.hi - 1)]) () := by
    change Draws (if span.isNowhere then pure () else draw (.mark (span.hi - 1))) _ _
    split
    · exact draws_pure ()
    · exact draws_draw _
  exact (draws_draw _).bind ((draws_draw _).bind (mark.bind (draws_draw _)))

theorem Pen.Stands.close {p : Pen} {text : List Char} {depth : Nat}
    (stands : p.Stands text depth false) (span : Span) :
    ((closeStrokes span).foldl Pen.stroke p).Stands
      (text ++ ['\n'] ++ (indentation (depth - 1)).toList ++ ['\x7d']) (depth - 1) false := by
  have line := stands.outdent.endLine
  have marked : (((if span.isNowhere then [] else [.mark (span.hi - 1)]) : List Stroke).foldl
      Pen.stroke ((p.stroke .outdent).stroke .endLine)).Stands (text ++ ['\n']) (depth - 1)
        true := by
    split
    · exact line
    · exact line.mark _
  have closed := marked.write (s := "\x7d") (by decide)
  simpa [closeStrokes] using closed

/-- What is written for a route from the appended property on. -/
theorem text_withExports (n : Nat) (span : Span) (parts : List Tree) (names : List String)
    {d : Draft} (quiet : Quiet (openRoute (n + 3) span parts d).2.comments) (p : Pen) :
    let q := (openRoute (n + 3) span parts d).2.pen p
    ((write (n + 4) (withExports names (.node .objectLit span parts)) d).2.pen p).text =
      q.text ++ String.ofList (propertyText q.indent names ++
        (['\n'] ++ (indentation (q.indent - 1)).toList ++ ['\x7d'])) := by
  intro q
  have drawn := ((draws_exportsProperty n names).bind (f := fun _ => closeRoute span)
    (draws_closeRoute span)) _ quiet
  have run : write (n + 4) (withExports names (.node .objectLit span parts)) d =
      (write (n + 3) (exportsProperty names) >>= fun _ => closeRoute span)
        (openRoute (n + 3) span parts d).2 := by
    rw [write_withExports]
    rfl
  have stands : q.Stands q.text.toList q.indent true :=
    ⟨rfl, rfl, lineStart_openRoute (n + 3) span parts d p⟩
  rw [run, drawn, Draft.pen_append, List.foldl_append, ← String.toList_inj,
    ((stands.property names).close span).text]
  simp

end RouteManifest.Script.Printer
