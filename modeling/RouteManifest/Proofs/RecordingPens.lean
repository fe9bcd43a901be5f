import RouteManifest.Script.Printer.Module

/-!
# Marks and the written text

A pen that records marks writes what one that does not record writes. Marks are taken at places
between texts, and the mark that waits for the first text of a line waits beside the text: of what
is written next, only the text so far, the indentation and whether a line was begun decide.
-/

namespace RouteManifest.Script.Printer

namespace Pen

/-- Two pens have written the same and stand at the same place of their lines. -/
structure SameText (p q : Pen) : Prop where
  text : p.text = q.text
  indent : p.indent = q.indent
  lineStart : p.lineStart = q.lineStart

namespace SameText

variable {p q : Pen}

theorem put (same : SameText p q) (s : String) : SameText (p.put s) (q.put s) where
  text := congrArg (· ++ s) same.text
  indent := same.indent
  lineStart := same.lineStart

/-- A mark is nothing to the text, kept or not. -/
theorem mark_left (p : Pen) (position : Nat) : SameText (p.mark position) p := by
  unfold Pen.mark
  dsimp only
  split
  · exact ⟨rfl, rfl, rfl⟩
  · exact ⟨rfl, rfl, rfl⟩

theorem trans {r : Pen} (first : SameText p q) (second : SameText q r) : SameText p r :=
  ⟨first.text.trans second.text, first.indent.trans second.indent,
    first.lineStart.trans second.lineStart⟩

theorem symm (same : SameText p q) : SameText q p :=
  ⟨same.text.symm, same.indent.symm, same.lineStart.symm⟩

theorem mark (same : SameText p q) (position : Nat) :
    SameText (p.mark position) (q.mark position) :=
  ((mark_left p position).trans same).trans (mark_left q position).symm

theorem markAt_left (p : Pen) (position : Nat) : SameText (p.markAt position) p := by
  unfold Pen.markAt
  split
  · exact ⟨rfl, rfl, rfl⟩
  · split
    · exact ⟨rfl, rfl, rfl⟩
    · exact mark_left p position

theorem markAt (same : SameText p q) (position : Nat) :
    SameText (p.markAt position) (q.markAt position) :=
  ((markAt_left p position).trans same).trans (markAt_left q position).symm

/-- The mark that waits is set behind the indentation and leaves it alone. -/
theorem openLine_left {p : Pen} (start : p.lineStart = true) :
    SameText p.openLine ({ p with lineStart := false }.put (indentation p.indent)) := by
  unfold Pen.openLine
  rw [if_pos start]
  dsimp only
  split
  · exact (mark_left _ _).trans ⟨rfl, rfl, rfl⟩
  · exact ⟨rfl, rfl, rfl⟩

theorem openLine (same : SameText p q) : SameText p.openLine q.openLine := by
  by_cases start : p.lineStart = true
  · have start' : q.lineStart = true := same.lineStart ▸ start
    refine (openLine_left start).trans (trans ?_ (openLine_left start').symm)
    have opened : SameText { p with lineStart := false } { q with lineStart := false } :=
      ⟨same.text, same.indent, rfl⟩
    rw [← congrArg indentation same.indent]
    exact opened.put _
  · have start' : ¬ q.lineStart = true := same.lineStart ▸ start
    rw [Pen.openLine, Pen.openLine, if_neg start, if_neg start']
    exact same

theorem write (same : SameText p q) (s : String) : SameText (p.write s) (q.write s) := by
  unfold Pen.write
  split
  · exact same
  · exact same.openLine.put s

theorem endLine (same : SameText p q) : SameText p.endLine q.endLine := by
  by_cases start : p.lineStart = true
  · have start' : q.lineStart = true := same.lineStart ▸ start
    rw [Pen.endLine, Pen.endLine, if_pos start, if_pos start']
    exact ⟨same.text, same.indent, same.lineStart⟩
  · have start' : ¬ q.lineStart = true := same.lineStart ▸ start
    rw [Pen.endLine, Pen.endLine, if_neg start, if_neg start']
    exact ⟨congrArg (· ++ "\n") same.text, same.indent, rfl⟩

theorem writeLines_left (p : Pen) (s : String) : SameText (p.writeLines s) (p.write s) := by
  unfold Pen.writeLines
  dsimp only
  split
  · exact ⟨rfl, rfl, rfl⟩
  · exact ⟨rfl, rfl, rfl⟩

theorem writeLines (same : SameText p q) (s : String) :
    SameText (p.writeLines s) (q.writeLines s) :=
  ((writeLines_left p s).trans (same.write s)).trans (writeLines_left q s).symm

/-- One stroke takes pens with the same text to pens with the same text. -/
theorem stroke (same : SameText p q) (s : Stroke) : SameText (p.stroke s) (q.stroke s) := by
  cases s with
  | write s => exact same.write s
  | writeLines s => exact same.writeLines s
  | endLine => exact same.endLine
  | indent => exact ⟨same.text, congrArg (· + 1) same.indent, same.lineStart⟩
  | outdent => exact ⟨same.text, congrArg (· - 1) same.indent, same.lineStart⟩
  | mark position => exact same.markAt position
  | marked span s => exact ((same.openLine.mark span.lo).put s).mark span.hi
  | literal span s => exact ((same.mark span.lo).writeLines s).mark span.hi

theorem strokes (same : SameText p q) (strokes : List Stroke) :
    SameText (strokes.foldl Pen.stroke p) (strokes.foldl Pen.stroke q) := by
  induction strokes generalizing p q with
  | nil => exact same
  | cons s rest ih => exact ih (same.stroke s)

end SameText

end Pen

/-- A module is written with the same text whether marks are recorded or not. -/
theorem text_pen (records : Bool) (m : Module) (comments : Comments) :
    (pen records m comments).text = (pen false m comments).text := by
  have start : Pen.SameText (Pen.start records) (Pen.start false) := ⟨rfl, rfl, rfl⟩
  exact (start.strokes (strokes m comments)).text

end RouteManifest.Script.Printer
