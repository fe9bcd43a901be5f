import Mathlib.Data.Nat.Count
import Mathlib.Data.Nat.Find
import Mathlib.Data.Nat.SuccPred
import Mathlib.Data.Prod.Lex
import RouteManifest.Proofs.Failures

/-!
# Where boundaries are shown

A boundary of a text lies between two of its characters, or at one of its ends. Bytes tell
boundaries apart; positions count the characters before them. The line of a boundary is the number
of terminators that end at it or before, its column the length in UTF-16 of what lies between the
last of these terminators and the boundary. A terminator that closes the text opens no line: the end
of the text stands behind it in the last line. So boundaries are shown in the order in which they
lie, and no two of them at one location.
-/

namespace RouteManifest

/-- Line and column, in the order of a text. -/
def Location.place (l : Location) : ℕ ×ₗ ℕ := toLex (l.line, l.column)

namespace Source

/-- A line terminator ends behind the first `n` characters of a text: a line feed does, whether or
not a carriage return stands before it, and a carriage return that no line feed follows. -/
def TerminatorEnds (text : List Char) : Nat → Prop
  | 0 => False
  | n + 1 => text[n]? = some '\n' ∨ text[n]? = some '\r' ∧ text[n + 1]? ≠ some '\n'

instance (text : List Char) : DecidablePred (TerminatorEnds text)
  | 0 => .isFalse id
  | _ + 1 => inferInstanceAs (Decidable (_ ∨ _))

/-- How many line terminators end behind `n` characters or before. -/
def terminatorsBy (text : List Char) (n : Nat) : Nat := Nat.count (TerminatorEnds text) (n + 1)

/-- Where the last line terminator ends that does so behind `n` characters or before; if there is
none, the start of the text. -/
def lineStart (text : List Char) (n : Nat) : Nat := Nat.findGreatest (TerminatorEnds text) n

/-- The length in UTF-16, where characters from U+10000 on count twice. -/
def utf16Length (cs : List Char) : Nat := cs.length + cs.countP (0x10000 ≤ ·.toNat)

variable {text cs : List Char} {c : Char} {n : Nat}

theorem terminatorEnds_cons_one : TerminatorEnds (c :: cs) 1 ↔ endsLine c cs = true := by
  simp [TerminatorEnds, endsLine, List.head?_eq_getElem?]

theorem terminatorEnds_cons : TerminatorEnds (c :: cs) (n + 2) ↔ TerminatorEnds cs (n + 1) := by
  simp only [TerminatorEnds, List.getElem?_cons_succ]

theorem terminatorsBy_zero : terminatorsBy text 0 = 0 :=
  (Nat.count_one _).trans (if_neg id)

theorem terminatorsBy_succ :
    terminatorsBy text (n + 1) =
      terminatorsBy text n + if TerminatorEnds text (n + 1) then 1 else 0 :=
  Nat.count_succ _ _

theorem lineStart_succ :
    lineStart text (n + 1) = if TerminatorEnds text (n + 1) then n + 1 else lineStart text n :=
  Nat.findGreatest_succ n

theorem lineStart_le : lineStart text n ≤ n := Nat.findGreatest_le n

theorem units_pos (c : Char) : 0 < units c := by
  unfold units
  split <;> decide

theorem utf16Length_append_singleton : utf16Length (cs ++ [c]) = utf16Length cs + units c := by
  simp only [utf16Length, units, List.length_append, List.countP_append, List.length_singleton,
    List.countP_singleton, decide_eq_true_eq]
  split <;> omega

theorem extract_append_getElem {start : Nat} (behind : start ≤ n) (inside : n < text.length) :
    text.extract start n ++ [text[n]] = text.extract start (n + 1) := by
  have shorter : n - start < (text.drop start).length := by
    rw [List.length_drop]
    omega
  rw [List.extract_eq_take_drop, List.extract_eq_take_drop, Nat.succ_sub behind,
    List.take_succ_eq_append_getElem shorter, List.getElem_drop]
  simp only [Nat.add_sub_cancel' behind]

/-- Behind a character begins the next line if a terminator ends there and the text goes on, and
else the line goes on by as many columns as the character takes. -/
theorem advance_succ (inside : n < text.length) (line column : Nat) :
    advance text (n + 1) line column =
      if TerminatorEnds text (n + 1) ∧ n + 1 < text.length then
        ((advance text n line column).1 + 1, 0)
      else ((advance text n line column).1, (advance text n line column).2 + units text[n]) := by
  induction text generalizing n line column with
  | nil => cases inside
  | cons c cs ih =>
    cases n with
    | zero =>
      cases cs with
      | nil => simp [advance]
      | cons d ds => simp [advance, terminatorEnds_cons_one]
    | succ n =>
      have within : n < cs.length := Nat.lt_of_succ_lt_succ inside
      simp only [terminatorEnds_cons, List.length_cons, List.getElem_cons_succ,
        Nat.add_lt_add_iff_right]
      -- both sides take the first character, and the rest is counted on from there
      by_cases opens : (endsLine c cs && !cs.isEmpty) = true
      · simp only [advance, if_pos opens]
        exact ih within (line + 1) 0
      · simp only [advance, if_neg opens]
        exact ih within line (column + units c)

theorem lineColumn_succ (inside : n < text.length) :
    lineColumn text (n + 2) =
      if TerminatorEnds text (n + 1) ∧ n + 1 < text.length then
        ((lineColumn text (n + 1)).1 + 1, 0)
      else ((lineColumn text (n + 1)).1, (lineColumn text (n + 1)).2 + units text[n]) :=
  advance_succ inside 0 0

/-- Before the end of a text, lines are counted by terminators, and columns from the last
terminator on. -/
theorem lineColumn_eq (inside : n < text.length) :
    lineColumn text (n + 1) =
      (terminatorsBy text n, utf16Length (text.extract (lineStart text n) n)) := by
  induction n with
  | zero =>
    obtain ⟨c, cs, rfl⟩ := List.exists_cons_of_length_pos inside
    simp [lineColumn, advance, terminatorsBy_zero, lineStart, utf16Length]
  | succ n ih =>
    have before : n < text.length := Nat.lt_of_succ_lt inside
    rw [lineColumn_succ before, ih before, terminatorsBy_succ, lineStart_succ]
    by_cases ends : TerminatorEnds text (n + 1)
    · rw [if_pos ⟨ends, inside⟩, if_pos ends, if_pos ends]
      simp [utf16Length]
    · rw [if_neg (fun opens => ends opens.1), if_neg ends, if_neg ends,
        ← extract_append_getElem lineStart_le before, utf16Length_append_singleton]
      rfl

example : lineColumn "a\rb\r\nc\u2028de".toList 9 = (2, 3) := by decide

theorem lineColumn_lt_succ (inside : n < text.length) :
    toLex (lineColumn text (n + 1)) < toLex (lineColumn text (n + 2)) := by
  rw [lineColumn_succ inside, Prod.Lex.toLex_lt_toLex]
  split
  · exact Or.inl (Nat.lt_succ_self _)
  · exact Or.inr ⟨rfl, Nat.lt_add_of_pos_right (units_pos _)⟩

/-- Up to the end of a text, each position is shown behind all that lie before it. -/
theorem lineColumn_strictMonoOn :
    StrictMonoOn (fun n => toLex (lineColumn text (n + 1))) (Set.Iic text.length) :=
  strictMonoOn_of_lt_add_one Set.ordConnected_Iic fun _ _ _ inside => lineColumn_lt_succ inside

theorem place_ofPosition (file : String) (text : List Char) (position : Nat) :
    (Location.ofPosition file text position).place = toLex (lineColumn text position) :=
  rfl

section

variable {s : String} {p q : s.Pos}

/-- How many characters lie before a boundary. -/
def index (p : s.Pos) : Nat := (s.sliceTo p).copy.length

theorem index_of_splits {before after : String} (h : p.Splits before after) :
    index p = before.length := by
  rw [index, h.copy_sliceTo_eq]

theorem index_endPos : index s.endPos = s.toList.length := by
  rw [index_of_splits s.splits_endPos, String.length_toList]

theorem index_le_length (p : s.Pos) : index p ≤ s.toList.length := by
  have whole : s.length = index p + (s.sliceFrom p).copy.length := by
    rw [index, ← String.length_append, ← p.splits.eq_append]
  rw [String.length_toList, whole]
  exact Nat.le_add_right _ _

theorem index_lt_index (h : p < q) : index p < index q := by
  obtain ⟨between, nonempty, longer, -⟩ := (p.splits.lt_iff_exists_eq_append q.splits).mp h
  have some : between.length ≠ 0 := fun none => nonempty (String.length_eq_zero_iff.mp none)
  rw [index, index, longer, String.length_append]
  exact Nat.lt_add_of_pos_right (Nat.pos_of_ne_zero some)

/-- Boundaries lie in the order of their bytes as in that of the characters before them. -/
theorem index_lt_index_iff : index p < index q ↔ p < q := by
  refine ⟨fun less => ?_, index_lt_index⟩
  rcases Std.lt_trichotomy p q with before | rfl | behind
  · exact before
  · exact absurd less (Nat.lt_irrefl _)
  · exact absurd less (Nat.lt_asymm (index_lt_index behind))

theorem index_lt_length (h : p ≠ s.endPos) : index p < s.toList.length := by
  rw [← index_endPos]
  exact index_lt_index (by simpa using h)

end

/-- The text that is read from a source. -/
def readText (source : String) : String := .ofList (withoutMark source.toList)

/-- Where a span is shown that starts at a boundary of the text that is read from a source. -/
def boundaryLocation (file source : String) (p : (readText source).Pos) : Location :=
  .ofPosition file (readText source).toList (index p + 1)

theorem place_boundaryLocation_lt_iff (file : String) {source : String}
    {p q : (readText source).Pos} :
    (boundaryLocation file source p).place < (boundaryLocation file source q).place ↔ p < q := by
  rw [boundaryLocation, boundaryLocation, place_ofPosition, place_ofPosition,
    ← index_lt_index_iff]
  exact lineColumn_strictMonoOn.lt_iff_lt (index_le_length p) (index_le_length q)

theorem boundaryLocation_injective (file source : String) :
    Function.Injective (boundaryLocation file source) := by
  have unordered : ∀ {p q : (readText source).Pos},
      boundaryLocation file source p = boundaryLocation file source q → ¬ p < q := by
    intro p q same before
    have ordered := (place_boundaryLocation_lt_iff file).mpr before
    rw [same] at ordered
    exact lt_irrefl _ ordered
  intro p q same
  exact Std.le_antisymm (Std.not_lt.mp (unordered same.symm)) (Std.not_lt.mp (unordered same))

/-- A boundary before the end of the text is shown at the line that counts the terminators up to it,
and at the column that is its distance from the last of them. Of all boundaries, the end included,
those that lie behind others are shown behind them, and those alone; no two share a location. -/
theorem boundaryLocation_eq_and_place_lt_iff (file source : String) :
    (∀ p : (readText source).Pos, p ≠ (readText source).endPos →
      boundaryLocation file source p =
        ⟨file, terminatorsBy (readText source).toList (index p),
          utf16Length ((readText source).toList.extract
            (lineStart (readText source).toList (index p)) (index p))⟩) ∧
    (∀ p q : (readText source).Pos,
      (boundaryLocation file source p).place < (boundaryLocation file source q).place ↔ p < q) ∧
    Function.Injective (boundaryLocation file source) := by
  refine ⟨?_, ?_, boundaryLocation_injective file source⟩
  · intro p inside
    rw [boundaryLocation, Location.ofPosition, lineColumn_eq (index_lt_length inside)]
  · intro p q
    exact place_boundaryLocation_lt_iff file

/-- A source with a byte order mark, both characters of a terminator, a character of four bytes, and
a terminator at the end. -/
def markedSource : String := "\uFEFFa\r\n😀b\n"

/-- Seven bytes into the text, behind the character of four, two columns of the second line are
passed; the end is shown further on. -/
theorem boundaryLocation_markedSource :
    ∃ p : (readText markedSource).Pos, p ≠ (readText markedSource).endPos ∧
      p.offset.byteIdx = 7 ∧ boundaryLocation "r.js" markedSource p = ⟨"r.js", 1, 2⟩ ∧
      (boundaryLocation "r.js" markedSource p).place <
        (boundaryLocation "r.js" markedSource (readText markedSource).endPos).place := by
  have parts : readText markedSource = "a\r\n😀" ++ "b\n" := by
    rw [← String.toList_inj, readText, String.toList_ofList, String.toList_append]
    decide +kernel
  have splits := String.Pos.splits_ofEqAppend parts
  have inside : String.Pos.ofEqAppend parts ≠ (readText markedSource).endPos := by
    rw [ne_eq, splits.eq_endPos_iff]
    decide
  obtain ⟨shown, ordered, -⟩ := boundaryLocation_eq_and_place_lt_iff "r.js" markedSource
  refine ⟨.ofEqAppend parts, inside, ?_, ?_, ?_⟩
  · rw [splits.offset_eq_rawEndPos]
    decide
  · rw [shown _ inside, index_of_splits splits]
    decide +kernel
  · exact (ordered _ _).mpr (by simpa using inside)

end Source

namespace Routes

/-- A routes file with characters of four bytes before a call that fails. -/
def pairedFile : RoutesFile :=
  .ofText ⟨"r.js"⟩
    "import \x7b defineRoutes \x7d from \"rr-routes\";\n'😀😀';defineRoutes(bad);\n"

/-- The column of the call is no count of characters: five lie between it and the start of its
line. -/
theorem exists_column_ne_length :
    ∃ n < pairedFile.text.length,
      (compile ⟨⟨[], []⟩, ⟨"/"⟩⟩ pairedFile false).1 =
        .error (.error (.callArgument (.ofPosition "r.js" pairedFile.text (n + 1)))) ∧
      (Location.ofPosition "r.js" pairedFile.text (n + 1)).column = 7 ∧
      (pairedFile.text.extract (Source.lineStart pairedFile.text n) n).length = 5 := by
  have place : Location.ofPosition "r.js" pairedFile.text 48 = ⟨"r.js", 1, 7⟩ := by
    decide +kernel
  have told : firstFault? ⟨⟨⟨[], []⟩, ⟨"/"⟩⟩, pairedFile⟩ =
      some (.error (.callArgument ⟨"r.js", 1, 7⟩)) := by
    decide +kernel
  have ended := compile_of_firstFault? told false
  refine ⟨47, by decide +kernel, ?_, ?_, ?_⟩
  · rw [place]
    exact ended
  · rw [place]
  · decide +kernel

end Routes

end RouteManifest
