import RouteManifest.Proofs.Spelling
import RouteManifest.Proofs.Numerals

/-!
# How values of JSON are spelled

The values of a document as the characters that they are put together from. The reader of values
that nobody asks for passes exactly them, each step of it one value, the elements of a list or the
members of an object.
-/

namespace RouteManifest.Json

namespace Spelling

mutual

/-- A value that nobody asks for. -/
inductive AnyValue : List Char → Prop
  | word {cs : List Char}
      (known : cs ∈ [['n', 'u', 'l', 'l'], ['t', 'r', 'u', 'e'], ['f', 'a', 'l', 's', 'e']]) :
      AnyValue cs
  | positive {cs : List Char} (number : Number cs) : AnyValue cs
  | negative {cs : List Char} (number : Number cs) : AnyValue ('-' :: cs)
  | text {cs : List Char} {s : String} (quoted : Quoted false cs s) : AnyValue cs
  | emptyList {ws : List Char} (inside : Blanks ws) : AnyValue ('[' :: (ws ++ [']']))
  | list {cs : List Char} (elements : Elements cs) : AnyValue ('[' :: cs)
  | emptyObject {ws : List Char} (inside : Blanks ws) : AnyValue ('\x7b' :: (ws ++ ['\x7d']))
  | object {cs : List Char} (members : Members cs) : AnyValue ('\x7b' :: cs)

/-- The elements of a list and its end. -/
inductive Elements : List Char → Prop
  | last {ws v ws' : List Char} (before : Blanks ws) (value : AnyValue v) (after : Blanks ws') :
      Elements (ws ++ (v ++ (ws' ++ [']'])))
  | more {ws v ws' cs : List Char} (before : Blanks ws) (value : AnyValue v) (after : Blanks ws')
      (others : Elements cs) : Elements (ws ++ (v ++ (ws' ++ ',' :: cs)))

/-- The members of an object and its end. -/
inductive Members : List Char → Prop
  | last {ws m ws' : List Char} (before : Blanks ws) (member : Member m) (after : Blanks ws') :
      Members (ws ++ (m ++ (ws' ++ ['\x7d'])))
  | more {ws m ws' cs : List Char} (before : Blanks ws) (member : Member m) (after : Blanks ws')
      (others : Members cs) : Members (ws ++ (m ++ (ws' ++ ',' :: cs)))

/-- A member of an object. -/
inductive Member : List Char → Prop
  | parts {key ws ws' v : List Char} {s : String} (quoted : Quoted false key s)
      (before : Blanks ws) (after : Blanks ws') (value : AnyValue v) :
      Member (key ++ (ws ++ ':' :: (ws' ++ v)))

end

theorem Blanks.append {ws ws' : List Char} (first : Blanks ws) (second : Blanks ws') :
    Blanks (ws ++ ws') :=
  List.forall_mem_append.mpr ⟨first, second⟩

/-- Blanks before elements belong to them. -/
theorem Elements.padded {ws cs : List Char} (blanks : Blanks ws) (elements : Elements cs) :
    Elements (ws ++ cs) := by
  cases elements with
  | last before value after =>
    rw [← List.append_assoc]
    exact .last (blanks.append before) value after
  | more before value after others =>
    rw [← List.append_assoc]
    exact .more (blanks.append before) value after others

theorem Members.padded {ws cs : List Char} (blanks : Blanks ws) (members : Members cs) :
    Members (ws ++ cs) := by
  cases members with
  | last before member after =>
    rw [← List.append_assoc]
    exact .last (blanks.append before) member after
  | more before member after others =>
    rw [← List.append_assoc]
    exact .more (blanks.append before) member after others

/-- A value begins with a character that neither is a blank nor ends a list or an object. -/
def Solid (c : Char) : Prop := Read.isBlank c = false ∧ c ≠ ']' ∧ c ≠ '\x7d'

theorem solid_of_isDigit {c : Char} (digit : c.isDigit) : Solid c := by
  refine ⟨?_, ?_, ?_⟩
  · simp only [Read.isBlank, Bool.or_eq_false_iff, decide_eq_false_iff_not]
    refine ⟨⟨⟨?_, ?_⟩, ?_⟩, ?_⟩ <;> · rintro rfl; exact absurd digit (by decide)
  · rintro rfl
    exact absurd digit (by decide)
  · rintro rfl
    exact absurd digit (by decide)

theorem AnyValue.head {cs : List Char} (value : AnyValue cs) :
    ∃ c ds, cs = c :: ds ∧ Solid c := by
  cases value with
  | word known =>
    simp only [List.mem_cons, List.not_mem_nil, or_false] at known
    rcases known with rfl | rfl | rfl <;> exact ⟨_, _, rfl, by unfold Solid; decide⟩
  | positive number =>
    obtain ⟨c, ds, rfl, digit⟩ := number.head
    exact ⟨c, ds, rfl, solid_of_isDigit digit⟩
  | negative number => exact ⟨_, _, rfl, by unfold Solid; decide⟩
  | text quoted =>
    cases quoted
    exact ⟨_, _, rfl, by unfold Solid; decide⟩
  | emptyList inside => exact ⟨_, _, rfl, by unfold Solid; decide⟩
  | list elements => exact ⟨_, _, rfl, by unfold Solid; decide⟩
  | emptyObject inside => exact ⟨_, _, rfl, by unfold Solid; decide⟩
  | object members => exact ⟨_, _, rfl, by unfold Solid; decide⟩

/-- Without the blanks before them elements begin with a value, and members with a name. -/
theorem Elements.bare {cs : List Char} (elements : Elements cs) :
    ∃ ws c ds, Blanks ws ∧ cs = ws ++ c :: ds ∧ Solid c ∧ Elements (c :: ds) := by
  cases elements with
  | last before value after =>
    obtain ⟨c, ds, rfl, solid⟩ := value.head
    exact ⟨_, c, _, before, rfl, solid, .last (List.forall_mem_nil _) value after⟩
  | more before value after others =>
    obtain ⟨c, ds, rfl, solid⟩ := value.head
    exact ⟨_, c, _, before, rfl, solid, .more (List.forall_mem_nil _) value after others⟩

theorem Members.bare {cs : List Char} (members : Members cs) :
    ∃ ws ds, Blanks ws ∧ cs = ws ++ '"' :: ds ∧ Members ('"' :: ds) := by
  have opened {m : List Char} (member : Member m) : ∃ ds, m = '"' :: ds := by
    obtain ⟨⟨_⟩, _, _, _⟩ := member
    exact ⟨_, rfl⟩
  cases members with
  | last before member after =>
    obtain ⟨ds, rfl⟩ := opened member
    exact ⟨_, _, before, rfl, .last (List.forall_mem_nil _) member after⟩
  | more before member after others =>
    obtain ⟨ds, rfl⟩ := opened member
    exact ⟨_, _, before, rfl, .more (List.forall_mem_nil _) member after others⟩

end Spelling

open Spelling

namespace Read

variable {α β : Type}

/-- What a number of steps passes as a value is one. -/
def FindsValues (fuel : Nat) : Prop :=
  ∀ {s : Rest} {u : PUnit} {rest : List Char}, Leaves (passValue fuel) s u rest →
    ∃ ws v, Blanks ws ∧ AnyValue v ∧ s.text = ws ++ (v ++ rest)

def FindsElements (fuel : Nat) : Prop :=
  ∀ {s : Rest} {u : PUnit} {rest : List Char}, Leaves (passElements fuel) s u rest →
    ∃ cs, Elements cs ∧ s.text = cs ++ rest

def FindsMembers (fuel : Nat) : Prop :=
  ∀ {s : Rest} {u : PUnit} {rest : List Char}, Leaves (passMembers fuel) s u rest →
    ∃ cs, Members cs ∧ s.text = cs ++ rest

theorem findsElements_succ {fuel : Nat} (values : FindsValues fuel)
    (elements : FindsElements fuel) : FindsElements (fuel + 1) := by
  intro s u rest h
  rw [passElements] at h
  obtain ⟨_, middle, place, first, behind⟩ := h.parts
  obtain ⟨ws, v, before, value, parted⟩ := values first
  obtain ⟨ws', text, place', after, -, parted', further⟩ := behind.of_blanks_bind
  dsimp only at parted'
  split at further
  · exact absurd further (by simp)
  · rename_i led
    obtain ⟨text, rfl⟩ := List.head?_eq_some_iff.mp led
    obtain ⟨cs, others, parted''⟩ := elements (leaves_skip_bind.mp further)
    dsimp only at parted''
    exact ⟨_, .more before value after others, by simp [parted, parted', parted'']⟩
  · rename_i led
    obtain ⟨text, rfl⟩ := List.head?_eq_some_iff.mp led
    obtain rfl := leaves_skip.mp further
    exact ⟨_, .last before value after, by simp [parted, parted']⟩
  · exact absurd further (by simp)

/-- The mark that stands before the name of a member. -/
def keyMark : Read PUnit := do
  match ← blanks with
  | some '"' => skip
  | some _ => failAhead .keyNotString
  | none => failAhead .endInObject

theorem leaves_keyMark {s : Rest} {u : PUnit} {rest : List Char} :
    Leaves keyMark s u rest ↔ ∃ ws, Blanks ws ∧ s.text = ws ++ '"' :: rest := by
  refine leaves_mark (by decide) rfl fun c? other s u rest h => ?_
  split at h
  · exact absurd rfl other
  · exact absurd h (by simp)
  · exact absurd h (by simp)

theorem leaves_colon {s : Rest} {u : PUnit} {rest : List Char} :
    Leaves colon s u rest ↔ ∃ ws, Blanks ws ∧ s.text = ws ++ ':' :: rest := by
  refine leaves_mark (by decide) rfl fun c? other s u rest h => ?_
  split at h
  · exact absurd rfl other
  · exact absurd h (by simp)
  · exact absurd h (by simp)

/-- Members are passed part by part. -/
theorem passMembers_succ (fuel : Nat) :
    passMembers (fuel + 1) = (do
      keyMark
      let _ ← string false
      colon
      passValue fuel
      match ← blanks with
      | none => failAhead .endInObject
      | some ',' =>
        skip
        passMembers fuel
      | some '\x7d' => skip
      | some _ => failAhead .expectedObjectEnd) := by
  rw [passMembers, keyMark, bind_assoc]
  refine congrArg (blanks >>= ·) (funext fun c? => ?_)
  split
  · rfl
  · refine congrArg (skip >>= ·) (funext fun _ => ?_)
    refine congrArg (string false >>= ·) (funext fun _ => ?_)
    rw [colon, bind_assoc]
    refine congrArg (blanks >>= ·) (funext fun c? => ?_)
    split
    · rfl
    · rfl
    · rename_i other
      split
      · rename_i same
        exact absurd (Option.some.inj same) other
      · rfl
      · contradiction
  · rename_i other
    split
    · rename_i same
      exact absurd (Option.some.inj same) other
    · rfl
    · contradiction

theorem findsMembers_succ {fuel : Nat} (values : FindsValues fuel) (members : FindsMembers fuel) :
    FindsMembers (fuel + 1) := by
  intro s u rest h
  rw [passMembers_succ] at h
  obtain ⟨_, _, _, opened, behindMark⟩ := h.parts
  obtain ⟨ws₀, before₀, parted₀⟩ := leaves_keyMark.mp opened
  obtain ⟨_, _, _, named, behindName⟩ := behindMark.parts
  obtain ⟨key, quoted, parted₁⟩ := leaves_string.mp named
  obtain ⟨_, _, _, marked, behindColon⟩ := behindName.parts
  obtain ⟨ws₁, before₁, parted₂⟩ := leaves_colon.mp marked
  obtain ⟨_, _, _, first, behindValue⟩ := behindColon.parts
  obtain ⟨ws₂, v, before₂, value, parted₃⟩ := values first
  obtain ⟨ws₃, text, place, after, -, parted₄, further⟩ := behindValue.of_blanks_bind
  have member := Member.parts quoted before₁ before₂ value
  dsimp only at parted₁ parted₂ parted₃ parted₄
  split at further
  · exact absurd further (by simp)
  · rename_i led
    obtain ⟨text, rfl⟩ := List.head?_eq_some_iff.mp led
    obtain ⟨cs, others, parted₅⟩ := members (leaves_skip_bind.mp further)
    dsimp only at parted₅
    exact ⟨_, .more before₀ member after others,
      by simp [parted₀, parted₁, parted₂, parted₃, parted₄, parted₅]⟩
  · rename_i led
    obtain ⟨text, rfl⟩ := List.head?_eq_some_iff.mp led
    obtain rfl := leaves_skip.mp further
    exact ⟨_, .last before₀ member after,
      by simp [parted₀, parted₁, parted₂, parted₃, parted₄]⟩
  · exact absurd further (by simp)

theorem findsValues_succ {fuel : Nat} (elements : FindsElements fuel)
    (members : FindsMembers fuel) : FindsValues (fuel + 1) := by
  intro s u rest h
  rw [passValue] at h
  obtain ⟨ws, text, place, before, -, parted, further⟩ := h.of_blanks_bind
  suffices found : ∃ v, AnyValue v ∧ text = v ++ rest by
    obtain ⟨v, value, rfl⟩ := found
    exact ⟨ws, v, before, value, parted⟩
  split at further
  · exact absurd further (by simp)
  · rename_i c led
    obtain ⟨text, rfl⟩ := List.head?_eq_some_iff.mp led
    split at further
    · have word := leaves_word.mp (leaves_skip_bind.mp further)
      exact ⟨_, .word (List.mem_cons_self), congrArg (List.cons 'n') word⟩
    · have word := leaves_word.mp (leaves_skip_bind.mp further)
      exact ⟨['t', 'r', 'u', 'e'], .word (by simp), congrArg (List.cons 't') word⟩
    · have word := leaves_word.mp (leaves_skip_bind.mp further)
      exact ⟨['f', 'a', 'l', 's', 'e'], .word (by simp), congrArg (List.cons 'f') word⟩
    · obtain ⟨cs, number, parted'⟩ := (leaves_skip_bind.mp further).of_passNumber
      exact ⟨_, .negative number, congrArg (List.cons '-') parted'⟩
    · obtain ⟨_, _, _, named, same⟩ := (leaves_skip_bind.mp further).parts
      obtain ⟨cs, quoted, parted'⟩ := leaves_string.mp named
      obtain ⟨-, rfl⟩ := leaves_pure.mp same
      exact ⟨_, .text quoted, congrArg (List.cons '"') parted'⟩
    · obtain ⟨ws', text', place', inside, -, parted', further⟩ :=
        (leaves_skip_bind.mp further).of_blanks_bind
      dsimp only at parted'
      split at further
      · rename_i led'
        obtain ⟨text', rfl⟩ := List.head?_eq_some_iff.mp led'
        obtain rfl := leaves_skip.mp further
        exact ⟨_, .emptyList inside, by simp [parted']⟩
      · exact absurd further (by simp)
      · obtain ⟨cs, others, rfl⟩ := elements further
        exact ⟨_, .list (others.padded inside), by simp [parted']⟩
    · obtain ⟨ws', text', place', inside, -, parted', further⟩ :=
        (leaves_skip_bind.mp further).of_blanks_bind
      dsimp only at parted'
      split at further
      · rename_i led'
        obtain ⟨text', rfl⟩ := List.head?_eq_some_iff.mp led'
        obtain rfl := leaves_skip.mp further
        exact ⟨_, .emptyObject inside, by simp [parted']⟩
      · exact absurd further (by simp)
      · obtain ⟨cs, others, rfl⟩ := members further
        exact ⟨_, .object (others.padded inside), by simp [parted']⟩
    · split at further
      · obtain ⟨cs, number, parted'⟩ := further.of_passNumber
        exact ⟨cs, .positive number, parted'⟩
      · exact absurd further (by simp)

/-- However many steps there are, what is passed is a value, elements or members. -/
theorem finds (fuel : Nat) : FindsValues fuel ∧ FindsElements fuel ∧ FindsMembers fuel := by
  induction fuel with
  | zero =>
    refine ⟨fun h => ?_, fun h => ?_, fun h => ?_⟩
    · rw [passValue] at h
      exact absurd h (by simp)
    · rw [passElements] at h
      exact absurd h (by simp)
    · rw [passMembers] at h
      exact absurd h (by simp)
  | succ fuel ih =>
    obtain ⟨values, elements, members⟩ := ih
    exact ⟨findsValues_succ elements members, findsElements_succ values elements,
      findsMembers_succ values members⟩

/-! ## All values are passed -/

/-- So many steps are enough for a value, wherever it stands. -/
def PassesValues (fuel : Nat) : Prop :=
  ∀ {ws v rest : List Char} {place : Place}, Blanks ws → AnyValue v → Stops rest →
    2 * v.length ≤ fuel → Leaves (passValue fuel) ⟨ws ++ (v ++ rest), place⟩ () rest

def PassesElements (fuel : Nat) : Prop :=
  ∀ {cs rest : List Char} {place : Place}, Elements cs → 2 * cs.length ≤ fuel →
    Leaves (passElements fuel) ⟨cs ++ rest, place⟩ () rest

def PassesMembers (fuel : Nat) : Prop :=
  ∀ {cs rest : List Char} {place : Place}, Members cs → 2 * cs.length ≤ fuel →
    Leaves (passMembers fuel) ⟨cs ++ rest, place⟩ () rest

/-- No number goes on with a blank. -/
theorem stops_append {ws rest : List Char} (blanks : Blanks ws) (stops : Stops rest) :
    Stops (ws ++ rest) := by
  intro c led
  cases ws with
  | nil => exact stops c led
  | cons d ws =>
    obtain rfl := Option.some.inj led
    have blank := blanks d List.mem_cons_self
    simp only [isBlank, Bool.or_eq_true, decide_eq_true_eq] at blank
    rcases blank with ((rfl | rfl) | rfl) | rfl <;> decide

theorem stops_blanks {ws rest : List Char} {mark : Char} (blanks : Blanks ws)
    (is_mark : mark ∈ [',', ']', '\x7d']) : Stops (ws ++ mark :: rest) := by
  refine stops_append blanks fun c led => ?_
  obtain rfl := Option.some.inj led
  simp only [List.mem_cons, List.not_mem_nil, or_false] at is_mark
  rcases is_mark with rfl | rfl | rfl <;> decide

theorem passesElements_succ {fuel : Nat} (values : PassesValues fuel)
    (elements : PassesElements fuel) : PassesElements (fuel + 1) := by
  intro cs rest place spelled enough
  rw [passElements]
  cases spelled with
  | last before value after =>
    simp only [List.length_append, List.length_cons] at enough
    simp only [List.append_assoc, List.cons_append, List.nil_append]
    refine (values before value (stops_blanks after (by simp)) (by omega)).bind fun place' => ?_
    refine (Leaves.blanks_mark after (by decide)).bind fun place' => ?_
    exact leaves_skip.mpr rfl
  | more before value after others =>
    simp only [List.length_append, List.length_cons] at enough
    simp only [List.append_assoc, List.cons_append]
    refine (values before value (stops_blanks after (by simp)) (by omega)).bind fun place' => ?_
    refine (Leaves.blanks_mark after (by decide)).bind fun place' => ?_
    exact leaves_skip_bind.mpr (elements others (by omega))

/-- A member is passed up to what follows its value. -/
theorem Leaves.member_bind {fuel : Nat} (values : PassesValues fuel)
    {m ws behind rest : List Char} {place : Place} {f : PUnit → Read PUnit} (before : Blanks ws)
    (member : Member m) (few : 2 * m.length ≤ fuel) (stops : Stops behind)
    (further : ∀ place, Leaves (f ()) ⟨behind, place⟩ () rest) :
    Leaves (do keyMark; let _ ← string false; colon; f (← passValue fuel))
      ⟨ws ++ (m ++ behind), place⟩ () rest := by
  obtain ⟨quoted, before', after', value⟩ := member
  obtain ⟨key, rfl, named⟩ := string_of_quoted quoted
  simp only [List.length_append, List.length_cons] at few
  simp only [List.append_assoc, List.cons_append]
  refine Leaves.bind (a := ()) (leaves_keyMark.mpr ⟨ws, before, rfl⟩) fun place' => ?_
  refine named.bind fun place' => ?_
  refine Leaves.bind (a := ()) (leaves_colon.mpr ⟨_, before', rfl⟩) fun place' => ?_
  exact (values after' value stops (by omega)).bind further

theorem passesMembers_succ {fuel : Nat} (values : PassesValues fuel)
    (members : PassesMembers fuel) : PassesMembers (fuel + 1) := by
  intro cs rest place spelled enough
  rw [passMembers_succ]
  cases spelled with
  | last before member after =>
    simp only [List.length_append, List.length_cons] at enough
    simp only [List.append_assoc, List.cons_append, List.nil_append]
    refine Leaves.member_bind values before member (by omega) (stops_blanks after (by simp))
      fun place' => ?_
    refine (Leaves.blanks_mark after (by decide)).bind fun place' => ?_
    exact leaves_skip.mpr rfl
  | more before member after others =>
    simp only [List.length_append, List.length_cons] at enough
    simp only [List.append_assoc, List.cons_append]
    refine Leaves.member_bind values before member (by omega) (stops_blanks after (by simp))
      fun place' => ?_
    refine (Leaves.blanks_mark after (by decide)).bind fun place' => ?_
    exact leaves_skip_bind.mpr (members others (by omega))

theorem passesValues_succ {fuel : Nat} (elements : PassesElements fuel)
    (members : PassesMembers fuel) : PassesValues (fuel + 1) := by
  intro ws v rest place before value stops enough
  rw [passValue]
  have solid : ∀ c, (v ++ rest).head? = some c → isBlank c = false := by
    obtain ⟨c, ds, rfl, solid⟩ := value.head
    exact fun _ led => Option.some.inj led ▸ solid.1
  refine (Leaves.blanks before solid).bind fun place' => ?_
  cases value with
  | word known =>
    simp only [List.mem_cons, List.not_mem_nil, or_false] at known
    rcases known with rfl | rfl | rfl <;> exact leaves_skip_bind.mpr (leaves_word.mpr rfl)
  | positive number =>
    obtain ⟨c, ds, opened, digit⟩ := number.head
    have led : (v ++ rest).head? = some c := by rw [opened, List.cons_append, List.head?_cons]
    simp only [led]
    split
    iterate 7 exact absurd digit (by decide)
    rw [if_pos digit]
    exact Leaves.passNumber number stops
  | negative number => exact leaves_skip_bind.mpr (Leaves.passNumber number stops)
  | text quoted =>
    obtain ⟨ds, rfl, named⟩ := string_of_quoted quoted
    exact leaves_skip_bind.mpr (named.bind fun place => leaves_pure.mpr ⟨rfl, rfl⟩)
  | emptyList inside =>
    simp only [List.append_assoc, List.cons_append, List.nil_append]
    refine leaves_skip_bind.mpr ((Leaves.blanks_mark inside (by decide)).bind fun place => ?_)
    exact leaves_skip.mpr rfl
  | list spelled =>
    obtain ⟨ws', c, ds, before', rfl, solid, bare⟩ := spelled.bare
    simp only [List.append_assoc, List.cons_append]
    refine leaves_skip_bind.mpr ((Leaves.blanks_mark before' solid.1).bind fun place => ?_)
    split
    · rename_i same
      exact absurd (Option.some.inj same) solid.2.1
    · contradiction
    · exact elements bare (by simp at enough ⊢; omega)
  | emptyObject inside =>
    simp only [List.append_assoc, List.cons_append, List.nil_append]
    refine leaves_skip_bind.mpr ((Leaves.blanks_mark inside (by decide)).bind fun place => ?_)
    exact leaves_skip.mpr rfl
  | object spelled =>
    obtain ⟨ws', ds, before', rfl, bare⟩ := spelled.bare
    simp only [List.append_assoc, List.cons_append]
    refine leaves_skip_bind.mpr ((Leaves.blanks_mark before' (by decide)).bind fun place => ?_)
    change Leaves (passMembers fuel) ⟨'"' :: ds ++ rest, place⟩ () rest
    exact members bare (by simp at enough ⊢; omega)

theorem passes (fuel : Nat) : PassesValues fuel ∧ PassesElements fuel ∧ PassesMembers fuel := by
  induction fuel with
  | zero =>
    refine ⟨fun _ value _ few => ?_, fun elements few => ?_, fun members few => ?_⟩
    · obtain ⟨c, ds, rfl, -⟩ := value.head
      simp at few
    · obtain ⟨ws, c, ds, -, rfl, -⟩ := elements.bare
      simp at few
    · obtain ⟨ws, ds, -, rfl, -⟩ := members.bare
      simp at few
  | succ fuel ih =>
    obtain ⟨values, elements, members⟩ := ih
    exact ⟨passesValues_succ elements members, passesElements_succ values elements,
      passesMembers_succ values members⟩

/-! ## Readers of values -/

/-- A reader of values, which are told by how they are spelled and what they say. Blanks may stand
before a value; a value begins with what ends no list. -/
structure Reads (m : Read α) (spelled : List Char → α → Prop) : Prop where
  sound : ∀ {s : Rest} {a : α} {rest : List Char}, Leaves m s a rest →
    ∃ ws cs, Blanks ws ∧ spelled cs a ∧ s.text = ws ++ (cs ++ rest)
  complete : ∀ {ws cs rest : List Char} {a : α} {place : Place}, Blanks ws → spelled cs a →
    Stops rest → Leaves m ⟨ws ++ (cs ++ rest), place⟩ a rest
  solid : ∀ {cs : List Char} {a : α}, spelled cs a → ∃ c ds, cs = c :: ds ∧ Solid c

/-- A value that nobody asks for is passed, whatever it is. -/
theorem reads_anyValue : Reads anyValue fun cs _ => AnyValue cs where
  sound h := by
    rw [anyValue, leaves_steps_bind] at h
    exact (finds _).1 h
  complete before value stops := by
    rw [anyValue, leaves_steps_bind]
    exact (passes _).1 before value stops (by simp only [List.length_append]; omega)
  solid := AnyValue.head

end Read

end RouteManifest.Json
