import RouteManifest.Proofs.Documents

/-!
# How records of JSON are spelled

A record of one field as an object that says at most once what the field is, or as a list of one
element. What a text says from its beginning to its end is told by how it is spelled: the reader
answers with it, and fails where the text spells nothing.
-/

namespace RouteManifest.Json

namespace Spelling

variable {α : Type}

/-- What stands before a member of an object: blanks before the first one, and a comma among them
before the others. -/
inductive Lead : (isFirst : Bool) → List Char → Prop
  | first {ws : List Char} (blanks : Blanks ws) : Lead true ws
  | next {ws ws' : List Char} (before : Blanks ws) (after : Blanks ws') :
      Lead false (ws ++ ',' :: ws')

/-- A member of an object and what it says about a field. -/
inductive Field (field : String) (spelled : List Char → α → Prop) : List Char → Option α → Prop
  | own {key ws ws' v : List Char} {a : α} (quoted : Quoted true key field) (before : Blanks ws)
      (after : Blanks ws') (value : spelled v a) :
      Field field spelled (key ++ (ws ++ ':' :: (ws' ++ v))) (some a)
  | other {key ws ws' v : List Char} {name : String} (quoted : Quoted true key name)
      (not_own : name ≠ field) (before : Blanks ws) (after : Blanks ws') (value : AnyValue v) :
      Field field spelled (key ++ (ws ++ ':' :: (ws' ++ v))) none

/-- Members of an object that say at most once what a field is. -/
inductive Fields (field : String) (spelled : List Char → α → Prop) :
    (isFirst : Bool) → List Char → Option α → Prop
  | nil {isFirst : Bool} : Fields field spelled isFirst [] none
  | cons {isFirst : Bool} {lead m ms : List Char} {o o' : Option α} (led : Lead isFirst lead)
      (member : Field field spelled m o) (others : Fields field spelled false ms o')
      (once : o = none ∨ o' = none) : Fields field spelled isFirst (lead ++ (m ++ ms)) (o.or o')

/-- A record of one field. As a list it may be empty only where the field has a default. -/
inductive Record (field : String) (hasDefault : Bool) (spelled : List Char → α → Prop) :
    List Char → Option α → Prop
  | emptyList {ws : List Char} (default : hasDefault = true) (inside : Blanks ws) :
      Record field hasDefault spelled ('[' :: (ws ++ [']'])) none
  | list {ws v ws' : List Char} {a : α} (before : Blanks ws) (value : spelled v a)
      (after : Blanks ws') :
      Record field hasDefault spelled ('[' :: (ws ++ (v ++ (ws' ++ [']'])))) (some a)
  | object {ms ws : List Char} {o : Option α} (members : Fields field spelled true ms o)
      (after : Blanks ws) :
      Record field hasDefault spelled ('\x7b' :: (ms ++ (ws ++ ['\x7d']))) o

/-- A string, or the word for none. -/
inductive TextOrNull : List Char → Option String → Prop
  | null : TextOrNull ['n', 'u', 'l', 'l'] none
  | text {cs : List Char} {s : String} (quoted : Quoted true cs s) : TextOrNull cs (some s)

/-- What a text says from its beginning to its end. -/
def Document (spelled : List Char → α → Prop) (text : String) (a : α) : Prop :=
  ∃ ws cs ws', Blanks ws ∧ spelled cs a ∧ Blanks ws' ∧ text.toList = ws ++ (cs ++ ws')

/-- What follows other members than the first is none that a number goes on with. -/
theorem Fields.stops {field : String} {spelled : List Char → α → Prop} {ms ws rest : List Char}
    {o : Option α} (members : Fields field spelled false ms o) (blanks : Blanks ws) :
    Stops (ms ++ (ws ++ '\x7d' :: rest)) := by
  cases members with
  | nil => exact Read.stops_blanks blanks (by simp)
  | cons led member others once =>
    cases led with
    | next before after =>
      rw [List.append_assoc, List.append_assoc, List.cons_append]
      exact Read.stops_blanks before (by simp)

end Spelling

open Spelling

namespace Read

variable {α β : Type}

/-- What a value says may be told otherwise. -/
theorem Reads.map {m : Read α} {spelled : List Char → α → Prop} (reads : Reads m spelled)
    (f : α → β) : Reads (do return f (← m)) fun cs b => ∃ a, spelled cs a ∧ f a = b where
  sound h := by
    obtain ⟨a, middle, place, first, same⟩ := h.parts
    obtain ⟨rfl, rfl⟩ := leaves_pure.mp same
    obtain ⟨ws, cs, before, value, parted⟩ := reads.sound first
    exact ⟨ws, cs, before, ⟨a, value, rfl⟩, parted⟩
  complete before value stops := by
    obtain ⟨a, value, rfl⟩ := value
    exact (reads.complete before value stops).bind fun place => leaves_pure.mpr ⟨rfl, rfl⟩
  solid := fun ⟨_, value, _⟩ => reads.solid value

/-! ## Values of the wrong kind -/

/-- Nothing is read where something else is expected. -/
@[simp] theorem leaves_mismatch {expected : String} {s : Rest} {a : α} {rest : List Char} :
    Leaves (mismatch expected) s a rest ↔ False := by
  simp only [iff_false]
  intro h
  obtain ⟨_, _, _, _, thrown⟩ := h.parts
  obtain ⟨_, run⟩ := leaves_get_bind.mp thrown
  cases run

theorem reads_text? (expected : String) : Reads (text? expected) TextOrNull where
  sound h := by
    obtain ⟨ws, text, place, before, -, parted, further⟩ := h.of_blanks_bind
    split at further
    · exact absurd further (by simp)
    · rename_i led
      obtain ⟨text, rfl⟩ := List.head?_eq_some_iff.mp led
      obtain ⟨_, _, _, word, same⟩ := (leaves_skip_bind.mp further).parts
      obtain ⟨rfl, rfl⟩ := leaves_pure.mp same
      have word := leaves_word.mp word
      exact ⟨ws, _, before, .null, parted.trans (congrArg (ws ++ 'n' :: ·) word)⟩
    · rename_i led
      obtain ⟨text, rfl⟩ := List.head?_eq_some_iff.mp led
      obtain ⟨_, _, _, named, same⟩ := (leaves_skip_bind.mp further).parts
      obtain ⟨rfl, rfl⟩ := leaves_pure.mp same
      obtain ⟨cs, quoted, parted'⟩ := leaves_string.mp named
      exact ⟨ws, _, before, .text quoted, parted.trans (congrArg (ws ++ '"' :: ·) parted')⟩
    · exact absurd further (by simp)
  complete before value stops := by
    cases value with
    | null =>
      refine (Leaves.blanks_mark before (by decide)).bind fun place => ?_
      refine leaves_skip_bind.mpr (Leaves.bind (a := ()) (leaves_word.mpr rfl) fun place => ?_)
      exact leaves_pure.mpr ⟨rfl, rfl⟩
    | text quoted =>
      obtain ⟨ds, rfl, named⟩ := string_of_quoted quoted
      refine (Leaves.blanks_mark before (by decide)).bind fun place => ?_
      exact leaves_skip_bind.mpr (named.bind fun place => leaves_pure.mpr ⟨rfl, rfl⟩)
  solid value := by
    cases value with
    | null => exact ⟨_, _, rfl, by unfold Solid; decide⟩
    | text quoted =>
      obtain ⟨ds, rfl, -⟩ := string_of_quoted quoted
      exact ⟨_, _, rfl, by unfold Solid; decide⟩

/-! ## Objects -/

theorem leaves_closeObject {s : Rest} {u : PUnit} {rest : List Char} :
    Leaves closeObject s u rest ↔ ∃ ws, Blanks ws ∧ s.text = ws ++ '\x7d' :: rest := by
  refine leaves_mark (by decide) rfl fun c? other s u rest h => ?_
  split at h
  · exact absurd rfl other
  · exact absurd h (by simp)
  · exact absurd h (by simp)
  · exact absurd h (by simp)

/-- What is next in an object stays ahead: its end, or the name of a member. -/
theorem Leaves.of_hasMember {isFirst more : Bool} {s : Rest} {rest : List Char}
    (h : Leaves (hasMember isFirst) s more rest) :
    (more = false ∧ ∃ ws text, Blanks ws ∧ rest = '\x7d' :: text ∧ s.text = ws ++ rest) ∨
      (more = true ∧ ∃ lead text, Lead isFirst lead ∧ rest = '"' :: text ∧
        s.text = lead ++ rest) := by
  obtain ⟨ws, text, place, before, -, parted, further⟩ := h.of_blanks_bind
  split at further
  · exact absurd further (by simp)
  · rename_i led
    obtain ⟨text, rfl⟩ := List.head?_eq_some_iff.mp led
    obtain ⟨rfl, rfl⟩ := leaves_pure.mp further
    exact Or.inl ⟨rfl, ws, text, before, rfl, parted⟩
  · rename_i c _ led
    obtain ⟨text, rfl⟩ := List.head?_eq_some_iff.mp led
    refine Or.inr ?_
    cases isFirst with
    | true =>
      by_cases named : c = '"'
      · subst named
        obtain ⟨rfl, rfl⟩ := leaves_pure.mp further
        exact ⟨rfl, ws, text, .first before, rfl, parted⟩
      · simp [named] at further
    | false =>
      by_cases comma : c = ','
      · subst comma
        obtain ⟨ws', text', place', after, -, parted', behind⟩ :=
          (leaves_skip_bind.mp further).of_blanks_bind
        dsimp only at parted'
        split at behind
        · rename_i led'
          obtain ⟨text', rfl⟩ := List.head?_eq_some_iff.mp led'
          obtain ⟨rfl, rfl⟩ := leaves_pure.mp behind
          exact ⟨rfl, _, text', .next before after, rfl, by simp [parted, parted']⟩
        · exact absurd behind (by simp)
        · exact absurd behind (by simp)
        · exact absurd behind (by simp)
      · simp [comma] at further

theorem Leaves.hasMember_end {isFirst : Bool} {ws rest : List Char} {place : Place}
    (blanks : Blanks ws) :
    Leaves (hasMember isFirst) ⟨ws ++ '\x7d' :: rest, place⟩ false ('\x7d' :: rest) := by
  refine (Leaves.blanks_mark blanks (by decide)).bind fun place => ?_
  exact leaves_pure.mpr ⟨rfl, rfl⟩

theorem Leaves.hasMember_next {isFirst : Bool} {lead rest : List Char} {place : Place}
    (led : Lead isFirst lead) :
    Leaves (hasMember isFirst) ⟨lead ++ '"' :: rest, place⟩ true ('"' :: rest) := by
  cases led with
  | first blanks =>
    refine (Leaves.blanks_mark blanks (by decide)).bind fun place => ?_
    exact leaves_pure.mpr ⟨rfl, rfl⟩
  | next before after =>
    rw [List.append_assoc, List.cons_append]
    refine (Leaves.blanks_mark before (by decide)).bind fun place => ?_
    refine leaves_skip_bind.mpr ((Leaves.blanks_mark after (by decide)).bind fun place => ?_)
    exact leaves_pure.mpr ⟨rfl, rfl⟩

/-- The value of a member stands behind a colon. -/
theorem Leaves.of_colon_bind {m : Read α} {spelled : List Char → α → Prop}
    (reads : Reads m spelled) {f : α → Read β} {s : Rest} {b : β} {rest : List Char}
    (h : Leaves (colon >>= fun _ => m >>= f) s b rest) :
    ∃ ws ws' v a behind place, Blanks ws ∧ Blanks ws' ∧ spelled v a ∧
      s.text = ws ++ ':' :: (ws' ++ (v ++ behind)) ∧ Leaves (f a) ⟨behind, place⟩ b rest := by
  obtain ⟨_, _, _, marked, further⟩ := h.parts
  obtain ⟨ws, before, parted⟩ := leaves_colon.mp marked
  obtain ⟨a, behind, place, first, further⟩ := further.parts
  obtain ⟨ws', v, after, value, parted'⟩ := reads.sound first
  exact ⟨ws, ws', v, a, behind, place, before, after, value,
    by dsimp only at parted'; rw [parted, parted'], further⟩

theorem Leaves.colon_bind {m : Read α} {spelled : List Char → α → Prop} (reads : Reads m spelled)
    {f : α → Read β} {ws ws' v behind rest : List Char} {a : α} {b : β} {place : Place}
    (before : Blanks ws) (after : Blanks ws') (value : spelled v a) (stops : Stops behind)
    (further : ∀ place, Leaves (f a) ⟨behind, place⟩ b rest) :
    Leaves (colon >>= fun _ => m >>= f) ⟨ws ++ ':' :: (ws' ++ (v ++ behind)), place⟩ b rest := by
  refine Leaves.bind (a := ()) (leaves_colon.mpr ⟨ws, before, rfl⟩) fun place => ?_
  exact (reads.complete after value stops).bind further

section Members

variable {field : String} {m : Read α} {spelled : List Char → α → Prop}

/-- What is found among the members of an object, a member a step. -/
theorem Leaves.of_member?_go (reads : Reads m spelled) {fuel : Nat} {isFirst : Bool}
    {found r : Option α} {s : Rest} {rest : List Char}
    (h : Leaves (member?.go field m fuel isFirst found) s r rest)
    (enough : s.text.length < fuel) :
    ∃ ms o ws text, Fields field spelled isFirst ms o ∧ (found = none ∨ o = none) ∧
      r = found.or o ∧ Blanks ws ∧ rest = '\x7d' :: text ∧ s.text = ms ++ (ws ++ rest) := by
  induction fuel generalizing isFirst found s with
  | zero => exact absurd enough (Nat.not_lt_zero _)
  | succ fuel ih =>
    rw [member?.go] at h
    obtain ⟨more, _, _, ahead, further⟩ := h.parts
    rcases ahead.of_hasMember with
      ⟨rfl, ws, text, blanks, rfl, parted⟩ | ⟨rfl, lead, text, led, rfl, parted⟩
    · obtain ⟨rfl, rfl⟩ := leaves_pure.mp further
      exact ⟨[], none, ws, text, .nil, Or.inr rfl, by simp, blanks, rfl, parted⟩
    · simp only [Bool.not_true, Bool.false_eq_true, if_false] at further
      obtain ⟨name, _, _, named, chosen⟩ := (leaves_skip_bind.mp further).parts
      obtain ⟨key, quoted, parted'⟩ := leaves_string.mp named
      dsimp only at parted'
      subst parted'
      split at chosen
      · rename_i own
        subst own
        split at chosen
        · obtain ⟨_, _, _, failed, _⟩ := chosen.parts
          exact absurd failed (by simp)
        · rename_i fresh
          obtain ⟨ws, ws', v, a, behind, place, before, after, value, parted', onward⟩ :=
            Leaves.of_colon_bind reads chosen
          dsimp only at parted'
          subst parted'
          obtain ⟨ms, o, ws₁, text, others, once, rfl, blanks, rfl, rfl⟩ :=
            ih onward (by simp [parted] at enough ⊢; omega)
          obtain rfl : o = none := once.resolve_left (by simp)
          obtain rfl : found = none := by simpa using fresh
          exact ⟨_, _, ws₁, text, .cons led (.own quoted before after value) others (Or.inr rfl),
            Or.inl rfl, by simp, blanks, rfl, by simp [parted]⟩
      · rename_i not_own
        obtain ⟨ws, ws', v, _, behind, place, before, after, value, parted', onward⟩ :=
          Leaves.of_colon_bind reads_anyValue chosen
        dsimp only at parted'
        subst parted'
        obtain ⟨ms, o, ws₁, text, others, once, rfl, blanks, rfl, rfl⟩ :=
          ih onward (by simp [parted] at enough ⊢; omega)
        have members := Fields.cons led (.other quoted not_own before after value) others
          (Or.inl rfl)
        exact ⟨_, _, ws₁, text, members, once.imp_right fun none => by simp [none], by simp, blanks,
          rfl, by simp [parted]⟩

theorem Leaves.member?_go (reads : Reads m spelled) {fuel : Nat} {isFirst : Bool}
    {ms ws rest : List Char} {found o : Option α} {place : Place}
    (members : Fields field spelled isFirst ms o) (once : found = none ∨ o = none)
    (blanks : Blanks ws) (enough : ms.length < fuel) :
    Leaves (member?.go field m fuel isFirst found) ⟨ms ++ (ws ++ '\x7d' :: rest), place⟩
      (found.or o) ('\x7d' :: rest) := by
  induction members generalizing fuel found place with
  | nil =>
    cases fuel with
    | zero => exact absurd enough (Nat.not_lt_zero _)
    | succ fuel =>
      rw [member?.go]
      refine (Leaves.hasMember_end blanks).bind fun place => ?_
      exact leaves_pure.mpr ⟨by simp, rfl⟩
  | @cons isFirst lead m' ms o o' led member others once' ih =>
    have stops : Stops (ms ++ (ws ++ '\x7d' :: rest)) := others.stops blanks
    cases fuel with
    | zero => exact absurd enough (Nat.not_lt_zero _)
    | succ fuel =>
      simp only [List.length_append] at enough
      rw [member?.go]
      cases member with
      | own quoted before after value =>
        obtain ⟨key, rfl, named⟩ := string_of_quoted quoted
        obtain rfl : found = none := by simpa using once
        obtain rfl : o' = none := once'.resolve_left (by simp)
        simp only [List.append_assoc, List.cons_append]
        refine (Leaves.hasMember_next led).bind fun place => leaves_skip_bind.mpr ?_
        refine named.bind fun place => ?_
        rw [if_pos rfl]
        refine Leaves.colon_bind reads before after value stops fun place => ?_
        exact @ih fuel (some _) place (Or.inr rfl) (by simp at enough; omega)
      | other quoted not_own before after value =>
        obtain ⟨key, rfl, named⟩ := string_of_quoted quoted
        simp only [List.append_assoc, List.cons_append]
        refine (Leaves.hasMember_next led).bind fun place => leaves_skip_bind.mpr ?_
        refine named.bind fun place => ?_
        rw [if_neg not_own]
        refine Leaves.colon_bind (a := ()) reads_anyValue before after value stops fun place => ?_
        exact ih once (by simp at enough; omega)

/-- Of the members of an object the value of a field is read, if there is one. -/
theorem Leaves.of_member? (reads : Reads m spelled) {s : Rest} {r : Option α} {rest : List Char}
    (h : Leaves (Read.member? field m) s r rest) :
    ∃ ms ws text, Fields field spelled true ms r ∧ Blanks ws ∧ rest = '\x7d' :: text ∧
      s.text = ms ++ (ws ++ rest) := by
  rw [Read.member?, leaves_steps_bind] at h
  obtain ⟨ms, r, ws, text, members, -, rfl, blanks, led, parted⟩ :=
    Leaves.of_member?_go reads h (by omega)
  exact ⟨ms, ws, text, by simpa using members, blanks, led, parted⟩

theorem Leaves.member? (reads : Reads m spelled) {ms ws rest : List Char} {o : Option α}
    {place : Place} (members : Fields field spelled true ms o) (blanks : Blanks ws) :
    Leaves (Read.member? field m) ⟨ms ++ (ws ++ '\x7d' :: rest), place⟩ o ('\x7d' :: rest) := by
  rw [Read.member?, leaves_steps_bind]
  exact Leaves.member?_go reads members (Or.inl rfl) blanks
    (by simp only [List.length_append]; omega)

end Members

/-! ## Lists -/

theorem leaves_closeList {s : Rest} {u : PUnit} {rest : List Char} :
    Leaves closeList s u rest ↔ ∃ ws, Blanks ws ∧ s.text = ws ++ ']' :: rest := by
  refine leaves_mark (by decide) rfl fun c? other s u rest h => ?_
  split at h
  · exact absurd rfl other
  · obtain ⟨_, _, _, _, h⟩ := h.parts
    obtain ⟨_, _, _, _, h⟩ := h.parts
    split at h
    · exact absurd h (by simp)
    · exact absurd h (by simp)
  · exact absurd h (by simp)
  · exact absurd h (by simp)

theorem leaves_enclosed {m : Read α} {close : Read PUnit} {s : Rest} {a : α}
    {rest : List Char} :
    Leaves (enclosed m close) s a rest ↔
      Leaves (m >>= fun a => close >>= fun _ => pure a) s a rest := by
  unfold Leaves
  change (∃ place, enclosed m close s = _) ↔ ∃ place, EStateM.bind m _ s = _
  rw [enclosed, EStateM.bind]
  cases m s with
  | ok a s' => rfl
  | error e s' => simp

theorem Leaves.of_enclosed {m : Read α} {close : Read PUnit} {s : Rest} {a : α}
    {rest : List Char} (h : Leaves (Read.enclosed m close) s a rest) :
    ∃ middle place, Leaves m s a middle ∧ Leaves close ⟨middle, place⟩ ⟨⟩ rest := by
  obtain ⟨a, middle, place, inner, closing⟩ := (leaves_enclosed.mp h).parts
  obtain ⟨_, _, _, closed, same⟩ := closing.parts
  obtain ⟨rfl, rfl⟩ := leaves_pure.mp same
  exact ⟨middle, place, inner, closed⟩

theorem Leaves.enclosed {m : Read α} {close : Read PUnit} {s : Rest} {a : α}
    {middle rest : List Char} (inner : Leaves m s a middle)
    (closed : ∀ place, Leaves close ⟨middle, place⟩ ⟨⟩ rest) :
    Leaves (Read.enclosed m close) s a rest :=
  leaves_enclosed.mpr <| inner.bind fun place =>
    (closed place).bind fun _ => leaves_pure.mpr ⟨rfl, rfl⟩

/-- No blanks stand before what is none. -/
theorem eq_nil_of_blanks {ws text rest : List Char} {mark : Char} (blanks : Blanks ws)
    (solid : isBlank mark = false) (same : mark :: text = ws ++ rest) : ws = [] := by
  cases ws with
  | nil => rfl
  | cons c ws =>
    obtain rfl : mark = c := List.head_eq_of_cons_eq same
    have blank := blanks mark List.mem_cons_self
    rw [solid] at blank
    cases blank

theorem Leaves.of_element? {m : Read α} {spelled : List Char → α → Prop} (reads : Reads m spelled)
    {s : Rest} {r : Option α} {rest : List Char} (h : Leaves (element? m) s r rest) :
    (r = none ∧ ∃ ws text, Blanks ws ∧ rest = ']' :: text ∧ s.text = ws ++ rest) ∨
      ∃ a ws v, r = some a ∧ Blanks ws ∧ spelled v a ∧ s.text = ws ++ (v ++ rest) := by
  obtain ⟨ws, text, place, before, -, parted, further⟩ := h.of_blanks_bind
  split at further
  · rename_i led
    obtain ⟨text, rfl⟩ := List.head?_eq_some_iff.mp led
    obtain ⟨rfl, rfl⟩ := leaves_pure.mp further
    exact Or.inl ⟨rfl, ws, text, before, rfl, parted⟩
  · rw [map_eq_pure_bind] at further
    obtain ⟨a, _, _, first, same⟩ := further.parts
    obtain ⟨rfl, rfl⟩ := leaves_pure.mp same
    obtain ⟨ws', v, after, value, parted'⟩ := reads.sound first
    refine Or.inr ⟨a, _, v, rfl, before.append after, value, ?_⟩
    dsimp only at parted'
    simp [parted, parted']
  · exact absurd further (by simp)

theorem Leaves.element?_none {m : Read α} {ws rest : List Char} {place : Place}
    (inside : Blanks ws) :
    Leaves (Read.element? m) ⟨ws ++ ']' :: rest, place⟩ none (']' :: rest) :=
  (Leaves.blanks_mark inside (by decide)).bind fun _ => leaves_pure.mpr ⟨rfl, rfl⟩

theorem Leaves.element? {m : Read α} {spelled : List Char → α → Prop} (reads : Reads m spelled)
    {ws v rest : List Char} {a : α} {place : Place} (before : Blanks ws) (value : spelled v a)
    (stops : Stops rest) : Leaves (Read.element? m) ⟨ws ++ (v ++ rest), place⟩ (some a) rest := by
  obtain ⟨c, ds, rfl, solid⟩ := reads.solid value
  refine (Leaves.blanks_mark before solid.1).bind fun place => ?_
  split
  · rename_i same
    exact absurd (Option.some.inj same) solid.2.1
  · rw [map_eq_pure_bind]
    have first : Leaves m ⟨[] ++ (c :: ds ++ rest), place⟩ a rest :=
      reads.complete (List.forall_mem_nil _) value stops
    exact Leaves.bind first fun place => leaves_pure.mpr ⟨rfl, rfl⟩
  · contradiction

/-- The element of a record that is a list. -/
def element (name : String) (hasDefault : Bool) (value : Read α) : Read (Option α) := do
  match ← element? value with
  | some a => return some a
  | none =>
    if hasDefault then return none
    else reject s!"invalid length 0, expected struct {name} with 1 element"

section Records

variable {m : Read α} {spelled : List Char → α → Prop} {name field : String} {hasDefault : Bool}

theorem Leaves.of_list (reads : Reads m spelled) {s : Rest} {o : Option α} {rest : List Char}
    (h : Leaves (Read.enclosed (element name hasDefault m) closeList) s o rest) :
    ∃ cs, Record field hasDefault spelled ('[' :: cs) o ∧ s.text = cs ++ rest := by
  obtain ⟨_, _, inner, closed⟩ := h.of_enclosed
  obtain ⟨ws', after, parted'⟩ := leaves_closeList.mp closed
  obtain ⟨found, _, _, first, chosen⟩ := inner.parts
  rcases Leaves.of_element? reads first with
    ⟨rfl, ws, _, inside, rfl, parted⟩ | ⟨a, ws, v, rfl, before, value, parted⟩
  · split at chosen
    · contradiction
    · split at chosen
      · rename_i default
        obtain ⟨rfl, rfl⟩ := leaves_pure.mp chosen
        obtain rfl := eq_nil_of_blanks after (by decide) parted'
        exact ⟨_, .emptyList default inside, by simpa [parted] using parted'⟩
      · exact absurd chosen (by simp)
  · obtain ⟨rfl, rfl⟩ := leaves_pure.mp chosen
    exact ⟨_, .list before value after, by simpa [parted] using parted'⟩

theorem Leaves.of_object (reads : Reads m spelled) {s : Rest} {o : Option α} {rest : List Char}
    (h : Leaves (Read.enclosed (Read.member? field m) closeObject) s o rest) :
    ∃ cs, Record field hasDefault spelled ('\x7b' :: cs) o ∧ s.text = cs ++ rest := by
  obtain ⟨_, _, inner, closed⟩ := h.of_enclosed
  obtain ⟨ms, ws, _, members, blanks, rfl, parted⟩ := Leaves.of_member? reads inner
  obtain ⟨ws', blanks', parted'⟩ := leaves_closeObject.mp closed
  obtain rfl := eq_nil_of_blanks blanks' (by decide) parted'
  exact ⟨_, .object members blanks, by simpa [parted] using parted'⟩

theorem Leaves.list_empty {ws rest : List Char} {place : Place} (inside : Blanks ws) :
    Leaves (Read.enclosed (element name true m) closeList)
      ⟨ws ++ ']' :: rest, place⟩ none rest := by
  refine Leaves.enclosed ?_ fun place => leaves_closeList.mpr ⟨[], List.forall_mem_nil _, rfl⟩
  exact (Leaves.element?_none inside).bind fun place => leaves_pure.mpr ⟨rfl, rfl⟩

theorem Leaves.list (reads : Reads m spelled) {ws v ws' rest : List Char} {a : α} {place : Place}
    (before : Blanks ws) (value : spelled v a) (after : Blanks ws') :
    Leaves (Read.enclosed (element name hasDefault m) closeList)
      ⟨ws ++ (v ++ (ws' ++ ']' :: rest)), place⟩ (some a) rest := by
  refine Leaves.enclosed ?_ fun place => leaves_closeList.mpr ⟨ws', after, rfl⟩
  have stops : Stops (ws' ++ ']' :: rest) := stops_blanks after (by simp)
  exact (Leaves.element? reads before value stops).bind fun place => leaves_pure.mpr ⟨rfl, rfl⟩

theorem Leaves.object (reads : Reads m spelled) {ms ws rest : List Char} {o : Option α}
    {place : Place} (members : Fields field spelled true ms o) (after : Blanks ws) :
    Leaves (Read.enclosed (Read.member? field m) closeObject)
      ⟨ms ++ (ws ++ '\x7d' :: rest), place⟩ o rest :=
  Leaves.enclosed (Leaves.member? reads members after) fun _ =>
    leaves_closeObject.mpr ⟨[], List.forall_mem_nil _, rfl⟩

/-- A record is read as it is spelled. -/
theorem Reads.record (reads : Reads m spelled) (name field : String) (hasDefault : Bool) :
    Reads (Read.record name field hasDefault m) (Record field hasDefault spelled) where
  sound := by
    intro s o rest h
    obtain ⟨ws, text, place, before, -, parted, further⟩ := h.of_blanks_bind
    suffices found : ∃ cs, Record field hasDefault spelled cs o ∧ text = cs ++ rest by
      obtain ⟨cs, value, rfl⟩ := found
      exact ⟨ws, cs, before, value, parted⟩
    split at further
    · exact absurd further (by simp)
    · rename_i led
      obtain ⟨text, rfl⟩ := List.head?_eq_some_iff.mp led
      obtain ⟨cs, record, parted'⟩ := Leaves.of_list reads (leaves_skip_bind.mp further)
      exact ⟨_, record, congrArg (List.cons '[') parted'⟩
    · rename_i led
      obtain ⟨text, rfl⟩ := List.head?_eq_some_iff.mp led
      obtain ⟨cs, record, parted'⟩ := Leaves.of_object reads (leaves_skip_bind.mp further)
      exact ⟨_, record, congrArg (List.cons '\x7b') parted'⟩
    · exact absurd further (by simp)
  complete := by
    intro ws cs rest o place before value stops
    cases value with
    | emptyList default inside =>
      subst default
      simp only [List.append_assoc, List.cons_append, List.nil_append]
      exact (Leaves.blanks_mark before (by decide)).bind fun place =>
        leaves_skip_bind.mpr (Leaves.list_empty inside)
    | list before' value after =>
      simp only [List.append_assoc, List.cons_append, List.nil_append]
      exact (Leaves.blanks_mark before (by decide)).bind fun place =>
        leaves_skip_bind.mpr (Leaves.list reads before' value after)
    | object members after =>
      simp only [List.append_assoc, List.cons_append, List.nil_append]
      exact (Leaves.blanks_mark before (by decide)).bind fun place =>
        leaves_skip_bind.mpr (Leaves.object reads members after)
  solid value := by
    cases value with
    | emptyList default inside => exact ⟨_, _, rfl, by unfold Solid; decide⟩
    | list before value after => exact ⟨_, _, rfl, by unfold Solid; decide⟩
    | object members after => exact ⟨_, _, rfl, by unfold Solid; decide⟩

end Records

/-- Reads up to the end of a text. -/
def toEnd (m : Read α) : Read α := do
  let a ← m
  match ← blanks with
  | none => return a
  | some _ => failAhead .trailingText

/-- What came out, without what is left of the text. -/
def answer : EStateM.Result Failure Rest α → Except Failure α
  | .ok a _ => .ok a
  | .error e _ => .error e

theorem read_eq_ok_iff_toEnd {m : Read α} {text : String} {a : α} :
    read m text = .ok a ↔ ∃ rest, Leaves (toEnd m) ⟨text.toList, ⟨1, 0⟩⟩ a rest := by
  unfold Leaves
  change answer (toEnd m ⟨text.toList, ⟨1, 0⟩⟩) = .ok a ↔ _
  cases toEnd m ⟨text.toList, ⟨1, 0⟩⟩ with
  | ok b s =>
    constructor
    · rintro ⟨⟩
      exact ⟨s.text, s.place, rfl⟩
    · rintro ⟨_, _, ⟨⟩⟩
      rfl
  | error e s =>
    constructor
    · rintro ⟨⟩
    · rintro ⟨_, _, ⟨⟩⟩

/-- A text is read as the document that it spells, and not at all if it spells none. -/
theorem read_eq_ok_iff {m : Read α} {spelled : List Char → α → Prop} (reads : Reads m spelled)
    {text : String} {a : α} : read m text = .ok a ↔ Document spelled text a := by
  rw [read_eq_ok_iff_toEnd]
  constructor
  · rintro ⟨rest, h⟩
    obtain ⟨a, middle, place, first, further⟩ := h.parts
    obtain ⟨ws, cs, before, value, parted⟩ := reads.sound first
    obtain ⟨ws', behind, _, after, -, parted', last⟩ := further.of_blanks_bind
    split at last
    · rename_i ended
      obtain ⟨rfl, -⟩ := leaves_pure.mp last
      obtain rfl := List.head?_eq_none_iff.mp ended
      dsimp only at parted parted'
      exact ⟨ws, cs, ws', before, value, after, by simp [parted, parted']⟩
    · exact absurd last (by simp)
  · rintro ⟨ws, cs, ws', before, value, after, parted⟩
    have ended : Stops [] := fun c led => nomatch led
    have stops : Stops ws' := List.append_nil ws' ▸ stops_append after ended
    have passed {place : Place} : Leaves blanks ⟨ws', place⟩ none [] := by
      have run : Leaves blanks ⟨ws' ++ [], place⟩ none [] := Leaves.blanks after (by simp)
      rwa [List.append_nil] at run
    rw [parted]
    refine ⟨[], (reads.complete before value stops).bind fun place => ?_⟩
    exact passed.bind fun place => leaves_pure.mpr ⟨rfl, rfl⟩

end Read

end RouteManifest.Json
