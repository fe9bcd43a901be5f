import RouteManifest.Json.Record

/-!
# What a reader of JSON leaves

A reader answers and leaves a rest of its text. Where the rest stands is left open: of two readers
one after the other, the second goes on with what the first one leaves.
-/

namespace RouteManifest.Json

namespace Spelling

/-- Blanks between the parts of a document. -/
def Blanks (cs : List Char) : Prop := ∀ c ∈ cs, Read.isBlank c

end Spelling

open Spelling

namespace Read

variable {α β : Type}

/-! ## Answers and what they leave -/

/-- The reader answers and leaves a rest. -/
def Leaves (m : Read α) (s : Rest) (a : α) (rest : List Char) : Prop :=
  ∃ place, m s = .ok a ⟨rest, place⟩

theorem leaves_bind_iff {m : Read α} {f : α → Read β} {s : Rest} {b : β} {rest : List Char} :
    Leaves (m >>= f) s b rest ↔ ∃ a s', m s = .ok a s' ∧ Leaves (f a) s' b rest := by
  unfold Leaves
  change (∃ place, EStateM.bind m f s = _) ↔ _
  rw [EStateM.bind]
  cases m s with
  | ok a s' =>
    constructor
    · exact fun run => ⟨a, s', rfl, run⟩
    · rintro ⟨_, _, ⟨⟩, run⟩
      exact run
  | error e s' =>
    constructor
    · rintro ⟨place, ⟨⟩⟩
    · rintro ⟨_, _, ⟨⟩, _⟩

theorem Leaves.bind {m : Read α} {f : α → Read β} {s : Rest} {a : α} {b : β}
    {middle rest : List Char} (first : Leaves m s a middle)
    (second : ∀ place, Leaves (f a) ⟨middle, place⟩ b rest) : Leaves (m >>= f) s b rest := by
  obtain ⟨place, run⟩ := first
  exact leaves_bind_iff.mpr ⟨a, _, run, second place⟩

/-- What a sequence reads is read by its parts. -/
theorem Leaves.parts {m : Read α} {f : α → Read β} {s : Rest} {b : β} {rest : List Char}
    (h : Leaves (m >>= f) s b rest) :
    ∃ a middle place, Leaves m s a middle ∧ Leaves (f a) ⟨middle, place⟩ b rest := by
  obtain ⟨a, s', run, further⟩ := leaves_bind_iff.mp h
  exact ⟨a, s'.text, s'.place, ⟨s'.place, run⟩, further⟩

@[simp] theorem leaves_pure {s : Rest} {a b : α} {rest : List Char} :
    Leaves (pure a) s b rest ↔ a = b ∧ s.text = rest := by
  constructor
  · rintro ⟨place, run⟩
    cases run
    exact ⟨rfl, rfl⟩
  · rintro ⟨rfl, rfl⟩
    exact ⟨s.place, rfl⟩

@[simp] theorem leaves_failHere {fault : Fault} {s : Rest} {a : α} {rest : List Char} :
    Leaves (failHere fault) s a rest ↔ False := by
  simp only [iff_false]
  rintro ⟨place, run⟩
  cases run

@[simp] theorem leaves_failAhead {fault : Fault} {s : Rest} {a : α} {rest : List Char} :
    Leaves (failAhead fault) s a rest ↔ False := by
  simp only [iff_false]
  rintro ⟨place, run⟩
  cases run

@[simp] theorem leaves_reject {message : String} {s : Rest} {a : α} {rest : List Char} :
    Leaves (reject message) s a rest ↔ False := by
  simp only [iff_false]
  rintro ⟨place, run⟩
  cases run

/-- What fails does not go on. -/
@[simp] theorem leaves_failAhead_bind {fault : Fault} {f : α → Read β} {s : Rest} {b : β}
    {rest : List Char} : Leaves (failAhead fault >>= f) s b rest ↔ False := by
  simp only [iff_false]
  intro h
  obtain ⟨_, _, _, failed, _⟩ := h.parts
  exact leaves_failAhead.mp failed

@[simp] theorem leaves_peek?_bind {f : Option Char → Read β} {s : Rest} {b : β}
    {rest : List Char} : Leaves (peek? >>= f) s b rest ↔ Leaves (f s.text.head?) s b rest := by
  rw [leaves_bind_iff]
  constructor
  · rintro ⟨_, _, ⟨⟩, further⟩
    exact further
  · exact fun further => ⟨_, s, rfl, further⟩

@[simp] theorem leaves_steps_bind {f : Nat → Read β} {s : Rest} {b : β} {rest : List Char} :
    Leaves (steps >>= f) s b rest ↔ Leaves (f (2 * s.text.length + 2)) s b rest := by
  rw [leaves_bind_iff]
  constructor
  · rintro ⟨_, _, ⟨⟩, further⟩
    exact further
  · exact fun further => ⟨_, s, rfl, further⟩

@[simp] theorem leaves_get_bind {f : Rest → Read β} {s : Rest} {b : β} {rest : List Char} :
    Leaves (get >>= f) s b rest ↔ Leaves (f s) s b rest := by
  rw [leaves_bind_iff]
  constructor
  · rintro ⟨_, _, ⟨⟩, further⟩
    exact further
  · exact fun further => ⟨_, s, rfl, further⟩

@[simp] theorem leaves_set_bind {f : PUnit → Read β} {s s' : Rest} {b : β} {rest : List Char} :
    Leaves (set s' >>= f) s b rest ↔ Leaves (f ⟨⟩) s' b rest := by
  rw [leaves_bind_iff]
  constructor
  · rintro ⟨_, _, ⟨⟩, further⟩
    exact further
  · exact fun further => ⟨_, s', rfl, further⟩

@[simp] theorem leaves_skip_bind {f : PUnit → Read β} {c : Char} {cs : List Char}
    {place : Place} {b : β} {rest : List Char} :
    Leaves (skip >>= f) ⟨c :: cs, place⟩ b rest ↔ Leaves (f ()) ⟨cs, place.after c⟩ b rest := by
  rw [leaves_bind_iff]
  constructor
  · rintro ⟨_, _, ⟨⟩, further⟩
    exact further
  · exact fun further => ⟨_, _, rfl, further⟩

@[simp] theorem leaves_skip {c : Char} {cs : List Char} {place : Place} {u : PUnit}
    {rest : List Char} : Leaves skip ⟨c :: cs, place⟩ u rest ↔ cs = rest := by
  constructor
  · rintro ⟨_, ⟨⟩⟩
    rfl
  · rintro rfl
    exact ⟨_, rfl⟩

@[simp] theorem leaves_ite {c : Prop} [Decidable c] {m n : Read α} {s : Rest} {a : α}
    {rest : List Char} :
    Leaves (if c then m else n) s a rest ↔ if c then Leaves m s a rest else Leaves n s a rest := by
  split
  · rfl
  · rfl

/-! ## Blanks and words -/

theorem leaves_blanks_go {fuel : Nat} {s : Rest} (enough : s.text.length < fuel) :
    Leaves (blanks.go fuel) s (s.text.dropWhile isBlank).head? (s.text.dropWhile isBlank) := by
  induction fuel generalizing s with
  | zero => exact absurd enough (Nat.not_lt_zero _)
  | succ fuel ih =>
    obtain ⟨text, place⟩ := s
    rw [blanks.go, leaves_peek?_bind]
    cases text with
    | nil => simp
    | cons c cs =>
      have further : cs.length < fuel := by simpa using enough
      by_cases blank : isBlank c
      · simpa [blank] using ih (s := ⟨cs, place.after c⟩) further
      · simp [blank]

theorem leaves_blanks (s : Rest) :
    Leaves blanks s (s.text.dropWhile isBlank).head? (s.text.dropWhile isBlank) := by
  rw [blanks, leaves_steps_bind]
  exact leaves_blanks_go (by omega)

/-- Blanks are passed up to a character that is none, which is the answer. -/
theorem Leaves.blanks {ws text : List Char} {place : Place} (are_blanks : Blanks ws)
    (solid : ∀ c, text.head? = some c → isBlank c = false) :
    Leaves Read.blanks ⟨ws ++ text, place⟩ text.head? text := by
  have left : (ws ++ text).dropWhile isBlank = text := by
    rw [List.dropWhile_append_of_pos are_blanks]
    cases text with
    | nil => rfl
    | cons c cs => exact List.dropWhile_cons_of_neg (by simp [solid c rfl])
  have run := leaves_blanks ⟨ws ++ text, place⟩
  rwa [left] at run

theorem Leaves.blanks_mark {ws rest : List Char} {mark : Char} {place : Place}
    (are_blanks : Blanks ws) (solid : isBlank mark = false) :
    Leaves Read.blanks ⟨ws ++ mark :: rest, place⟩ (some mark) (mark :: rest) :=
  Leaves.blanks are_blanks fun _ led => Option.some.inj led ▸ solid

theorem Leaves.of_blanks {s : Rest} {c? : Option Char} {rest : List Char}
    (h : Leaves Read.blanks s c? rest) :
    c? = rest.head? ∧ (∀ c, rest.head? = some c → isBlank c = false) ∧
      ∃ ws, Blanks ws ∧ s.text = ws ++ rest := by
  obtain ⟨place, run⟩ := h
  obtain ⟨place', run'⟩ := leaves_blanks s
  rw [run] at run'
  obtain ⟨rfl, rfl⟩ : (s.text.dropWhile isBlank).head? = c? ∧ s.text.dropWhile isBlank = rest := by
    injection run' with same left
    exact ⟨same.symm, (congrArg Rest.text left).symm⟩
  refine ⟨rfl, fun c led => ?_, s.text.takeWhile isBlank, ?_, List.takeWhile_append_dropWhile.symm⟩
  · have other := List.head?_dropWhile_not isBlank s.text
    rw [led] at other
    simpa using other
  · exact List.all_eq_true.mp List.all_takeWhile

/-- What follows blanks goes on from the character behind them. -/
theorem Leaves.of_blanks_bind {f : Option Char → Read β} {s : Rest} {b : β} {rest : List Char}
    (h : Leaves (Read.blanks >>= f) s b rest) :
    ∃ ws text place, Blanks ws ∧ (∀ c, text.head? = some c → isBlank c = false) ∧
      s.text = ws ++ text ∧ Leaves (f text.head?) ⟨text, place⟩ b rest := by
  obtain ⟨c?, text, place, passed, further⟩ := h.parts
  obtain ⟨rfl, solid, ws, are_blanks, parted⟩ := passed.of_blanks
  exact ⟨ws, text, place, are_blanks, solid, parted, further⟩

/-- A reader that looks for a character behind blanks and takes nothing else. -/
theorem leaves_mark {f : Option Char → Read PUnit} {mark : Char} (solid : isBlank mark = false)
    (taken : f (some mark) = skip)
    (refused : ∀ c?, c? ≠ some mark → ∀ s u rest, ¬ Leaves (f c?) s u rest)
    {s : Rest} {u : PUnit} {rest : List Char} :
    Leaves (Read.blanks >>= f) s u rest ↔ ∃ ws, Blanks ws ∧ s.text = ws ++ mark :: rest := by
  constructor
  · intro h
    obtain ⟨ws, text, place, are_blanks, -, parted, further⟩ := h.of_blanks_bind
    by_cases led : text.head? = some mark
    · obtain ⟨text, rfl⟩ := List.head?_eq_some_iff.mp led
      rw [List.head?_cons, taken] at further
      obtain rfl := leaves_skip.mp further
      exact ⟨ws, are_blanks, parted⟩
    · exact absurd further (refused _ led _ _ _)
  · rintro ⟨ws, are_blanks, parted⟩
    obtain ⟨text, place⟩ := s
    obtain rfl : text = ws ++ mark :: rest := parted
    refine (Leaves.blanks_mark are_blanks solid).bind fun place' => ?_
    rw [taken]
    exact leaves_skip.mpr rfl

theorem leaves_word {cs : List Char} {s : Rest} {u : PUnit} {rest : List Char} :
    Leaves (word cs) s u rest ↔ s.text = cs ++ rest := by
  induction cs generalizing s with
  | nil => simp [word]
  | cons c cs ih =>
    obtain ⟨text, place⟩ := s
    rw [word, leaves_peek?_bind]
    cases text with
    | nil => simp
    | cons d ds =>
      by_cases same : c = d
      · subst same
        simp [ih]
      · simp [same, Ne.symm same]

end Read

end RouteManifest.Json
