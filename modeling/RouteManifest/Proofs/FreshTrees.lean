import Mathlib.Data.List.Basic
import RouteManifest.Script.Grammar.Function

/-!
# Trees as they are read

What a reader of modules builds has no levels yet: every name has the level zero, and every import
keeps what it imports in a list. A reader that is put together of others gives such trees if the
others do, whatever is read and whatever is done with the state. So how readers are put together
is one inductive predicate, and what they answer is shown once, by induction on it.
-/

namespace RouteManifest.Script

/-- A name has no level, and an import has its specifiers in a list. -/
def Shape.startsWith : Shape → List Tree → Prop
  | .ident _ level _, _ => level = 0
  | .importDecl _, parts => ∃ items span rest, parts = .node .list span items :: rest
  | _, _ => True

namespace Shape

variable {parts : List Tree}

@[simp] theorem startsWith_ident {name : String} {level : Nat} {isOptional : Bool} :
    (ident name level isOptional).startsWith parts ↔ level = 0 := Iff.rfl

@[simp] theorem startsWith_list {typeOnly : Bool} {items : List Tree} :
    (importDecl typeOnly).startsWith (.list items :: parts) := ⟨_, _, _, rfl⟩

@[simp] theorem startsWith_other {shape : Shape}
    (noName : ∀ name level isOptional, shape ≠ .ident name level isOptional)
    (noImport : ∀ typeOnly, shape ≠ .importDecl typeOnly) : shape.startsWith parts := by
  unfold startsWith
  split
  · exact absurd rfl (noName _ _ _)
  · exact absurd rfl (noImport _)
  · trivial

end Shape

/-- A tree as a reader builds it. -/
def Tree.Fresh : Tree → Prop
  | node shape _ parts => shape.startsWith parts ∧ all parts
where
  all : List Tree → Prop
    | [] => True
    | p :: ps => Fresh p ∧ all ps

/-- Data that may hold trees, with what it is that all of them are fresh. -/
class HasTrees (α : Type) where
  fresh : α → Prop

export HasTrees (fresh)

section Instances

variable {α β : Type}

/-- Tokens, positions and the like hold no trees. -/
instance (priority := low) : HasTrees α := ⟨fun _ => True⟩

instance : HasTrees Tree := ⟨Tree.Fresh⟩

variable [HasTrees α] [HasTrees β]

instance : HasTrees (List α) := ⟨List.Forall fresh⟩

instance : HasTrees (Option α) := ⟨fun found => found.elim True fresh⟩

instance : HasTrees (α × β) := ⟨fun p => fresh p.1 ∧ fresh p.2⟩

instance : HasTrees (MProd α β) := ⟨fun p => fresh p.1 ∧ fresh p.2⟩

instance : HasTrees (α ⊕ β) := ⟨Sum.elim fresh fresh⟩

instance : HasTrees (Grammar.Turn α β) where
  fresh
    | .again a => fresh a
    | .done b => fresh b

instance : HasTrees (ForInStep α) where
  fresh
    | .yield a => fresh a
    | .done a => fresh a

end Instances

/-- Data without trees. -/
class Treeless (α : Type) [HasTrees α] : Prop where
  all : ∀ a : α, fresh a

section Fresh

variable {α β : Type}

instance : @Treeless α ⟨fun _ => True⟩ :=
  letI : HasTrees α := ⟨fun _ => True⟩
  ⟨fun _ => trivial⟩

variable [HasTrees α] [HasTrees β]

instance [Treeless α] : Treeless (List α) :=
  ⟨fun _ => List.forall_iff_forall_mem.mpr fun a _ => Treeless.all a⟩

instance [Treeless α] : Treeless (Option α) where
  all
    | none => trivial
    | some a => Treeless.all a

instance [Treeless α] [Treeless β] : Treeless (α × β) :=
  ⟨fun p => ⟨Treeless.all p.1, Treeless.all p.2⟩⟩

@[simp] theorem fresh_of_treeless [Treeless α] {a : α} : fresh a := Treeless.all a

theorem fresh_iff_mem {items : List α} : fresh items ↔ ∀ a ∈ items, fresh a :=
  List.forall_iff_forall_mem

@[simp] theorem fresh_nil : fresh ([] : List α) := trivial

@[simp] theorem fresh_cons {a : α} {items : List α} :
    fresh (a :: items) ↔ fresh a ∧ fresh items := List.forall_cons _ _ _

@[simp] theorem fresh_append {first second : List α} :
    fresh (first ++ second) ↔ fresh first ∧ fresh second := List.forall_append

@[simp] theorem fresh_reverse {items : List α} : fresh items.reverse ↔ fresh items := by
  simp [fresh_iff_mem]

@[simp] theorem fresh_some {a : α} : fresh (some a) ↔ fresh a := Iff.rfl

@[simp] theorem fresh_none : fresh (none : Option α) := trivial

@[simp] theorem fresh_prod {p : α × β} : fresh p ↔ fresh p.1 ∧ fresh p.2 := Iff.rfl

@[simp] theorem fresh_mprod {p : MProd α β} : fresh p ↔ fresh p.1 ∧ fresh p.2 := Iff.rfl

@[simp] theorem fresh_inl {a : α} : fresh (.inl a : α ⊕ β) ↔ fresh a := Iff.rfl

@[simp] theorem fresh_inr {b : β} : fresh (.inr b : α ⊕ β) ↔ fresh b := Iff.rfl

@[simp] theorem fresh_again {a : α} : fresh (.again a : Grammar.Turn α β) ↔ fresh a := Iff.rfl

@[simp] theorem fresh_done {b : β} : fresh (.done b : Grammar.Turn α β) ↔ fresh b := Iff.rfl

@[simp] theorem fresh_yield {a : α} : fresh (ForInStep.yield a) ↔ fresh a := Iff.rfl

@[simp] theorem fresh_step_done {a : α} : fresh (ForInStep.done a) ↔ fresh a := Iff.rfl

@[simp] theorem fresh_map {f : α → β} {items : List α} (each : ∀ a, fresh a → fresh (f a))
    (h : fresh items) : fresh (items.map f) := by
  rw [fresh_iff_mem] at h ⊢
  intro b member
  obtain ⟨a, inside, rfl⟩ := List.mem_map.mp member
  exact each a (h a inside)

@[simp] theorem fresh_option_map {f : α → β} {found : Option α} (each : ∀ a, fresh a → fresh (f a))
    (h : fresh found) : fresh (found.map f) := by
  cases found with
  | none => exact fresh_none
  | some a => exact each a h

@[simp] theorem fresh_getD {found : Option α} {a : α} (h : fresh found) (other : fresh a) :
    fresh (found.getD a) := by
  cases found with
  | none => exact other
  | some b => exact h

@[simp] theorem fresh_flatten {lists : List (List α)} (h : fresh lists) : fresh lists.flatten := by
  rw [fresh_iff_mem] at h ⊢
  intro a member
  obtain ⟨items, inside, member⟩ := List.mem_flatten.mp member
  exact fresh_iff_mem.mp (h items inside) a member

@[simp] theorem fresh_dropWhile {items : List α} {p : α → Bool} (h : fresh items) :
    fresh (items.dropWhile p) := by
  rw [fresh_iff_mem] at h ⊢
  exact fun a member => h a ((List.dropWhile_sublist p).subset member)

@[simp] theorem fresh_zipIdx {items : List α} (h : fresh items) (n : Nat) :
    fresh (items.zipIdx n) := by
  rw [fresh_iff_mem] at h ⊢
  exact fun p member => ⟨h _ (List.fst_mem_of_mem_zipIdx member), fresh_of_treeless⟩

end Fresh

namespace Tree

variable {t : Tree}

theorem fresh_all_iff {parts : List Tree} : Fresh.all parts ↔ fresh parts := by
  induction parts with
  | nil => exact Iff.rfl
  | cons p ps ih =>
    rw [fresh_cons, Fresh.all, ih]
    exact Iff.rfl

@[simp] theorem fresh_node {shape : Shape} {span : Span} {parts : List Tree} :
    fresh (node shape span parts) ↔ shape.startsWith parts ∧ fresh parts := by
  rw [← fresh_all_iff]
  exact Iff.rfl

@[simp] theorem fresh_absent : fresh absent := by simp [absent]

@[simp] theorem fresh_list {items : List Tree} : fresh (list items) ↔ fresh items := by simp [list]

theorem fresh_iff : fresh t ↔ t.shape.startsWith t.parts ∧ fresh t.parts := by
  cases t
  exact fresh_node

@[simp] theorem startsWith_parts (h : fresh t) : t.shape.startsWith t.parts := (fresh_iff.mp h).1

@[simp] theorem fresh_parts (h : fresh t) : fresh t.parts := (fresh_iff.mp h).2

@[simp] theorem fresh_part (h : fresh t) (i : Nat) : fresh (t.part i) := by
  unfold part
  rw [List.getD_eq_getElem?_getD]
  cases there : t.parts[i]? with
  | none => exact fresh_absent
  | some p => exact fresh_iff_mem.mp (fresh_parts h) p (List.mem_of_getElem? there)

theorem fresh_of_parts_eq {p : Tree} {rest : List Tree} (told : t.parts = p :: rest)
    (h : fresh t) : fresh p := (fresh_cons.mp (told ▸ fresh_parts h)).1

@[simp] theorem fresh_withSpan (h : fresh t) (span : Span) : fresh (t.withSpan span) :=
  fresh_node.mpr (fresh_iff.mp h)

/-- All parts but the first may be replaced: an import keeps its list in the first one. -/
@[simp] theorem fresh_setPart {p : Tree} (h : fresh t) (i : Nat) (other : fresh p) :
    fresh (t.setPart (i + 1) p) := by
  obtain ⟨own, inner⟩ := fresh_iff.mp h
  refine fresh_node.mpr ⟨?_, fresh_iff_mem.mpr fun q member => ?_⟩
  · obtain ⟨shape, span, parts⟩ := t
    cases shape with
    | importDecl typeOnly =>
      obtain ⟨items, place, rest, rfl⟩ := own
      exact ⟨items, place, _, rfl⟩
    | _ => exact own
  · rcases List.mem_or_eq_of_mem_set member with inside | rfl
    · exact fresh_iff_mem.mp inner q inside
    · exact other

@[simp] theorem fresh_ofOption {found : Option Tree} (h : fresh found) :
    fresh (ofOption found) := by
  cases found with
  | none => exact fresh_absent
  | some t => exact fresh_some.mp h

end Tree

@[simp] theorem fresh_markOptional {p : Tree} (h : fresh p) : fresh (Grammar.markOptional p) := by
  unfold Grammar.markOptional
  split <;> simp_all

theorem fresh_of_markOptional_eq {p marked : Tree} (told : Grammar.markOptional p = some marked)
    (h : fresh p) : fresh marked := fresh_some.mp (told ▸ fresh_markOptional h)

namespace Grammar

variable {α β : Type}

/-! ## What readers answer -/

/-- Whatever the reader answers has a property. -/
structure Answers (P : α → Prop) (p : Parse α) : Prop where
  each : ∀ s a s', p s = .ok a s' → P a

namespace Answers

variable {P : α → Prop} {Q : β → Prop} {p : Parse α}

theorem pure {a : α} (h : P a) : Answers P (pure a) := by
  constructor
  rintro s _ _ ⟨⟩
  exact h

theorem bind {f : α → Parse β} (hp : Answers P p) (hf : ∀ a, P a → Answers Q (f a)) :
    Answers Q (p >>= f) := by
  constructor
  intro s b s' run
  change EStateM.bind p f s = _ at run
  rw [EStateM.bind] at run
  cases first : p s with
  | ok a between =>
    rw [first] at run
    exact (hf a (hp.each s a between first)).each between b s' run
  | error e between =>
    rw [first] at run
    cases run

theorem after {before : Parse α} {f : α → Parse β} (h : ∀ a, Answers Q (f a)) :
    Answers Q (before >>= f) :=
  bind (P := fun _ => True) ⟨fun _ _ _ _ => trivial⟩ fun a _ => h a

theorem ite {c : Prop} [Decidable c] {q : Parse α} (hp : Answers P p) (hq : Answers P q) :
    Answers P (if c then p else q) := by
  split
  · exact hp
  · exact hq

theorem throw {e : Stop} : Answers P (throw e : Parse α) := by
  constructor
  rintro s a s' ⟨⟩

theorem tryCatch {handle : Stop → Parse α} (hp : Answers P p)
    (handled : ∀ e, Answers P (handle e)) : Answers P (tryCatch p handle) := by
  constructor
  intro s a s' run
  change EStateM.tryCatch p handle s = _ at run
  rw [EStateM.tryCatch] at run
  cases first : p s with
  | ok b between =>
    rw [first] at run
    cases run
    exact hp.each s a s' first
  | error e between =>
    simp only [first] at run
    exact (handled e).each _ a s' run

/-- Reading in another state, or with another state afterwards, does not change the answer. -/
theorem elsewhere {q : Parse α} (hp : Answers P p) (enter : State → State)
    (answers : ∀ s a s', q s = .ok a s' → ∃ s', p (enter s) = .ok a s') : Answers P q := by
  constructor
  intro s a s' run
  obtain ⟨after, told⟩ := answers s a s' run
  exact hp.each _ a after told

theorem within {change : Context → Context} (hp : Answers P p) :
    Answers P (within change p) := by
  refine hp.elsewhere (fun s => { s with context := change s.context }) fun s a s' run => ?_
  unfold Grammar.within at run
  split at run
  · rename_i b after first
    cases run
    exact ⟨after, first⟩
  · cases run

theorem withoutModes (hp : Answers P p) : Answers P (withoutModes p) := by
  refine hp.elsewhere (fun s =>
    { s with scanner.modes := s.scanner.modes.drop (s.scanner.modes.length - 1) })
    fun s a s' run => ?_
  unfold Grammar.withoutModes at run
  dsimp only at run
  split at run
  · rename_i b after first
    cases run
    exact ⟨after, first⟩
  · cases run

theorem withFreshState (hp : Answers P p) : Answers P (withFreshState p) := by
  refine hp.elsewhere (fun s => { s with labels := [], arrowStart := none, trailingCommas := [] })
    fun s a s' run => ?_
  unfold Grammar.withFreshState at run
  dsimp only at run
  split at run
  · rename_i b after first
    cases run
    exact ⟨after, first⟩
  · cases run

theorem inBody {flags : FunctionFlags} {isArrow : Bool} (hp : Answers P p) :
    Answers P (inBody flags isArrow p) := by
  unfold Grammar.inBody
  refine .after fun _ => .after fun _ => .after fun _ => .ite ?_ hp.withFreshState.within
  exact .after fun _ => .after fun _ => hp.withFreshState.within

theorem failHere {fault : Fault} : Answers P (failHere fault) := by
  unfold Grammar.failHere Grammar.fail
  refine .after fun _ => .after fun _ => ?_
  split
  · exact .after fun _ => .throw
  · exact .throw

theorem attempt {p : Parse (Option α)} [HasTrees α] (hp : Answers fresh p) :
    Answers fresh (attempt p) := by
  constructor
  intro s found s' run
  unfold Grammar.attempt at run
  split at run
  · rename_i a after first
    cases run
    exact hp.within.each s (some a) s' first
  · cases run
    exact fresh_none
  · cases run
    exact fresh_none
  · cases run

theorem iterate {x : α} {step : α → Parse (Turn α β)} [HasTrees α] [HasTrees β] (start : fresh x)
    (next : ∀ x, fresh x → Answers fresh (step x)) : Answers fresh (iterate x step) := by
  have go (fuel : Nat) (x : α) (start : fresh x) : Answers fresh (iterate.go step fuel x) := by
    induction fuel generalizing x with
    | zero => exact .failHere
    | succ fuel ih =>
      rw [iterate.go]
      refine (next x start).bind fun turn h => ?_
      cases turn with
      | again x => exact ih x h
      | done y => exact .pure h
  exact .after fun s => go _ x start

theorem mapM {items : List α} {f : α → Parse β} [HasTrees α] [HasTrees β] (h : fresh items)
    (each : ∀ a, fresh a → Answers fresh (f a)) : Answers fresh (items.mapM f) := by
  induction items with
  | nil => exact .pure fresh_nil
  | cons a items ih =>
    obtain ⟨first, rest⟩ := fresh_cons.mp h
    rw [List.mapM_cons]
    refine (each a first).bind fun b hb => (ih rest).bind fun bs hbs => .pure ?_
    exact fresh_cons.mpr ⟨hb, hbs⟩

theorem forIn {items : List α} {init : β} {f : α → β → Parse (ForInStep β)} [HasTrees α]
    [HasTrees β] (h : fresh items) (start : fresh init)
    (each : ∀ a, fresh a → ∀ b, fresh b → Answers fresh (f a b)) :
    Answers fresh (forIn items init f) := by
  induction items generalizing init with
  | nil => exact .pure start
  | cons a items ih =>
    obtain ⟨first, rest⟩ := fresh_cons.mp h
    rw [List.forIn_cons]
    refine (each a first init start).bind fun turn told => ?_
    cases turn with
    | done b => exact .pure told
    | yield b => exact ih rest told

end Answers

/-- The reader is put together of others that give fresh trees. -/
inductive Gives : {α : Type} → [HasTrees α] → Parse α → Prop
  | any {α : Type} [HasTrees α] [Treeless α] {p : Parse α} : Gives p
  | pure {α : Type} [HasTrees α] {a : α} (h : fresh a) : Gives (pure a)
  | throw {α : Type} [HasTrees α] {e : Stop} : Gives (throw e : Parse α)
  | bind {α β : Type} [HasTrees α] [HasTrees β] {p : Parse α} {f : α → Parse β} (first : Gives p)
      (rest : ∀ a, fresh a → Gives (f a)) : Gives (p >>= f)
  | map {α β : Type} [HasTrees α] [HasTrees β] {p : Parse α} {f : α → β} (first : Gives p)
      (each : ∀ a, fresh a → fresh (f a)) : Gives (f <$> p)
  | ite {α : Type} [HasTrees α] {c : Prop} [Decidable c] {p q : Parse α} (yes : Gives p)
      (no : Gives q) : Gives (if c then p else q)
  | tryCatch {α : Type} [HasTrees α] {p : Parse α} {handle : Stop → Parse α} (first : Gives p)
      (handled : ∀ e, Gives (handle e)) : Gives (tryCatch p handle)
  | within {α : Type} [HasTrees α] {change : Context → Context} {p : Parse α} (inner : Gives p) :
      Gives (within change p)
  | withIn {α : Type} [HasTrees α] {p : Parse α} (inner : Gives p) : Gives (withIn p)
  | withoutIn {α : Type} [HasTrees α] {p : Parse α} (inner : Gives p) : Gives (withoutIn p)
  | inType {α : Type} [HasTrees α] {p : Parse α} (inner : Gives p) : Gives (inType p)
  | inBody {α : Type} [HasTrees α] {flags : FunctionFlags} {isArrow : Bool} {p : Parse α}
      (inner : Gives p) : Gives (inBody flags isArrow p)
  | withoutModes {α : Type} [HasTrees α] {p : Parse α} (inner : Gives p) : Gives (withoutModes p)
  | withFreshState {α : Type} [HasTrees α] {p : Parse α} (inner : Gives p) :
      Gives (withFreshState p)
  | attempt {α : Type} [HasTrees α] {p : Parse (Option α)} (inner : Gives p) : Gives (attempt p)
  | iterate {α β : Type} [HasTrees α] [HasTrees β] {x : α} {step : α → Parse (Turn α β)}
      (start : fresh x) (next : ∀ x, fresh x → Gives (step x)) : Gives (iterate x step)
  | mapM {α β : Type} [HasTrees α] [HasTrees β] {items : List α} {f : α → Parse β}
      (h : fresh items) (each : ∀ a, fresh a → Gives (f a)) : Gives (items.mapM f)
  | forIn {α β : Type} [HasTrees α] [HasTrees β] {items : List α} {init : β}
      {f : α → β → Parse (ForInStep β)} (h : fresh items) (start : fresh init)
      (each : ∀ a, fresh a → ∀ b, fresh b → Gives (f a b)) : Gives (forIn items init f)

namespace Gives

/-- Whatever is read, all trees in the answer are fresh. -/
theorem answers {α : Type} [HasTrees α] {p : Parse α} (h : Gives p) : Answers fresh p := by
  induction h with
  | any => exact ⟨fun _ _ _ _ => Treeless.all _⟩
  | pure h => exact .pure h
  | throw => exact .throw
  | bind _ _ first rest => exact first.bind rest
  | map _ each first => exact first.bind fun a h => .pure (each a h)
  | ite _ _ yes no => exact yes.ite no
  | tryCatch _ _ first handled => exact first.tryCatch handled
  | within _ inner | withIn _ inner | withoutIn _ inner | inType _ inner => exact inner.within
  | inBody _ inner => exact inner.inBody
  | withoutModes _ inner => exact inner.withoutModes
  | withFreshState _ inner => exact inner.withFreshState
  | attempt _ inner => exact inner.attempt
  | iterate start _ next => exact .iterate start next
  | mapM h _ each => exact .mapM h each
  | forIn h start _ each => exact .forIn h start each

variable {α β : Type} [HasTrees α] [HasTrees β]

/-- What several branches go on with gives fresh trees, whatever they hand to it. -/
structure Continues (k : α → Parse β) : Prop where
  each : ∀ a, fresh a → Gives (k a)

theorem joined {γ : Type} [HasTrees γ] {p : Parse α} (k : γ → Parse β) (each : Continues k)
    (h : Continues k → Gives p) : Gives p := h each

@[simp] theorem fail {span : Span} {fault : Fault} : Gives (fail span fault : Parse α) := by
  unfold Grammar.fail
  repeat' first | intro _ | with_reducible constructor | split

@[simp] theorem failHere {fault : Fault} : Gives (failHere fault : Parse α) :=
  .bind .any fun _ _ => .fail

@[simp] theorem unexpected {expectation : String} : Gives (unexpected expectation : Parse α) :=
  .bind .any fun _ _ => .failHere

end Gives

end Grammar

end RouteManifest.Script
