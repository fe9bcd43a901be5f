import RouteManifest.Proofs.Locations

/-!
# Where a faulty module is shown

A property for a module that defers no import is shown at one node: at the first argument of the
call that stands in an arrow, whatever else is wrong with the arrow or the call, or else at the
closest node around the place where that argument should be. The node lies inside the property, and
inside its value if it has one.
-/

namespace RouteManifest.Routes

open Script

/-- The expression of an argument, without the dots of a spread. -/
inductive ExpressionOf : Tree → Tree → Prop
  | plain {argument : Tree}
      (undotted : ∀ dots span e others, argument ≠ .node (.spread dots) span (e :: others)) :
      ExpressionOf argument argument
  | spread {dots span : Span} {e : Tree} {others : List Tree} :
      ExpressionOf (.node (.spread dots) span (e :: others)) e

/-- The node at which a property is shown that should defer an import and does not. -/
inductive ShownAt : Tree → Tree → Prop
  /-- the first argument of the call that an arrow consists of -/
  | argument {span place : Span} {key parameters call first e : Tree} {flags : FunctionFlags}
      {more others : List Tree} (isCall : call.shape = .call)
      (arguments : (call.part 1).parts = first :: others) (expression : ExpressionOf first e) :
      ShownAt (.node .keyValue span
        [key, .node (.arrow flags) place (parameters :: call :: more)]) e
  /-- the call, if it has no arguments -/
  | call {span place : Span} {key parameters call : Tree} {flags : FunctionFlags}
      {more : List Tree} (isCall : call.shape = .call) (bare : (call.part 1).parts = []) :
      ShownAt (.node .keyValue span
        [key, .node (.arrow flags) place (parameters :: call :: more)]) call
  /-- the body of an arrow, if it is no call -/
  | body {span place : Span} {key parameters body : Tree} {flags : FunctionFlags}
      {more : List Tree} (other : body.shape ≠ .call) :
      ShownAt (.node .keyValue span
        [key, .node (.arrow flags) place (parameters :: body :: more)]) body
  /-- the body of a function that is no arrow -/
  | block {span place : Span} {key name function : Tree} {more : List Tree}
      (present : (function.part 2).shape ≠ .absent) :
      ShownAt (.node .keyValue span
        [key, .node .functionExpr place (name :: function :: more)]) (function.part 2)
  /-- such a function, if it has no body -/
  | function {span place : Span} {key name function : Tree} {more : List Tree}
      (bodiless : (function.part 2).shape = .absent) :
      ShownAt (.node .keyValue span
        [key, .node .functionExpr place (name :: function :: more)]) function
  /-- any other value -/
  | value {span : Span} {key value : Tree}
      (arrow : ∀ flags place parameters body more,
        value ≠ .node (.arrow flags) place (parameters :: body :: more))
      (function : ∀ place name function more,
        value ≠ .node .functionExpr place (name :: function :: more)) :
      ShownAt (.node .keyValue span [key, value]) value
  /-- a property in any other form -/
  | property {property : Tree}
      (form : ∀ span key value, property ≠ .node .keyValue span [key, value]) :
      ShownAt property property

theorem exists_expressionOf (argument : Tree) : ∃ e, ExpressionOf argument e := by
  by_cases dotted : ∃ dots span e others, argument = .node (.spread dots) span (e :: others)
  · obtain ⟨dots, span, e, others, rfl⟩ := dotted
    exact ⟨e, .spread⟩
  · simp only [not_exists] at dotted
    exact ⟨argument, .plain dotted⟩

/-- Every property has a node at which it would be shown. -/
theorem exists_shownAt (property : Tree) : ∃ t, ShownAt property t := by
  by_cases form : ∃ span key value, property = .node .keyValue span [key, value]
  · obtain ⟨span, key, value, rfl⟩ := form
    by_cases arrow : ∃ flags place parameters body more,
        value = .node (.arrow flags) place (parameters :: body :: more)
    · obtain ⟨flags, place, parameters, body, more, rfl⟩ := arrow
      by_cases isCall : body.shape = .call
      · cases arguments : (body.part 1).parts with
        | nil => exact ⟨body, .call isCall arguments⟩
        | cons first others =>
          obtain ⟨e, expression⟩ := exists_expressionOf first
          exact ⟨e, .argument isCall arguments expression⟩
      · exact ⟨body, .body isCall⟩
    · by_cases function : ∃ place name function more,
          value = .node .functionExpr place (name :: function :: more)
      · obtain ⟨place, name, function, more, rfl⟩ := function
        by_cases bodiless : (function.part 2).shape = .absent
        · exact ⟨function, .function bodiless⟩
        · exact ⟨function.part 2, .block bodiless⟩
      · simp only [not_exists] at arrow function
        exact ⟨value, .value arrow function⟩
  · simp only [not_exists] at form
    exact ⟨property, .property form⟩

/-- An argument of a call is where the call is shown, unless it is the string of an import. -/
theorem importSpecifier_of_argument {plain : Bool} {call first e : Tree} {others : List Tree}
    (arguments : (call.part 1).parts = first :: others) (expression : ExpressionOf first e) :
    importSpecifier plain call = .error e.span ∨
      ∃ specifier, importSpecifier plain call = .ok specifier := by
  unfold importSpecifier
  rw [arguments]
  cases expression with
  | spread => exact Or.inl rfl
  | plain undotted =>
    dsimp only
    split
    · rename_i none_given
      cases none_given
    · rename_i value raw span parts alone
      obtain ⟨rfl, -⟩ := List.cons.inj alone
      -- the callee is asked for before the flags of the arrow
      split
      · cases plain with
        | true => exact Or.inr ⟨value, rfl⟩
        | false => exact Or.inl rfl
      · left
        rw [Bool.and_false]
        rfl
    · rename_i dots span e more others' given
      exact absurd (List.cons.inj given).1 (undotted dots span e more)
    · rename_i given
      rw [(List.cons.inj given).1]
      exact Or.inl rfl

/-- Wherever a property is shown, it defers an import, or the fault is found there. -/
theorem deferredImport_of_shownAt {property t : Tree} (shown : ShownAt property t) :
    deferredImport property = .error t.span ∨
      ∃ specifier, deferredImport property = .ok specifier := by
  cases shown with
  | argument isCall arguments expression =>
    simp only [deferredImport, value?, isCall]
    exact importSpecifier_of_argument arguments expression
  | call isCall bare =>
    left
    simp only [deferredImport, value?, isCall, importSpecifier, bare, if_true]
  | body other =>
    left
    rw [deferredImport, value?]
    exact if_neg (mt isCall_iff.mp other)
  | block present =>
    left
    simp only [deferredImport, value?]
    rw [if_pos (Tree.isPresent_iff.mpr present)]
  | function bodiless =>
    left
    simp only [deferredImport, value?]
    rw [if_neg fun present => Tree.isPresent_iff.mp present bodiless]
  | value arrow function =>
    left
    unfold deferredImport
    dsimp only [value?]
    split
    · exact absurd rfl (arrow _ _ _ _ _)
    · exact absurd rfl (function _ _ _ _)
    · rfl
  | property form =>
    left
    rcases keyValue_or_value?_eq_none property with ⟨span, key, value, same⟩ | bare
    · exact absurd same (form span key value)
    · rw [deferredImport, bare]

/-- A property is a key and a value that defers an import. -/
def Defers (property : Tree) : Prop :=
  ∃ specifier span key value, property = .node .keyValue span [key, value] ∧
    DefersImport value specifier

theorem defers_iff {property : Tree} :
    Defers property ↔ ∃ specifier, deferredImport property = .ok specifier := by
  simp only [deferredImport_eq_ok_iff]
  rfl

/-- A property that defers no import is at fault where it is shown. -/
theorem deferredImport_eq_error_iff {property : Tree} {stretch : Span} :
    deferredImport property = .error stretch ↔
      ¬ Defers property ∧ ∃ t, ShownAt property t ∧ t.span = stretch := by
  rw [defers_iff]
  constructor
  · intro fault
    obtain ⟨t, shown⟩ := exists_shownAt property
    refine ⟨fun ⟨specifier, found⟩ => (nomatch fault.symm.trans found), t, shown, ?_⟩
    rcases deferredImport_of_shownAt shown with there | ⟨specifier, found⟩
    · exact Except.error.inj (there.symm.trans fault)
    · cases fault.symm.trans found
  · rintro ⟨none_deferred, t, shown, rfl⟩
    exact (deferredImport_of_shownAt shown).resolve_right none_deferred

/-- A property for a module is at fault exactly if it is not a key and a plain arrow that imports
one string. It is then shown at a node that begins inside the property, and inside the value if it
has one, and the error of its route lies where that node begins. -/
theorem deferredImport_fault {property : Tree} (within : property.Within property.span) :
    ((∃ stretch, deferredImport property = .error stretch) ↔ ¬ Defers property) ∧
      (∀ stretch, deferredImport property = .error stretch ↔
        ¬ Defers property ∧ ∃ t, ShownAt property t ∧ t.span = stretch) ∧
      ∀ stretch, deferredImport property = .error stretch →
        (property.span.lo ≤ stretch.lo ∧ stretch.lo ≤ property.span.hi) ∧
        (∀ span key value, property = .node .keyValue span [key, value] →
          value.span.lo ≤ stretch.lo ∧ stretch.lo ≤ value.span.hi) ∧
        ∀ (s : Setting) (session : Session), (s.moduleExports property).run.run session =
          (.error (.error (.moduleShape (s.file.location stretch))), session) := by
  refine ⟨?_, fun stretch => deferredImport_eq_error_iff, fun stretch fault => ⟨?_, ?_, ?_⟩⟩
  · constructor
    · rintro ⟨stretch, fault⟩
      exact (deferredImport_eq_error_iff.mp fault).1
    · intro none_deferred
      obtain ⟨t, shown⟩ := exists_shownAt property
      exact ⟨t.span, deferredImport_eq_error_iff.mpr ⟨none_deferred, t, shown, rfl⟩⟩
  · obtain ⟨start, ordered, stop⟩ := inside_of_deferredImport within fault
    exact ⟨start, Nat.le_trans ordered stop⟩
  · rintro span key value rfl
    have member : value ∈ [key, value] := List.mem_cons_of_mem key List.mem_cons_self
    have placed := within.mark (List.mem_map_of_mem (f := Tree.span) member)
    have own : value.Within value.span :=
      ⟨⟨Nat.le_refl _, placed.2.1, Nat.le_refl _⟩, within.nested.of_mem member⟩
    obtain ⟨start, ordered, stop⟩ := inside_of_keyValue own fault
    exact ⟨start, Nat.le_trans ordered stop⟩
  · intro s session
    unfold Setting.moduleExports
    rw [fault]
    rfl

/-- A tree lies inside a stretch if every node has its marks inside. -/
theorem within_iff {t : Tree} {outer : Span} :
    t.span.Inside outer ∧
        t.everywhere (fun u => u.marks.all fun mark => mark.Inside u.span) = true ↔
      t.Within outer := by
  simp only [Tree.everywhere_iff, List.all_eq_true, decide_eq_true_eq]
  exact ⟨fun ⟨inside, nested⟩ => ⟨inside, nested⟩, fun ⟨inside, nested⟩ => ⟨inside, nested⟩⟩

instance (t : Tree) (outer : Span) : Decidable (t.Within outer) := decidable_of_iff _ within_iff

/-- The node at an address of a routes file. -/
def nodeAt? (f : RoutesFile) (address : Address) : Option Tree :=
  match f.read with
  | .ok m => m.tree.at? address
  | .error _ => none

/-- A routes file with a property at fault in every way at once. -/
def eagerFile : RoutesFile :=
  ⟨⟨"r.ts"⟩, "x=[\x7bmodule:async(a)=>f(...b,\"c\")\x7d]".toList⟩

/-- It is shown behind the dots of the first argument. -/
theorem deferredImport_eagerFile :
    ∃ property, nodeAt? eagerFile [0, 0, 1, 0, 0] = some property ∧
      property.Within property.span ∧ deferredImport property = .error ⟨27, 28⟩ ∧
      ¬ Defers property ∧ property.span.lo ≤ 27 ∧ 27 ≤ property.span.hi := by
  have checked : (nodeAt? eagerFile [0, 0, 1, 0, 0]).any (fun property =>
      decide (property.Within property.span) &&
        decide (errorOf? (deferredImport property) = some ⟨27, 28⟩)) = true := by
    decide +kernel
  rw [Option.any_eq_true] at checked
  obtain ⟨property, found, good⟩ := checked
  simp only [Bool.and_eq_true, decide_eq_true_eq, errorOf?_eq_some_iff] at good
  obtain ⟨within, fault⟩ := good
  obtain ⟨fails, -, placed⟩ := deferredImport_fault within
  exact ⟨property, found, within, fault, fails.mp ⟨_, fault⟩, (placed _ fault).1⟩

end RouteManifest.Routes
