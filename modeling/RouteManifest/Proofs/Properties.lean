import RouteManifest.Routes.Shape

/-!
# Properties of routes

What a property of an object literal is called, and which module a property defers the import of,
stated by the form of the syntax and compared with the functions that look for them. Spreads and
properties whose key is computed or a number have no name.
-/

namespace RouteManifest.Routes

open Script

/-- A key that is an identifier or a string has a name. -/
inductive KeyNamed : Tree → String → Prop
  | ident {name : String} {level : Nat} {isOptional : Bool} {span : Span} {parts : List Tree} :
      KeyNamed (.node (.ident name level isOptional) span parts) name
  | string {name : String} {raw : Option String} {span : Span} {parts : List Tree} :
      KeyNamed (.node (.stringLit name raw) span parts) name

/-- The forms of properties that have a key of their own. -/
def IsKeyed (shape : Shape) : Prop :=
  shape = .keyValue ∨ shape = .assignProp ∨ shape = .getterProp ∨ shape = .setterProp ∨
    shape = .methodProp

/-- A property is called by the name that it consists of, or by the name of its key. -/
inductive Named : Tree → String → Prop
  | shorthand {name : String} {level : Nat} {isOptional : Bool} {span : Span}
      {parts : List Tree} : Named (.node (.ident name level isOptional) span parts) name
  | keyed {shape : Shape} {span : Span} {key : Tree} {rest : List Tree} {name : String}
      (form : IsKeyed shape) (named : KeyNamed key name) :
      Named (.node shape span (key :: rest)) name

theorem keyName?_eq_some_iff {key : Tree} {name : String} :
    keyName? key = some name ↔ KeyNamed key name := by
  constructor
  · intro h
    obtain ⟨shape, span, parts⟩ := key
    unfold keyName? at h
    split at h
    · rename_i form
      cases h
      cases form
      exact .ident
    · rename_i form
      cases h
      cases form
      exact .string
    · cases h
  · intro h
    cases h with
    | ident => rfl
    | string => rfl

theorem propertyName?_eq_some_iff {property : Tree} {name : String} :
    propertyName? property = some name ↔ Named property name := by
  constructor
  · intro h
    obtain ⟨shape, span, parts⟩ := property
    have keyed : keyName? (Tree.part (.node shape span parts) 0) = some name →
        IsKeyed shape → Named (.node shape span parts) name := by
      intro named form
      cases parts with
      | nil => cases named
      | cons key rest => exact .keyed form (keyName?_eq_some_iff.mp named)
    unfold propertyName? at h
    split at h
    · rename_i form
      cases h
      cases form
      exact .shorthand
    · rename_i form
      exact keyed h (Or.inl form)
    · rename_i form
      exact keyed h (Or.inr (Or.inl form))
    · rename_i form
      exact keyed h (Or.inr (Or.inr (Or.inl form)))
    · rename_i form
      exact keyed h (Or.inr (Or.inr (Or.inr (Or.inl form))))
    · rename_i form
      exact keyed h (Or.inr (Or.inr (Or.inr (Or.inr form))))
    · cases h
  · intro h
    cases h with
    | shorthand => rfl
    | keyed form named =>
      have same := keyName?_eq_some_iff.mpr named
      rcases form with rfl | rfl | rfl | rfl | rfl
      all_goals exact same

/-- The first property with a name. -/
def FirstNamed (properties : List Tree) (name : String) (property : Tree) : Prop :=
  Named property name ∧
    ∃ before after, properties = before ++ property :: after ∧ ∀ p ∈ before, ¬ Named p name

theorem find?_eq_some_iff_firstNamed {properties : List Tree} {name : String} {property : Tree} :
    (properties.find? fun p => propertyName? p = some name) = some property ↔
      FirstNamed properties name property := by
  simp only [List.find?_eq_some_iff_append, FirstNamed, decide_eq_true_eq,
    propertyName?_eq_some_iff, Bool.not_eq_true', decide_eq_false_iff_not]

theorem keyValue_or_value?_eq_none (property : Tree) :
    (∃ span key value, property = .node .keyValue span [key, value]) ∨ value? property = none := by
  unfold value?
  split
  · exact Or.inl ⟨_, _, _, rfl⟩
  · exact Or.inr rfl

theorem childArray?_keyValue (span : Span) (key value : Tree) :
    childArray? (.node .keyValue span [key, value]) =
      if keyName? key = some "children" && isArray value then some value else none := by
  simp only [childArray?, propertyName?, value?, Tree.part, Tree.parts, Tree.shape,
    List.getD_cons_zero, Option.filter_some, Bool.and_eq_true, decide_eq_true_eq]
  by_cases named : keyName? key = some "children"
  · simp [named]
  · simp [named]

theorem isArray_iff {t : Tree} : isArray t = true ↔ t.shape = .arrayLit := by
  unfold isArray
  cases t.shape with
  | arrayLit => simp
  | _ => simp

/-- Every property for children is a key and an array. -/
def ChildrenShaped (properties : List Tree) : Prop :=
  ∀ property ∈ properties, Named property "children" →
    ∃ span key value, property = .node .keyValue span [key, value] ∧ value.shape = .arrayLit

/-- A plain arrow without parameters that is nothing but the import of one string. -/
structure DefersImport (value : Tree) (specifier : String) : Prop where
  plain : value.shape = .arrow ⟨false, false⟩
  noParameters : (value.part 0).parts = []
  isCall : (value.part 1).shape = .call
  isImport : ((value.part 1).part 0).shape = .importCallee
  argument : ∃ raw span parts,
    ((value.part 1).part 1).parts = [.node (.stringLit specifier raw) span parts]

theorem importSpecifier_eq_ok_iff {plain : Bool} {call : Tree} {specifier : String} :
    importSpecifier plain call = .ok specifier ↔
      plain = true ∧ (call.part 0).shape = .importCallee ∧
        ∃ raw span parts, (call.part 1).parts = [.node (.stringLit specifier raw) span parts] := by
  constructor
  · intro h
    unfold importSpecifier at h
    split at h
    · rename_i isImport
      split at h
      · cases h
      · rename_i arguments
        simp only [Bool.and_true] at h
        split at h
        · rename_i good
          cases h
          exact ⟨good, isImport, _, _, _, arguments⟩
        · cases h
      · cases h
      · cases h
    · split at h
      · cases h
      · simp at h
      · cases h
      · cases h
  · rintro ⟨rfl, isImport, raw, span, parts, arguments⟩
    unfold importSpecifier
    rw [arguments]
    simp only [isImport, Bool.and_self, if_true]

/-- The specifier of a deferred import is found exactly where there is one. -/
theorem deferredImport_eq_ok_iff {property : Tree} {specifier : String} :
    deferredImport property = .ok specifier ↔
      ∃ span key value, property = .node .keyValue span [key, value] ∧
        DefersImport value specifier := by
  constructor
  · intro h
    unfold deferredImport at h
    split at h
    · cases h
    · rename_i value found
      unfold value? at found
      split at found
      · cases found
        refine ⟨_, _, _, rfl, ?_⟩
        split at h
        · rename_i flags place parameters body others
          split at h
          · rename_i isCall
            obtain ⟨plain, isImport, argument⟩ := importSpecifier_eq_ok_iff.mp h
            obtain ⟨⟨sync, once⟩, bare⟩ :
                (flags.isAsync = false ∧ flags.isGenerator = false) ∧ parameters.parts = [] := by
              simpa using plain
            obtain ⟨isAsync, isGenerator⟩ := flags
            cases sync
            cases once
            refine ⟨rfl, bare, ?_, isImport, argument⟩
            change body.shape = .call
            cases form : body.shape with
            | call => rfl
            | _ => simp [form] at isCall
          · cases h
        · cases h
        · cases h
      · cases found
  · rintro ⟨span, key, value, rfl, plain, noParameters, isCall, isImport, argument⟩
    obtain ⟨shape, place, parts⟩ := value
    cases plain
    match parts with
    | [] => cases isCall
    | [_] => cases isCall
    | parameters :: body :: others =>
      change parameters.parts = [] at noParameters
      change body.shape = .call at isCall
      have found := importSpecifier_eq_ok_iff.mpr ⟨rfl, isImport, argument⟩
      simp only [deferredImport, value?, noParameters, isCall]
      exact found

end RouteManifest.Routes
