import RouteManifest.Exports
import RouteManifest.Proofs.Naming
import RouteManifest.Proofs.Occurrences
import RouteManifest.Script.Module

/-!
# What modules export

Where a module exports which name, told by the form of its items: by declarations, whose patterns
may be nested, by lists of exports, by defaults, and by references that are exported. The names of
a module are these, each where it comes first, in the order in which they are written.
-/

namespace RouteManifest.Exports

open Script

/-- The patterns that bind what their first part binds: by elements, by properties, for a rest, or
with a default. -/
inductive Opening : Shape → Prop
  | array {isOptional : Bool} : Opening (.arrayPattern isOptional)
  | object {isOptional : Bool} : Opening (.objectPattern isOptional)
  | rest {dots : Span} : Opening (.restPattern dots)
  | default : Opening .assignPattern

/-- A pattern binds a name at an address. The key of a renamed property is no such name, and neither
is anything in a default. -/
inductive BindsAt : Tree → Address → String → Prop
  | plain {t : Tree} {name : String} (form : t.shape = .bindingIdent)
      (named : (t.part 0).name? = some name) : BindsAt t [0] name
  | property {t : Tree} {name : String} (form : t.shape = .shorthandPattern)
      (named : (t.part 0).name? = some name) : BindsAt t [0] name
  | opened {t : Tree} {address : Address} {name : String} (form : Opening t.shape)
      (below : BindsAt (t.part 0) address name) : BindsAt t (0 :: address) name
  | renamed {t : Tree} {address : Address} {name : String} (form : t.shape = .keyValuePattern)
      (both : t.parts.length = 2) (below : BindsAt (t.part 1) address name) :
      BindsAt t (1 :: address) name
  | element {t p : Tree} {i : Nat} {address : Address} {name : String} (form : t.shape = .list)
      (there : t.parts[i]? = some p) (below : BindsAt p address name) :
      BindsAt t (i :: address) name

/-- The declarations that have one name of their own at run time. -/
inductive OwnNamed : Shape → Prop
  | ofFunction : OwnNamed (.functionDecl false)
  | ofClass : OwnNamed (.classDecl false)
  | ofEnum {isConst : Bool} : OwnNamed (.enumDecl false isConst)
  | ofNamespace : OwnNamed (.namespaceDecl false false)

/-- A declaration declares a name at an address, for the time when the module runs. -/
inductive DeclaresAt : Tree → Address → String → Prop
  | own {decl : Tree} {name : String} (form : OwnNamed decl.shape)
      (named : (decl.part 0).name? = some name) : DeclaresAt decl [0] name
  | bound {decl declarator : Tree} {kind : String} {i : Nat} {address : Address} {name : String}
      (form : decl.shape = .variableDecl kind false) (there : decl.parts[i]? = some declarator)
      (below : BindsAt (declarator.part 0) address name) : DeclaresAt decl (i :: 0 :: address) name

/-- A name is written as an identifier or as a string. -/
inductive Spells : Tree → String → Prop
  | identifier {t : Tree} {name : String} {level : Nat} {isOptional : Bool}
      (form : t.shape = .ident name level isOptional) : Spells t name
  | string {t : Tree} {name : String} {raw : Option String}
      (form : t.shape = .stringLit name raw) : Spells t name

/-- An entry of a list of exports exports a name at an address. -/
inductive ListsAt : Tree → Address → String → Prop
  | unchanged {entry : Tree} {name : String} (form : entry.shape = .exportSpecifier false)
      (alone : (entry.part 1).isAbsent = true) (spelled : Spells (entry.part 0) name) :
      ListsAt entry [0] name
  | renamed {entry : Tree} {name : String} (form : entry.shape = .exportSpecifier false)
      (other : (entry.part 1).isAbsent = false) (spelled : Spells (entry.part 1) name) :
      ListsAt entry [1] name
  | whole {entry : Tree} {name : String} (form : entry.shape = .exportStarAs)
      (spelled : Spells (entry.part 0) name) : ListsAt entry [0] name
  | default {entry : Tree} {name : String} (form : entry.shape = .exportDefaultFrom)
      (spelled : Spells (entry.part 0) name) : ListsAt entry [0] name

/-- An item of a module exports a name at an address; a default at its own. -/
inductive ItemExports : Tree → Address → String → Prop
  | declaration {item : Tree} {address : Address} {name : String} (form : item.shape = .exportDecl)
      (below : DeclaresAt (item.part 0) address name) : ItemExports item (0 :: address) name
  | listed {item entry : Tree} {i : Nat} {address : Address} {name : String}
      (form : item.shape = .exportNamed false) (there : (item.part 0).parts[i]? = some entry)
      (below : ListsAt entry address name) : ItemExports item (0 :: i :: address) name
  | defaultDeclaration {item : Tree} (form : item.shape = .exportDefaultDecl)
      (value : ∀ isDeclare, (item.part 0).shape ≠ .interfaceDecl isDeclare) :
      ItemExports item [] "default"
  | defaultExpression {item : Tree} (form : item.shape = .exportDefaultExpr) :
      ItemExports item [] "default"
  | reference {item : Tree} {name : String} (form : item.shape = .importEquals true false)
      (named : (item.part 0).name? = some name) : ItemExports item [0] name

/-- A module exports a name at an address. -/
def ExportsAt (module : Tree) (address : Address) (name : String) : Prop :=
  ∃ i item below, module.parts[i]? = some item ∧ address = i :: below ∧ ItemExports item below name

theorem nameText?_eq_some_iff {t : Tree} {name : String} :
    nameText? t = some name ↔ Spells t name := by
  constructor
  · intro h
    unfold nameText? at h
    split at h
    · rename_i form
      cases h
      exact .identifier form
    · rename_i form
      cases h
      exact .string form
    · cases h
  · rintro (form | form)
    · rw [nameText?, form]
    · rw [nameText?, form]

namespace BindsAt

variable {t : Tree} {a : Address} {n : String}

theorem iff_of_binder (form : t.shape = .bindingIdent ∨ t.shape = .shorthandPattern) :
    BindsAt t a n ↔ a = [0] ∧ (t.part 0).name? = some n := by
  constructor
  · rintro (⟨_, named⟩ | ⟨_, named⟩ | opened | form' | form')
    · exact ⟨rfl, named⟩
    · exact ⟨rfl, named⟩
    · rcases form with form | form
      all_goals
        rw [form] at opened
        cases opened
    · simp [form'] at form
    · simp [form'] at form
  · rintro ⟨rfl, named⟩
    rcases form with form | form
    · exact .plain form named
    · exact .property form named

theorem iff_of_opening (form : Opening t.shape) :
    BindsAt t a n ↔ ∃ inner, a = 0 :: inner ∧ BindsAt (t.part 0) inner n := by
  constructor
  · rintro (form' | form' | ⟨_, below⟩ | form' | form')
    · rw [form'] at form
      cases form
    · rw [form'] at form
      cases form
    · exact ⟨_, rfl, below⟩
    · rw [form'] at form
      cases form
    · rw [form'] at form
      cases form
  · rintro ⟨inner, rfl, below⟩
    exact .opened form below

theorem iff_of_renamed (form : t.shape = .keyValuePattern) :
    BindsAt t a n ↔ t.parts.length = 2 ∧ ∃ inner, a = 1 :: inner ∧ BindsAt (t.part 1) inner n := by
  constructor
  · rintro (form' | form' | opened | ⟨_, both, below⟩ | form')
    · cases form.symm.trans form'
    · cases form.symm.trans form'
    · rw [form] at opened
      cases opened
    · exact ⟨both, _, rfl, below⟩
    · cases form.symm.trans form'
  · rintro ⟨both, inner, rfl, below⟩
    exact .renamed form both below

theorem iff_of_list (form : t.shape = .list) :
    BindsAt t a n ↔ ∃ i p inner, t.parts[i]? = some p ∧ a = i :: inner ∧ BindsAt p inner n := by
  constructor
  · rintro (form' | form' | opened | form' | ⟨_, there, below⟩)
    · cases form.symm.trans form'
    · cases form.symm.trans form'
    · rw [form] at opened
      cases opened
    · cases form.symm.trans form'
    · exact ⟨_, _, _, there, rfl, below⟩
  · rintro ⟨i, p, inner, there, rfl, below⟩
    exact .element form there below

end BindsAt

/-- The names of a pattern in order, by its shape and its parts. -/
theorem inOrder_boundNames (t : Tree) : InOrder (boundNames t) (BindsAt t) := by
  induction t using Tree.parts_induction with
  | step t ih =>
    have inside : ∀ k, InOrder (boundNames (t.part k)) (BindsAt (t.part k)) := by
      intro k
      cases there : t.parts[k]? with
      | some p =>
        rw [Tree.part_eq_of_getElem? there]
        exact ih p (List.mem_of_getElem? there)
      | none =>
        rw [Tree.part_eq_absent there]
        refine .nothing ?_
        rintro a n (form | form | form | form | form)
        all_goals cases form
    have opened (form : Opening t.shape) : InOrder (boundNames (t.part 0)) (BindsAt t) :=
      ((inside 0).below 0).congr fun a n => (BindsAt.iff_of_opening form).symm
    rw [boundNames_eq]
    cases form : t.shape with
    | bindingIdent => exact .toList [0] fun a n => BindsAt.iff_of_binder (Or.inl form)
    | shorthandPattern => exact .toList [0] fun a n => BindsAt.iff_of_binder (Or.inr form)
    | arrayPattern => exact opened (form ▸ .array)
    | objectPattern => exact opened (form ▸ .object)
    | restPattern => exact opened (form ▸ .rest)
    | assignPattern => exact opened (form ▸ .default)
    | keyValuePattern =>
      change InOrder (if t.parts.length = 2 then boundNames (t.part 1) else []) _
      by_cases both : t.parts.length = 2
      · rw [if_pos both]
        exact ((inside 1).below 1).congr fun a n =>
          (and_iff_right both).symm.trans (BindsAt.iff_of_renamed form).symm
      · rw [if_neg both]
        exact .nothing fun a n h => both ((BindsAt.iff_of_renamed form).mp h).1
    | list => exact (InOrder.flatMap ih).congr fun a n => (BindsAt.iff_of_list form).symm
    | _ =>
      refine .nothing ?_
      rintro a n (form' | form' | opened | form' | form')
      · cases form.symm.trans form'
      · cases form.symm.trans form'
      · rw [form] at opened
        cases opened
      · cases form.symm.trans form'
      · cases form.symm.trans form'

namespace DeclaresAt

variable {decl : Tree} {a : Address} {n : String}

theorem iff_of_own (form : OwnNamed decl.shape) :
    DeclaresAt decl a n ↔ a = [0] ∧ (decl.part 0).name? = some n := by
  constructor
  · rintro (⟨_, named⟩ | form')
    · exact ⟨rfl, named⟩
    · rw [form'] at form
      cases form
  · rintro ⟨rfl, named⟩
    exact .own form named

theorem iff_of_variable {kind : String} (form : decl.shape = .variableDecl kind false) :
    DeclaresAt decl a n ↔ ∃ i declarator inner, decl.parts[i]? = some declarator ∧
      a = i :: inner ∧ ∃ inner', inner = 0 :: inner' ∧ BindsAt (declarator.part 0) inner' n := by
  constructor
  · rintro (own | ⟨_, there, below⟩)
    · rw [form] at own
      cases own
    · exact ⟨_, _, _, there, rfl, _, rfl, below⟩
  · rintro ⟨i, declarator, _, there, rfl, inner, rfl, below⟩
    exact .bound form there below

theorem not_of (own : ¬ OwnNamed decl.shape)
    (not_variable : ∀ kind, decl.shape ≠ .variableDecl kind false) : ¬ DeclaresAt decl a n := by
  rintro (form | form)
  · exact own form
  · exact not_variable _ form

end DeclaresAt

/-- A declaration that is there for types alone declares nothing. -/
theorem inOrder_declaredNames (decl : Tree) : InOrder (declaredNames decl) (DeclaresAt decl) := by
  have own (form : OwnNamed decl.shape) : InOrder (decl.part 0).name?.toList (DeclaresAt decl) :=
    .toList [0] fun a n => DeclaresAt.iff_of_own form
  have none (not_own : ¬ OwnNamed decl.shape)
      (not_variable : ∀ kind, decl.shape ≠ .variableDecl kind false) :
      InOrder [] (DeclaresAt decl) :=
    .nothing fun a n => DeclaresAt.not_of not_own not_variable
  rw [declaredNames]
  cases form : decl.shape with
  | functionDecl isDeclare => cases isDeclare with
    | false => exact own (form ▸ .ofFunction)
    | true => exact none (by rw [form]; nofun) (by simp [form])
  | classDecl isDeclare => cases isDeclare with
    | false => exact own (form ▸ .ofClass)
    | true => exact none (by rw [form]; nofun) (by simp [form])
  | enumDecl isDeclare isConst => cases isDeclare with
    | false => exact own (form ▸ .ofEnum)
    | true => exact none (by rw [form]; nofun) (by simp [form])
  | namespaceDecl isDeclare isGlobal => cases isDeclare with
    | false => cases isGlobal with
      | false => exact own (form ▸ .ofNamespace)
      | true => exact none (by rw [form]; nofun) (by simp [form])
    | true => exact none (by rw [form]; nofun) (by simp [form])
  | variableDecl kind isDeclare => cases isDeclare with
    | false =>
      have each : ∀ d ∈ decl.parts, InOrder (boundNames (d.part 0))
          fun a n => ∃ inner, a = 0 :: inner ∧ BindsAt (d.part 0) inner n :=
        fun d _ => (inOrder_boundNames (d.part 0)).below 0
      exact (InOrder.flatMap each).congr fun a n => (DeclaresAt.iff_of_variable form).symm
    | true => exact none (by rw [form]; nofun) (by simp [form])
  | _ => exact none (by rw [form]; nofun) (by simp [form])

/-- An entry of a list exports at most one name. -/
theorem inOrder_specifierName? (entry : Tree) :
    InOrder (specifierName? entry).toList (ListsAt entry) := by
  cases form : entry.shape with
  | exportSpecifier typeOnly =>
    cases typeOnly with
    | true =>
      have told : specifierName? entry = none := by simp [specifierName?, form]
      rw [told]
      refine .nothing ?_
      rintro a n (form' | form' | form' | form')
      all_goals cases form.symm.trans form'
    | false =>
      cases alone : (entry.part 1).isAbsent with
      | true =>
        have told : specifierName? entry = nameText? (entry.part 0) := by
          simp [specifierName?, form, alone]
        refine .toList [0] fun a n => ?_
        rw [told, nameText?_eq_some_iff]
        constructor
        · rintro (⟨_, _, spelled⟩ | ⟨_, other, _⟩ | form' | form')
          · exact ⟨rfl, spelled⟩
          · cases alone.symm.trans other
          · cases form.symm.trans form'
          · cases form.symm.trans form'
        · rintro ⟨rfl, spelled⟩
          exact .unchanged form alone spelled
      | false =>
        have told : specifierName? entry = nameText? (entry.part 1) := by
          simp [specifierName?, form, alone]
        refine .toList [1] fun a n => ?_
        rw [told, nameText?_eq_some_iff]
        constructor
        · rintro (⟨_, missing, _⟩ | ⟨_, _, spelled⟩ | form' | form')
          · cases alone.symm.trans missing
          · exact ⟨rfl, spelled⟩
          · cases form.symm.trans form'
          · cases form.symm.trans form'
        · rintro ⟨rfl, spelled⟩
          exact .renamed form alone spelled
  | exportStarAs =>
    have told : specifierName? entry = nameText? (entry.part 0) := by simp [specifierName?, form]
    refine .toList [0] fun a n => ?_
    rw [told, nameText?_eq_some_iff]
    constructor
    · rintro (form' | form' | ⟨_, spelled⟩ | form')
      · cases form.symm.trans form'
      · cases form.symm.trans form'
      · exact ⟨rfl, spelled⟩
      · cases form.symm.trans form'
    · rintro ⟨rfl, spelled⟩
      exact .whole form spelled
  | exportDefaultFrom =>
    have told : specifierName? entry = nameText? (entry.part 0) := by simp [specifierName?, form]
    refine .toList [0] fun a n => ?_
    rw [told, nameText?_eq_some_iff]
    constructor
    · rintro (form' | form' | form' | ⟨_, spelled⟩)
      · cases form.symm.trans form'
      · cases form.symm.trans form'
      · cases form.symm.trans form'
      · exact ⟨rfl, spelled⟩
    · rintro ⟨rfl, spelled⟩
      exact .default form spelled
  | _ =>
    have told : specifierName? entry = none := by simp [specifierName?, form]
    rw [told]
    refine .nothing ?_
    rintro a n (form' | form' | form' | form')
    all_goals cases form.symm.trans form'

/-- The default of a module is exported by the item as a whole. -/
theorem inOrder_default {item : Tree} (exported : ItemExports item [] "default")
    (only : ∀ a n, ItemExports item a n → a = [] ∧ n = "default") :
    InOrder ["default"] (ItemExports item) := by
  change InOrder (some "default").toList _
  refine .toList [] fun a n => ⟨fun h => ?_, ?_⟩
  · obtain ⟨rfl, rfl⟩ := only a n h
    exact ⟨rfl, rfl⟩
  · rintro ⟨rfl, same⟩
    cases same
    exact exported

/-- What an item exports, by its form. Two items may export one name. -/
theorem inOrder_itemNames (item : Tree) : InOrder (itemNames item) (ItemExports item) := by
  cases form : item.shape with
  | exportDecl =>
    have told : itemNames item = declaredNames (item.part 0) := by simp [itemNames, form]
    rw [told]
    refine ((inOrder_declaredNames (item.part 0)).below 0).congr fun a n => ⟨?_, ?_⟩
    · rintro ⟨inner, rfl, below⟩
      exact .declaration form below
    · rintro (⟨_, below⟩ | form' | form' | form' | form')
      · exact ⟨_, rfl, below⟩
      all_goals cases form.symm.trans form'
  | exportNamed typeOnly =>
    cases typeOnly with
    | true =>
      have told : itemNames item = [] := by simp [itemNames, form]
      rw [told]
      refine .nothing ?_
      rintro a n (form' | form' | form' | form' | form')
      all_goals cases form.symm.trans form'
    | false =>
      have told : itemNames item =
          (item.part 0).parts.flatMap fun entry => (specifierName? entry).toList := by
        rw [← List.filterMap_eq_flatMap_toList]
        simp [itemNames, form]
      have entries : ∀ entry ∈ (item.part 0).parts,
          InOrder (specifierName? entry).toList (ListsAt entry) :=
        fun entry _ => inOrder_specifierName? entry
      rw [told]
      refine ((InOrder.flatMap entries).below 0).congr fun a n => ⟨?_, ?_⟩
      · rintro ⟨_, rfl, i, entry, inner, there, rfl, below⟩
        exact .listed form there below
      · rintro (form' | ⟨_, there, below⟩ | form' | form' | form')
        · cases form.symm.trans form'
        · exact ⟨_, rfl, _, _, _, there, rfl, below⟩
        all_goals cases form.symm.trans form'
  | exportDefaultDecl =>
    by_cases type : ∃ isDeclare, (item.part 0).shape = .interfaceDecl isDeclare
    · obtain ⟨isDeclare, type⟩ := type
      have told : itemNames item = [] := by simp [itemNames, form, type]
      rw [told]
      refine .nothing ?_
      rintro a n (form' | form' | ⟨_, value⟩ | form' | form')
      · cases form.symm.trans form'
      · cases form.symm.trans form'
      · exact value isDeclare type
      all_goals cases form.symm.trans form'
    · have value : ∀ isDeclare, (item.part 0).shape ≠ .interfaceDecl isDeclare :=
        fun isDeclare same => type ⟨isDeclare, same⟩
      have told : itemNames item = ["default"] := by simp only [itemNames, form]
      rw [told]
      refine inOrder_default (.defaultDeclaration form value) ?_
      rintro a n (form' | form' | _ | form' | form')
      · cases form.symm.trans form'
      · cases form.symm.trans form'
      · exact ⟨rfl, rfl⟩
      all_goals cases form.symm.trans form'
  | exportDefaultExpr =>
    have told : itemNames item = ["default"] := by simp [itemNames, form]
    rw [told]
    refine inOrder_default (.defaultExpression form) ?_
    rintro a n (form' | form' | form' | _ | form')
    · cases form.symm.trans form'
    · cases form.symm.trans form'
    · cases form.symm.trans form'
    · exact ⟨rfl, rfl⟩
    · cases form.symm.trans form'
  | importEquals isExport typeOnly =>
    by_cases exported : isExport = true ∧ typeOnly = false
    · obtain ⟨rfl, rfl⟩ := exported
      have told : itemNames item = (item.part 0).name?.toList := by simp [itemNames, form]
      rw [told]
      refine .toList [0] fun a n => ⟨?_, ?_⟩
      · rintro (form' | form' | form' | form' | ⟨_, named⟩)
        · cases form.symm.trans form'
        · cases form.symm.trans form'
        · cases form.symm.trans form'
        · cases form.symm.trans form'
        · exact ⟨rfl, named⟩
      · rintro ⟨rfl, named⟩
        exact .reference form named
    · have told : itemNames item = [] := by
        simp only [itemNames, form]
        exact if_neg (by simpa using exported)
      rw [told]
      refine .nothing ?_
      rintro a n (form' | form' | form' | form' | form')
      all_goals cases form.symm.trans form'
      exact exported ⟨rfl, rfl⟩
  | _ =>
    have told : itemNames item = [] := by simp [itemNames, form]
    rw [told]
    refine .nothing ?_
    rintro a n (form' | form' | form' | form' | form')
    all_goals cases form.symm.trans form'

/-- What is exported at an address is what is written there, or it is the default of the item
there. -/
def Written (t : Tree) (address : Address) (name : String) : Prop :=
  ∃ node, t.at? address = some node ∧ (Spells node name ∨
    name = "default" ∧ (node.shape = .exportDefaultDecl ∨ node.shape = .exportDefaultExpr))

theorem Spells.present {t : Tree} {name : String} (h : Spells t name) : t.shape ≠ .absent := by
  rcases h with form | form
  · simp [form]
  · simp [form]

theorem spells_of_name? {t : Tree} {name : String} (named : t.name? = some name) :
    Spells t name := by
  obtain ⟨shape, span, parts⟩ := t
  cases shape with
  | ident own level isOptional =>
    cases named
    exact .identifier rfl
  | _ => cases named

namespace Written

variable {t p : Tree} {k : Nat} {address : Address} {name : String}

theorem inside (there : t.parts[k]? = some p) (h : Written p address name) :
    Written t (k :: address) name := by
  obtain ⟨node, found, told⟩ := h
  refine ⟨node, ?_, told⟩
  rw [Tree.at?_cons, there]
  exact found

/-- Nothing is written in a part that is missing. -/
theorem part (h : Written (t.part k) address name) : Written t (k :: address) name := by
  cases there : t.parts[k]? with
  | some p =>
    rw [Tree.part_eq_of_getElem? there] at h
    exact h.inside there
  | none =>
    rw [Tree.part_eq_absent there] at h
    obtain ⟨node, found, told⟩ := h
    cases address with
    | nil =>
      cases found
      rcases told with spelled | ⟨_, form | form⟩
      · exact absurd rfl spelled.present
      · cases form
      · cases form
    | cons i address => cases found

theorem here (spelled : Spells t name) : Written t [] name := ⟨t, rfl, Or.inl spelled⟩

end Written

theorem BindsAt.written {t : Tree} {address : Address} {name : String}
    (h : BindsAt t address name) : Written t address name := by
  induction h with
  | plain _ named => exact (Written.here (spells_of_name? named)).part
  | property _ named => exact (Written.here (spells_of_name? named)).part
  | opened _ _ ih => exact ih.part
  | renamed _ _ _ ih => exact ih.part
  | element _ there _ ih => exact ih.inside there

theorem DeclaresAt.written {decl : Tree} {address : Address} {name : String}
    (h : DeclaresAt decl address name) : Written decl address name := by
  cases h with
  | own _ named => exact (Written.here (spells_of_name? named)).part
  | bound _ there below => exact below.written.part.inside there

theorem ListsAt.written {entry : Tree} {address : Address} {name : String}
    (h : ListsAt entry address name) : Written entry address name := by
  cases h with
  | unchanged _ _ spelled => exact (Written.here spelled).part
  | renamed _ _ spelled => exact (Written.here spelled).part
  | whole _ spelled => exact (Written.here spelled).part
  | default _ spelled => exact (Written.here spelled).part

theorem ItemExports.written {item : Tree} {address : Address} {name : String}
    (h : ItemExports item address name) : Written item address name := by
  cases h with
  | declaration _ below => exact below.written.part
  | listed _ there below => exact (below.written.inside there).part
  | defaultDeclaration form _ => exact ⟨item, rfl, Or.inr ⟨rfl, Or.inl form⟩⟩
  | defaultExpression form => exact ⟨item, rfl, Or.inr ⟨rfl, Or.inr form⟩⟩
  | reference _ named => exact (Written.here (spells_of_name? named)).part

/-- The export names of a module are the names that it exports, each told once and where it comes
first, in the order in which they are written; and it exports nothing that is not written. -/
theorem names_inOrder (module : Tree) :
    (names module).Nodup ∧
      InOrder (names module) (fun address name =>
        ExportsAt module address name ∧ ∀ earlier < address, ¬ ExportsAt module earlier name) ∧
      ∀ address name, ExportsAt module address name → Written module address name := by
  have all : InOrder (module.parts.flatMap itemNames) (ExportsAt module) :=
    InOrder.flatMap fun item _ => inOrder_itemNames item
  refine ⟨all.eraseDups.nodup, all.eraseDups, ?_⟩
  rintro _ name ⟨i, item, below, there, rfl, exported⟩
  exact exported.written.inside there

example :
    let text := "export const \x7ba, k: [b, , ...c], d = a\x7d = o; export declare const e;" ++
      "export \x7ba as 'f g', type h\x7d; export default 1"
    (Module.ofText (.ofPath ⟨"m.ts"⟩) text.toList).toOption.map (fun m => names m.tree) =
      some ["a", "b", "c", "d", "f g", "default"] := by
  decide +kernel

end RouteManifest.Exports
