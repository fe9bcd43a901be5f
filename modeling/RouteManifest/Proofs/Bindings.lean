import RouteManifest.Proofs.Frame
import RouteManifest.Proofs.Lookups

/-!
# Calls by the scopes around them

Which calls of a module mark routes, told from the module as it is read: those of a bare name that
an import introduces and that no scope inside the module binds anew where the call stands. Levels do
not occur in this; that they tell the same is what resolving is for.
-/

namespace RouteManifest.Routes

open Script Scope

theorem transparent_importDecl (env : Env) {item : Tree} {typeOnly : Bool}
    (h : item.shape = .importDecl typeOnly) : Transparent env item := by
  obtain ⟨shape, span, parts⟩ := item
  cases h
  rfl

theorem transparent_list (env : Env) {t : Tree} (h : t.shape = .list) : Transparent env t := by
  obtain ⟨shape, span, parts⟩ := t
  cases h
  rfl

/-- A shape that is another but for the level of its name. -/
def SameButLevel (after before : Shape) : Prop :=
  after = before ∨ ∃ env, after = levelled env before

theorem SameButLevel.ident_iff {after before : Shape} (same : SameButLevel after before)
    {name : String} :
    (∃ l isOptional, after = .ident name l isOptional) ↔
      ∃ l isOptional, before = .ident name l isOptional := by
  rcases same with rfl | ⟨env, rfl⟩
  · exact Iff.rfl
  · constructor
    · rintro ⟨l, isOptional, form⟩
      obtain ⟨_, own, form⟩ := levelled_eq_ident_iff.mp form
      exact ⟨own, isOptional, form⟩
    · rintro ⟨own, isOptional, form⟩
      exact ⟨_, isOptional, levelled_eq_ident_iff.mpr ⟨rfl, own, form⟩⟩

theorem SameButLevel.eq_iff {after before : Shape} (same : SameButLevel after before)
    {shape : Shape} (h : ∀ name l isOptional, shape ≠ .ident name l isOptional) :
    after = shape ↔ before = shape := by
  rcases same with rfl | ⟨env, rfl⟩
  · exact Iff.rfl
  · exact levelled_eq_iff h

theorem importsAs_iff {specifier : Tree} {name : String} :
    ImportsAs specifier name ↔
      ((specifier.part 1).shape = .absent ∧
        ∃ l isOptional, (specifier.part 0).shape = .ident name l isOptional) ∨
      (∃ l isOptional, (specifier.part 1).shape = .ident name l isOptional) ∨
      ∃ raw, (specifier.part 1).shape = .stringLit name raw := by
  constructor
  · rintro (⟨alone, form⟩ | form | form)
    · exact Or.inl ⟨isAbsent_iff.mp alone, _, _, form⟩
    · exact Or.inr (Or.inl ⟨_, _, form⟩)
    · exact Or.inr (Or.inr ⟨_, form⟩)
  · rintro (⟨alone, _, _, form⟩ | ⟨_, _, form⟩ | ⟨_, form⟩)
    · exact .implied (isAbsent_iff.mpr alone) form
    · exact .identifier form
    · exact .string form

/-- What a specifier imports does not depend on levels. -/
theorem importsAs_congr {specifier after : Tree} {name : String}
    (first : SameButLevel (after.part 0).shape (specifier.part 0).shape)
    (second : SameButLevel (after.part 1).shape (specifier.part 1).shape) :
    ImportsAs after name ↔ ImportsAs specifier name := by
  have absent := @SameButLevel.eq_iff _ _ second .absent (by simp)
  have string (raw : Option String) :=
    @SameButLevel.eq_iff _ _ second (.stringLit name raw) (by simp)
  rw [importsAs_iff, importsAs_iff]
  simp only [absent, string, first.ident_iff, second.ident_iff]

/-- Of the two names of a specifier the local one is looked up; the other is left as it is, unless
it stands where it does not belong. -/
theorem parts_resolveIn_importNamed {n : Nat} (env : Env) {t : Tree} (enough : t.height ≤ n)
    {typeOnly : Bool} (h : t.shape = .importNamed typeOnly) :
    ((resolveIn n env t).part 0).shape = levelled env (t.part 0).shape ∧
      SameButLevel ((resolveIn n env t).part 1).shape (t.part 1).shape := by
  have noFunction : ∀ flags, t.shape ≠ .function flags := by simp [h]
  by_cases two : ∃ span name imported, t = .node (.importNamed typeOnly) span [name, imported]
  · obtain ⟨span, name, imported, rfl⟩ := two
    cases n with
    | zero => cases enough
    | succ m =>
      have inside := Tree.height_lt_of_mem_parts
        (show name ∈ (.node (.importNamed typeOnly) span [name, imported] : Tree).parts from
          List.mem_cons_self)
      rw [resolveIn_succ m env _ noFunction]
      exact ⟨shape_resolveIn (by omega) env, Or.inl rfl⟩
  · have open' : Transparent env t := by
      obtain ⟨shape, span, parts⟩ := t
      cases h
      match parts with
      | [] => rfl
      | [_] => rfl
      | [_, _] => exact absurd ⟨_, _, _, rfl⟩ two
      | _ :: _ :: _ :: _ => rfl
    obtain ⟨k, enough₀, first⟩ := part_resolveIn enough open' noFunction 0
    obtain ⟨k', enough₁, second⟩ := part_resolveIn enough open' noFunction 1
    rw [first, second, shape_resolveIn enough₀, shape_resolveIn enough₁]
    exact ⟨rfl, Or.inr ⟨env, rfl⟩⟩

theorem specifies_resolveIn_iff {n : Nat} {env : Env} {specifier : Tree}
    (enough : specifier.height ≤ n) {name : String} {l : Nat} :
    Specifies (resolveIn n env specifier) ⟨name, l⟩ ↔
      l = level env name ∧ ∃ own, Specifies specifier ⟨name, own⟩ := by
  have kept : (resolveIn n env specifier).shape = .importNamed false ↔
      specifier.shape = .importNamed false := by
    rw [shape_resolveIn enough]
    exact levelled_eq_iff (by simp)
  simp only [Specifies, kept, of?_eq_some_iff]
  constructor
  · rintro ⟨named, imported, isOptional, form⟩
    obtain ⟨first, second⟩ := parts_resolveIn_importNamed env enough named
    obtain ⟨same, own, form⟩ := levelled_eq_ident_iff.mp (first.symm.trans form)
    exact ⟨same, own, named, (importsAs_congr (Or.inr ⟨env, first⟩) second).mp imported,
      isOptional, form⟩
  · rintro ⟨same, own, named, imported, isOptional, form⟩
    obtain ⟨first, second⟩ := parts_resolveIn_importNamed env enough named
    refine ⟨named, (importsAs_congr (Or.inr ⟨env, first⟩) second).mpr imported, isOptional, ?_⟩
    exact first.trans (levelled_eq_ident_iff.mpr ⟨same, own, form⟩)

theorem importsFunction_resolveIn_iff {n : Nat} {env : Env} {item : Tree}
    (enough : item.height ≤ n)
    (specifiers : ∀ typeOnly, item.shape = .importDecl typeOnly → (item.part 0).shape = .list)
    {name : String} {l : Nat} :
    ImportsFunction (resolveIn n env item) ⟨name, l⟩ ↔
      l = level env name ∧ ∃ own, ImportsFunction item ⟨name, own⟩ := by
  have kept : (resolveIn n env item).shape = .importDecl false ↔
      item.shape = .importDecl false := by
    rw [shape_resolveIn enough]
    exact levelled_eq_iff (by simp)
  by_cases form : item.shape = .importDecl false
  · have noFunction : ∀ flags, item.shape ≠ .function flags := by simp [form]
    have open' := transparent_importDecl env form
    obtain ⟨k, enoughList, list⟩ := part_resolveIn enough open' noFunction 0
    obtain ⟨k', enoughSource, source⟩ := part_resolveIn enough open' noFunction 1
    have isList := specifiers false form
    obtain ⟨m, inside, parts⟩ := parts_resolveIn enoughList (transparent_list env isList)
      (by simp [isList])
    have sourceKept (raw : Option String) :
        ((resolveIn n env item).part 1).shape = .stringLit packageName raw ↔
          (item.part 1).shape = .stringLit packageName raw := by
      rw [source, shape_resolveIn enoughSource]
      exact levelled_eq_iff (by simp)
    simp only [ImportsFunction, kept, form, sourceKept, list, parts, List.mem_map, true_and]
    constructor
    · rintro ⟨fromPackage, _, ⟨specifier, member, rfl⟩, told⟩
      obtain ⟨same, own, told⟩ := (specifies_resolveIn_iff (inside specifier member)).mp told
      exact ⟨same, own, fromPackage, specifier, member, told⟩
    · rintro ⟨same, own, fromPackage, specifier, member, told⟩
      exact ⟨fromPackage, _, ⟨specifier, member, rfl⟩,
        (specifies_resolveIn_iff (inside specifier member)).mpr ⟨same, own, told⟩⟩
  · constructor
    · rintro ⟨after, _⟩
      exact absurd (kept.mp after) form
    · rintro ⟨_, _, before, _⟩
      exact absurd before form

theorem mem_statementNames {names : List String} {name : String} (h : name ∈ names)
    (items : List Tree) (i : Nat) : name ∈ statementNames names items i := by
  induction items generalizing names i with
  | nil => exact h
  | cons t ts ih =>
    cases i with
    | zero =>
      rw [statementNames]
      split
      · exact List.mem_append_right _ h
      · exact h
    | succ i =>
      rw [statementNames]
      refine ih ?_ i
      split
      · exact List.mem_append_right _ h
      · exact h

/-- What a module imports is declared by the module. -/
theorem mem_declaredByAll_of_importsFunction {items : List Tree} {item : Tree} {name : String}
    {l : Nat} (member : item ∈ items) (h : ImportsFunction item ⟨name, l⟩) :
    name ∈ declaredByAll items := by
  obtain ⟨form, _, specifier, inside, _, _, bound⟩ := h
  obtain ⟨isOptional, isName⟩ := of?_eq_some_iff.mp bound
  refine List.mem_flatMap.mpr ⟨item, member, ?_⟩
  obtain ⟨shape, span, parts⟩ := item
  cases form
  cases parts with
  | nil => cases inside
  | cons specifiers rest =>
    exact List.mem_filterMap.mpr ⟨specifier, inside, name?_eq_some_iff.mpr ⟨l, isOptional, isName⟩⟩

/-- A module as a text is read: no name has a level yet, and an import keeps what it imports in a
list. -/
structure AsRead (t : Tree) : Prop where
  isModule : ∃ shebang, t.shape = .moduleBody shebang
  unresolved : t.unresolved = true
  specifiers : ∀ item ∈ t.parts, ∀ typeOnly, item.shape = .importDecl typeOnly →
    (item.part 0).shape = .list

/-- The items of a resolved module, each resolved in the scope of the module. -/
theorem mem_parts_resolve_iff {shebang : Option String} {span : Span} {items : List Tree}
    {after : Tree} :
    after ∈ (resolve (.node (.moduleBody shebang) span items)).parts ↔
      ∃ item i, items[i]? = some item ∧
        after = resolveIn (Tree.height.heights items)
          [statementNames (declaredByAll items) items i] item := by
  have resolved : resolve (.node (.moduleBody shebang) span items) =
      resolveIn (Tree.height.heights items + 1) [] (.node (.moduleBody shebang) span items) := rfl
  rw [resolved, resolveIn_succ _ _ _ (by simp), List.mem_iff_getElem?]
  simp only [Tree.parts_node, Place.ofParts, List.getElem?_zipWith, List.getElem?_mapIdx]
  constructor
  · rintro ⟨i, there⟩
    cases found : items[i]? with
    | none =>
      rw [found] at there
      cases there
    | some item =>
      rw [found] at there
      cases there
      exact ⟨item, i, found, rfl⟩
  · rintro ⟨item, i, found, rfl⟩
    refine ⟨i, ?_⟩
    rw [found]
    rfl

/-- All that a module imports is bound by the outermost scope. -/
theorem introduces_resolve_iff {t : Tree} (read : AsRead t) {name : String} {l : Nat} :
    Introduces (resolve t) ⟨name, l⟩ ↔ l = 1 ∧ Introduces t ⟨name, 0⟩ := by
  obtain ⟨⟨shebang, form⟩, unresolved, specifiers⟩ := read
  obtain ⟨shape, span, items⟩ := t
  cases form
  have enough {item : Tree} (member : item ∈ items) : item.height ≤ Tree.height.heights items :=
    Nat.le_of_lt_succ
      (Tree.height_lt_of_mem_parts (t := .node (.moduleBody shebang) span items) member)
  have outermost {item : Tree} (member : item ∈ items) {own : Nat}
      (imported : ImportsFunction item ⟨name, own⟩) (i : Nat) :
      level [statementNames (declaredByAll items) items i] name = 1 := by
    have declared := mem_declaredByAll_of_importsFunction member imported
    rw [level, if_pos (List.contains_iff_mem.mpr (mem_statementNames declared items i))]
    rfl
  have fresh {item : Tree} (member : item ∈ items) {own : Nat}
      (imported : ImportsFunction item ⟨name, own⟩) : own = 0 := by
    obtain ⟨_, _, specifier, inside, _, _, bound⟩ := imported
    obtain ⟨isOptional, isName⟩ := of?_eq_some_iff.mp bound
    have list := Tree.unresolved_part (Tree.unresolved_of_mem_parts unresolved member) 0
    have local' := Tree.unresolved_part (Tree.unresolved_of_mem_parts list inside) 0
    exact @Tree.level_eq_zero _ _ local' [] rfl _ _ _ isName
  constructor
  · rintro ⟨after, member, imported⟩
    obtain ⟨item, i, found, rfl⟩ := mem_parts_resolve_iff.mp member
    have inside := List.mem_of_getElem? found
    obtain ⟨same, own, imported⟩ :=
      (importsFunction_resolveIn_iff (enough inside) (specifiers item inside)).mp imported
    cases fresh inside imported
    exact ⟨same.trans (outermost inside imported i), item, inside, imported⟩
  · rintro ⟨rfl, item, inside, imported⟩
    obtain ⟨i, found⟩ := List.mem_iff_getElem?.mp inside
    refine ⟨_, mem_parts_resolve_iff.mpr ⟨item, i, found, rfl⟩, ?_⟩
    exact (importsFunction_resolveIn_iff (enough inside) (specifiers item inside)).mpr
      ⟨(outermost inside imported i).symm, 0, imported⟩

/-- A call that marks routes, told from the module as it is read: its callee is nothing but a name
that the module imports for the function, and where the call stands the name means what the module
binds. A link of an optional chain is no call. -/
structure MarksRoutes (module : Tree) (address : Address) (call : Tree) (name : String) : Prop where
  here : module.at? address = some call
  isCall : call.shape = .call
  notLink : ¬ IsLink module address
  bare : (call.part 0).name? = some name
  introduced : Introduces module ⟨name, 0⟩
  unshadowed : MeansModule module (address ++ [0]) name

theorem at?_part_zero_iff {t : Tree} {address : Address} {p : Tree} :
    t.at? (address ++ [0]) = some p ↔ ∃ u, t.at? address = some u ∧ u.parts[0]? = some p := by
  rw [Tree.at?_append, Option.bind_eq_some_iff]
  refine exists_congr fun u => and_congr_right fun _ => ?_
  rw [Tree.at?_cons, Option.bind_eq_some_iff]
  exact ⟨fun ⟨_, there, same⟩ => by cases same; exact there, fun there => ⟨p, there, rfl⟩⟩

theorem place_ne_none_of_append {t : Tree} {a b : Address}
    (h : (Place.plain []).at? t (a ++ b) ≠ none) : (Place.plain []).at? t a ≠ none := by
  intro none
  rw [Place.at?_append, none] at h
  exact h rfl

theorem isLink_resolve_iff {t : Tree} {address : Address}
    (seen : (Place.plain []).at? t address ≠ none) :
    IsLink (resolve t) address ↔ IsLink t address := by
  have chain {outer : Address} {i : Nat} (split : address = outer ++ [i]) (isOptional : Bool) :
      (∃ u, (resolve t).at? outer = some u ∧ u.shape = .optionalChain isOptional) ↔
        ∃ p, t.at? outer = some p ∧ p.shape = .optionalChain isOptional :=
    at?_resolve_shape_iff (place_ne_none_of_append (split ▸ seen)) (by simp)
  constructor
  · rintro ⟨outer, i, u, isOptional, split, found, form⟩
    obtain ⟨p, found, form⟩ := (chain split isOptional).mp ⟨u, found, form⟩
    exact ⟨outer, i, p, isOptional, split, found, form⟩
  · rintro ⟨outer, i, p, isOptional, split, found, form⟩
    obtain ⟨u, found, form⟩ := (chain split isOptional).mpr ⟨p, found, form⟩
    exact ⟨outer, i, u, isOptional, split, found, form⟩

theorem parts_zero_of_name? {t : Tree} {name : String} (h : (t.part 0).name? = some name) :
    t.parts[0]? = some (t.part 0) :=
  Tree.getElem?_parts fun missing => by cases missing ▸ h

theorem place_ne_none_of_scopesAt {t : Tree} {address : Address} {env : Env}
    (h : scopesAt t address = some env) : (Place.plain []).at? t address ≠ none := by
  intro none
  rw [scopesAt, none] at h
  cases h

/-- Resolving finds the calls that mark routes. -/
theorem boundCall_resolve_iff {t : Tree} (read : AsRead t) {address : Address} :
    (∃ call, BoundCall (resolve t) address call) ↔
      ∃ call name, MarksRoutes t address call name := by
  constructor
  · rintro ⟨after, here, isCall, notLink, ⟨name, l⟩, bound, introduced⟩
    obtain ⟨rfl, imported⟩ := (introduces_resolve_iff read).mp introduced
    obtain ⟨isOptional, form⟩ := of?_eq_some_iff.mp bound
    have callee := parts_zero_of_name? (name?_eq_some_iff.mpr ⟨_, _, form⟩)
    obtain ⟨p, env, found, bare, scopes, outermost⟩ :=
      (at?_resolve_ident_iff read.unresolved (by simp)).mp
        ⟨_, isOptional, at?_part_zero_iff.mpr ⟨after, here, callee⟩, form⟩
    have seen := place_ne_none_of_append (place_ne_none_of_scopesAt scopes)
    obtain ⟨call, before, first⟩ := at?_part_zero_iff.mp found
    obtain ⟨call', before', wasCall⟩ :=
      (at?_resolve_shape_iff seen (by simp)).mp ⟨after, here, isCall⟩
    cases before.symm.trans before'
    rw [← Tree.part_eq_of_getElem? first] at bare
    rw [isLink_resolve_iff seen] at notLink
    obtain ⟨inner, top, rfl, declared, free⟩ := level_eq_one_iff.mp outermost
    exact ⟨call, name, before, wasCall, notLink, bare, imported, inner, top, scopes, declared,
      free⟩
  · rintro ⟨call, name, here, wasCall, notLink, bare, introduced, inner, top, scopes, declared,
      free⟩
    have seen := place_ne_none_of_append (place_ne_none_of_scopesAt scopes)
    have outermost : level (inner ++ [top]) name = 1 :=
      level_eq_one_iff.mpr ⟨inner, top, rfl, declared, free⟩
    have callee := at?_part_zero_iff.mpr ⟨call, here, parts_zero_of_name? bare⟩
    obtain ⟨u, isOptional, found, form⟩ := (at?_resolve_ident_iff read.unresolved (by simp)).mpr
      ⟨_, _, callee, bare, scopes, outermost⟩
    obtain ⟨after, before, first⟩ := at?_part_zero_iff.mp found
    obtain ⟨after', before', isCall⟩ :=
      (at?_resolve_shape_iff seen (by simp)).mpr ⟨call, here, wasCall⟩
    cases before.symm.trans before'
    rw [← Tree.part_eq_of_getElem? first] at form
    rw [← isLink_resolve_iff seen] at notLink
    exact ⟨after, before, isCall, notLink, ⟨name, 1⟩, of?_eq_some_iff.mpr ⟨isOptional, form⟩,
      (introduces_resolve_iff read).mpr ⟨rfl, introduced⟩⟩

/-- By the scopes or by what names mean once they are resolved: a call marks routes exactly if its
callee is a bare name that means the same as the local name of a specifier for the function. -/
theorem marksRoutes_iff_sameId {t : Tree} (read : AsRead t) {address : Address} :
    (∃ call name, MarksRoutes t address call name) ↔
      (∃ call, (resolve t).at? address = some call ∧ call.shape = .call) ∧
        ¬ IsLink (resolve t) address ∧
        ∃ place, IsLocalName (resolve t) place ∧ SameId (resolve t) (address ++ [0]) place := by
  rw [← boundCall_resolve_iff read]
  simp only [boundCall_iff_sameId]
  constructor
  · rintro ⟨call, here, isCall, notLink, means⟩
    exact ⟨⟨call, here, isCall⟩, notLink, means⟩
  · rintro ⟨⟨call, here, isCall⟩, notLink, means⟩
    exact ⟨call, here, isCall, notLink, means⟩

theorem mem_calls_resolve_iff {t : Tree} (read : AsRead t) {address : Address} :
    (∃ c ∈ calls (resolve t), c.address = address) ↔
      ∃ call name, MarksRoutes t address call name := by
  rw [← boundCall_resolve_iff read]
  constructor
  · rintro ⟨c, member, rfl⟩
    exact ⟨c.call, mem_calls_iff.mp member⟩
  · rintro ⟨call, bound⟩
    exact ⟨⟨address, call⟩, mem_calls_iff.mpr bound, rfl⟩

theorem planModule_resolve_ok_iff {t : Tree} (read : AsRead t) (s : Setting) :
    (∃ plan, ((s.planModule (resolve t)).run.run Session.fresh).1 = .ok plan) ↔
      ∀ address call name, MarksRoutes t address call name →
        ∃ after, (resolve t).at? address = some after ∧ s.AcceptsCall after := by
  rw [(s.answers_planModule (resolve t)).run_fresh, s.modulePlan_ok_iff]
  constructor
  · intro accepted address call name marks
    obtain ⟨after, bound⟩ := (boundCall_resolve_iff read).mpr ⟨call, name, marks⟩
    exact ⟨after, bound.here, accepted address after bound⟩
  · intro accepted address after bound
    obtain ⟨call, name, marks⟩ := (boundCall_resolve_iff read).mp ⟨after, bound⟩
    obtain ⟨after', here, told⟩ := accepted address call name marks
    cases bound.here.symm.trans here
    exact told

/-- Exactly the calls that mark routes are looked at, wherever in a module they stand, under
whatever name they go, and however often the function is imported. Nothing else can keep the module
from being planned for: a call of the same name that means another binding is not refused. -/
theorem calls_resolve_iff_marksRoutes {t : Tree} (read : AsRead t) :
    (∀ address, (∃ c ∈ calls (resolve t), c.address = address) ↔
      ∃ call name, MarksRoutes t address call name) ∧
    ∀ s : Setting, (∃ plan, ((s.planModule (resolve t)).run.run Session.fresh).1 = .ok plan) ↔
      ∀ address call name, MarksRoutes t address call name →
        ∃ after, (resolve t).at? address = some after ∧ s.AcceptsCall after :=
  ⟨fun _ => mem_calls_resolve_iff read, planModule_resolve_ok_iff read⟩

/-- A module that imports the function under another name, calls it, and declares a function with a
parameter of that name, which it calls too. -/
def aliasedModule : Tree :=
  let ident (name : String) : Tree := .node (.ident name 0 false) .nowhere []
  let call : Tree :=
    .node .call .nowhere [ident "mark", .list [.node .arrayLit .nowhere []], .absent]
  .node (.moduleBody none) .nowhere
    [.node (.importDecl false) .nowhere
      [.list [.node (.importNamed false) .nowhere [ident "mark", ident "defineRoutes"]],
        .node (.stringLit "rr-routes" none) .nowhere [], .absent],
      .node .exprStmt .nowhere [call],
      .node (.functionDecl false) .nowhere
        [ident "f", .node (.function ⟨false, false⟩) .nowhere
          [.list [.node .parameter .nowhere
              [.list [], .node .bindingIdent .nowhere [ident "mark", .absent]]],
            .list [], .node .block .nowhere [.node .exprStmt .nowhere [call]], .absent, .absent]]]

/-- The alias is followed, and the parameter shadows it. -/
theorem calls_aliasedModule :
    AsRead aliasedModule ∧
      (∃ c ∈ calls (resolve aliasedModule), c.address = [1, 0]) ∧
      ¬ ∃ c ∈ calls (resolve aliasedModule), c.address = [2, 1, 2, 0, 0] := by
  have read : AsRead aliasedModule := by
    refine ⟨⟨none, rfl⟩, rfl, ?_⟩
    rintro item member typeOnly form
    rcases List.mem_cons.mp member with rfl | member
    · rfl
    · rcases List.mem_cons.mp member with rfl | member
      · cases form
      · cases List.mem_singleton.mp member
        cases form
  have handled := (calls_resolve_iff_marksRoutes read).1
  refine ⟨read, (handled [1, 0]).mpr ?_, fun looked => ?_⟩
  · refine ⟨_, "mark", rfl, rfl, ?_, rfl, ?_, [], ["mark", "f"], rfl, by decide, by simp⟩
    · rintro ⟨outer, i, chain, isOptional, split, found, form⟩
      match outer, split with
      | [_], split =>
        cases split
        cases found
        cases form
      | _ :: _ :: _, split => simp at split
    · exact ⟨_, List.mem_cons_self, rfl, ⟨none, rfl⟩, _, List.mem_cons_self, rfl, .identifier rfl,
        rfl⟩
  · obtain ⟨call, name, here, _, _, bare, _, inner, top, scopes, _, free⟩ := (handled _).mp looked
    have around : scopesAt aliasedModule ([2, 1, 2, 0, 0] ++ [0]) =
        some [["mark"], ["mark", "f"]] := rfl
    cases here
    cases bare
    match inner, Option.some.inj (around.symm.trans scopes) with
    | [_], split =>
      cases split
      exact free ["mark"] List.mem_cons_self List.mem_cons_self
    | _ :: _ :: _, split => simp at split

end RouteManifest.Routes
