import RouteManifest.Routes.Calls
import RouteManifest.Proofs.Addresses

/-!
# Which calls mark routes

The calls whose routes are looked at, told by the form of the module: which imports introduce the
function, and which nodes of the module are calls of it by name. Nothing is said here about where a
name means which binding; that two occurrences of a name mean the same is that they agree in name
and level.
-/

namespace RouteManifest.Routes

open Script

/-- A specifier imports what the other module calls by a name: the name is written before the local
one, as an identifier or a string, or is the local one. -/
inductive ImportsAs (specifier : Tree) (name : String) : Prop
  | implied {level : Nat} {isOptional : Bool}
      (alone : (specifier.part 1).isAbsent = true)
      (form : (specifier.part 0).shape = .ident name level isOptional)
  | identifier {level : Nat} {isOptional : Bool}
      (form : (specifier.part 1).shape = .ident name level isOptional)
  | string {raw : Option String} (form : (specifier.part 1).shape = .stringLit name raw)

/-- A specifier makes a binding of the function that marks routes, as a value. -/
def Specifies (specifier : Tree) (binding : Binding) : Prop :=
  specifier.shape = .importNamed false ∧ ImportsAs specifier functionName ∧
    Binding.of? (specifier.part 0) = some binding

/-- An item of a module imports from the package of routes, as a value, the function that marks
routes. -/
def ImportsFunction (item : Tree) (binding : Binding) : Prop :=
  item.shape = .importDecl false ∧ (∃ raw, (item.part 1).shape = .stringLit packageName raw) ∧
    ∃ specifier ∈ (item.part 0).parts, Specifies specifier binding

/-- A module introduces a binding of the function that marks routes. -/
def Introduces (module : Tree) (binding : Binding) : Prop :=
  ∃ item ∈ module.parts, ImportsFunction item binding

/-- A node that is the operand of an optional chain. -/
def IsLink (t : Tree) (address : Address) : Prop :=
  ∃ outer i chain isOptional, address = outer ++ [i] ∧ t.at? outer = some chain ∧
    chain.shape = .optionalChain isOptional

/-- A call of the function that marks routes: its callee is nothing but a name that means a binding
of the function. A link of an optional chain is no call. -/
structure BoundCall (module : Tree) (address : Address) (call : Tree) : Prop where
  here : module.at? address = some call
  isCall : call.shape = .call
  notLink : ¬ IsLink module address
  bound : ∃ binding, Binding.of? (call.part 0) = some binding ∧ Introduces module binding

theorem of?_eq_some_iff {t : Tree} {binding : Binding} :
    Binding.of? t = some binding ↔
      ∃ isOptional, t.shape = .ident binding.name binding.level isOptional := by
  unfold Binding.of?
  constructor
  · intro h
    split at h
    · rename_i isOptional form
      cases h
      exact ⟨isOptional, form⟩
    · cases h
  · rintro ⟨isOptional, form⟩
    rw [form]

theorem isAbsent_iff {t : Tree} : t.isAbsent = true ↔ t.shape = .absent := by
  unfold Tree.isAbsent
  split
  · exact ⟨fun _ => rfl, fun _ => rfl⟩
  · rename_i other
    refine ⟨fun h => (nomatch h), fun h => ?_⟩
    obtain ⟨shape, span, parts⟩ := t
    cases h
    exact absurd rfl (other span parts)

/-- What a specifier imports is told by its local name only if no other name is written. -/
theorem importedName?_eq_some_iff {specifier : Tree} {name : String} {binding : Binding}
    (bound : Binding.of? (specifier.part 0) = some binding) :
    importedName? specifier = some name ↔ ImportsAs specifier name := by
  obtain ⟨isOptional, form⟩ := of?_eq_some_iff.mp bound
  simp only [importedName?]
  by_cases alone : (specifier.part 1).isAbsent = true
  · have shape := isAbsent_iff.mp alone
    rw [if_pos alone, form]
    constructor
    · rintro h
      cases h
      exact .implied alone form
    · rintro (⟨_, own⟩ | own | own)
      · cases form.symm.trans own
        rfl
      · cases shape.symm.trans own
      · cases shape.symm.trans own
  · rw [if_neg alone]
    constructor
    · intro h
      split at h
      · rename_i own
        cases h
        exact .identifier own
      · rename_i own
        cases h
        exact .string own
      · cases h
    · rintro (⟨missing, _⟩ | own | own)
      · exact absurd missing alone
      · rw [own]
      · rw [own]

theorem specifierBinding?_eq_some_iff {specifier : Tree} {binding : Binding} :
    specifierBinding? specifier = some binding ↔ Specifies specifier binding := by
  unfold specifierBinding?
  constructor
  · intro h
    split at h
    · rename_i named
      split at h
      · rename_i imported
        exact ⟨named, (importedName?_eq_some_iff h).mp imported, h⟩
      · cases h
    · cases h
  · rintro ⟨named, imported, bound⟩
    rw [named]
    exact (if_pos ((importedName?_eq_some_iff bound).mpr imported)).trans bound

theorem mem_itemBindings_iff {item : Tree} {binding : Binding} :
    binding ∈ itemBindings item ↔ ImportsFunction item binding := by
  simp only [ImportsFunction, ← specifierBinding?_eq_some_iff]
  unfold itemBindings
  constructor
  · intro h
    split at h
    · rename_i source raw declares form
      split at h
      · rename_i same
        cases same
        exact ⟨declares, ⟨raw, form⟩, List.mem_filterMap.mp h⟩
      · cases h
    · cases h
  · rintro ⟨declares, ⟨raw, form⟩, told⟩
    rw [declares, form]
    simp only [if_true]
    exact List.mem_filterMap.mpr told

theorem mem_bindings_iff {module : Tree} {binding : Binding} :
    binding ∈ bindings module ↔ Introduces module binding := by
  simp only [bindings, List.mem_flatMap, mem_itemBindings_iff, Introduces]

theorem isCallOf_iff {bindings : List Binding} {t : Tree} :
    isCallOf bindings t = true ↔
      t.shape = .call ∧ ∃ binding, Binding.of? (t.part 0) = some binding ∧ binding ∈ bindings := by
  rw [isCallOf, Bool.and_eq_true, Option.any_eq_true]
  simp only [List.contains_iff_mem]
  refine and_congr_left fun _ => ?_
  cases t.shape with
  | call => simp
  | _ => simp

theorem mem_inParts_iff {bindings : List Binding} {address : Address} {linked : Bool} {i : Nat}
    {parts : List Tree} {c : Call} :
    c ∈ callsIn.inParts bindings address linked i parts ↔
      ∃ k p, parts[k]? = some p ∧ c ∈ callsIn bindings (address ++ [i + k]) linked p := by
  induction parts generalizing i with
  | nil => simp [callsIn.inParts]
  | cons p ps ih =>
    rw [callsIn.inParts, List.mem_append, ih]
    constructor
    · rintro (first | ⟨k, q, there, inside⟩)
      · exact ⟨0, p, rfl, first⟩
      · exact ⟨k + 1, q, there, by rwa [show i + (k + 1) = i + 1 + k by omega]⟩
    · rintro ⟨k, q, there, inside⟩
      cases k with
      | zero =>
        cases there
        exact Or.inl inside
      | succ k => exact Or.inr ⟨k, q, there, by rwa [show i + 1 + k = i + (k + 1) by omega]⟩

theorem callsIn_node (bindings : List Binding) (address : Address) (linked : Bool) (shape : Shape)
    (span : Span) (parts : List Tree) :
    callsIn bindings address linked (.node shape span parts) =
      (if !linked && isCallOf bindings (.node shape span parts) then
        [⟨address, .node shape span parts⟩] else []) ++
      callsIn.inParts bindings address (shape matches .optionalChain _) 0 parts := by
  unfold callsIn
  cases shape <;> rfl

/-- One step down: the calls in a tree are the tree itself, if it is one, and those in its parts. -/
theorem mem_callsIn_step {bindings : List Binding} {address : Address} {linked : Bool} {t : Tree}
    {c : Call} :
    c ∈ callsIn bindings address linked t ↔
      (linked = false ∧ isCallOf bindings t = true ∧ c = ⟨address, t⟩) ∨
        ∃ k p, t.parts[k]? = some p ∧
          c ∈ callsIn bindings (address ++ [k]) (t.shape matches .optionalChain _) p := by
  obtain ⟨shape, span, parts⟩ := t
  rw [callsIn_node, List.mem_append, mem_inParts_iff]
  simp only [Nat.zero_add]
  refine or_congr ?_ Iff.rfl
  cases linked with
  | true => simp
  | false => simp [List.mem_ite_nil_right]

theorem isLink_cons_iff {t p : Tree} {k : Nat} {below : Address} (there : t.parts[k]? = some p) :
    IsLink t (k :: below) ↔
      (below = [] ∧ ∃ isOptional, t.shape = .optionalChain isOptional) ∨ IsLink p below := by
  constructor
  · rintro ⟨outer, i, chain, isOptional, split, found, form⟩
    cases outer with
    | nil =>
      cases split
      cases found
      exact Or.inl ⟨rfl, isOptional, form⟩
    | cons j outer =>
      cases split
      rw [Tree.at?_cons, there] at found
      exact Or.inr ⟨outer, i, chain, isOptional, rfl, found, form⟩
  · rintro (⟨rfl, isOptional, form⟩ | ⟨outer, i, chain, isOptional, rfl, found, form⟩)
    · exact ⟨[], k, t, isOptional, rfl, rfl, form⟩
    · refine ⟨k :: outer, i, chain, isOptional, rfl, ?_, form⟩
      rw [Tree.at?_cons, there]
      exact found

theorem mem_callsIn_iff {bindings : List Binding} {address : Address} {linked : Bool} {t : Tree}
    {c : Call} :
    c ∈ callsIn bindings address linked t ↔
      ∃ below, c.address = address ++ below ∧ t.at? below = some c.call ∧
        isCallOf bindings c.call = true ∧ ¬ IsLink t below ∧ (below = [] → linked = false) := by
  induction t using Tree.parts_induction generalizing address linked with
  | step t ih =>
    rw [mem_callsIn_step]
    constructor
    · rintro (⟨free, isCall, rfl⟩ | ⟨k, p, there, inside⟩)
      · refine ⟨[], by simp, rfl, isCall, ?_, fun _ => free⟩
        rintro ⟨outer, i, _, _, split, _⟩
        cases outer <;> cases split
      · obtain ⟨below, same, found, isCall, notLink, free⟩ :=
          (ih p (List.mem_of_getElem? there)).mp inside
        refine ⟨k :: below, by simpa using same, ?_, isCall, ?_, fun h => (nomatch h)⟩
        · rw [Tree.at?_cons, there]
          exact found
        · rw [isLink_cons_iff there]
          rintro (⟨rfl, isOptional, form⟩ | link)
          · have := free rfl
            simp [form] at this
          · exact notLink link
    · rintro ⟨below, same, found, isCall, notLink, free⟩
      cases below with
      | nil =>
        cases found
        refine Or.inl ⟨free rfl, isCall, ?_⟩
        rw [List.append_nil] at same
        rw [← same]
      | cons k below =>
        rw [Tree.at?_cons, Option.bind_eq_some_iff] at found
        obtain ⟨p, there, found⟩ := found
        rw [isLink_cons_iff there, not_or] at notLink
        refine Or.inr ⟨k, p, there, (ih p (List.mem_of_getElem? there)).mpr ?_⟩
        refine ⟨below, by simpa using same, found, isCall, notLink.2, fun last => ?_⟩
        have open' : ¬ ∃ isOptional, t.shape = .optionalChain isOptional := fun form =>
          notLink.1 ⟨last, form⟩
        cases form : t.shape with
        | optionalChain isOptional => exact absurd ⟨isOptional, form⟩ open'
        | _ => rfl

theorem sorted_inParts {bindings : List Binding} {address : Address} {linked : Bool} {i : Nat}
    {parts : List Tree}
    (each : ∀ p ∈ parts, ∀ address linked,
      (callsIn bindings address linked p).Pairwise fun c d => c.address < d.address) :
    (callsIn.inParts bindings address linked i parts).Pairwise
      fun c d => c.address < d.address := by
  induction parts generalizing i with
  | nil => exact List.Pairwise.nil
  | cons p ps ih =>
    rw [List.forall_mem_cons] at each
    rw [callsIn.inParts, List.pairwise_append]
    refine ⟨each.1 _ _, ih each.2, ?_⟩
    intro c one d other
    obtain ⟨k, q, _, inside⟩ := mem_inParts_iff.mp other
    obtain ⟨below, left, _⟩ := mem_callsIn_iff.mp one
    obtain ⟨below', right, _⟩ := mem_callsIn_iff.mp inside
    rw [left, right, List.append_assoc, List.append_assoc]
    exact List.append_left_lt (List.cons_lt_cons_iff.mpr (Or.inl (by omega)))

/-- A call comes before those inside it and before those behind it. -/
theorem sorted_callsIn (bindings : List Binding) (address : Address) (linked : Bool) (t : Tree) :
    (callsIn bindings address linked t).Pairwise fun c d => c.address < d.address := by
  induction t using Tree.parts_induction generalizing address linked with
  | step t ih =>
    obtain ⟨shape, span, parts⟩ := t
    rw [callsIn_node, List.pairwise_append]
    refine ⟨?_, sorted_inParts ih, ?_⟩
    · split
      · exact List.pairwise_singleton _ _
      · exact List.Pairwise.nil
    · intro c own d other
      have here : c.address = address ++ [] := by
        rw [List.mem_singleton.mp (List.mem_ite_nil_right.mp own).2, List.append_nil]
      obtain ⟨k, q, _, inside⟩ := mem_inParts_iff.mp other
      obtain ⟨below, there, _⟩ := mem_callsIn_iff.mp inside
      rw [here, there, List.append_assoc]
      exact List.append_left_lt (List.nil_lt_cons _ _)

/-- No call is looked at twice. -/
theorem pairwise_callsIn (bindings : List Binding) (address : Address) (linked : Bool) (t : Tree) :
    (callsIn bindings address linked t).Pairwise fun c d => c.address ≠ d.address := by
  refine List.Pairwise.imp (fun before same => ?_) (sorted_callsIn bindings address linked t)
  rw [same] at before
  exact List.lt_irrefl _ before

/-- The calls that are looked at are the bound calls, wherever in the module they stand. -/
theorem mem_calls_iff {module : Tree} {c : Call} :
    c ∈ calls module ↔ BoundCall module c.address c.call := by
  rw [calls, mem_callsIn_iff]
  constructor
  · rintro ⟨below, same, found, isCall, notLink, _⟩
    rw [List.nil_append] at same
    obtain ⟨call, binding, bound, member⟩ := isCallOf_iff.mp isCall
    rw [← same] at found notLink
    exact ⟨found, call, notLink, binding, bound, mem_bindings_iff.mp member⟩
  · rintro ⟨found, isCall, notLink, binding, bound, introduced⟩
    have isCallOf := isCallOf_iff.mpr ⟨isCall, binding, bound, mem_bindings_iff.mpr introduced⟩
    exact ⟨c.address, rfl, found, isCallOf, notLink, fun _ => rfl⟩

/-! ## The same, by the places of names -/

/-- The binding that the name at a place means. -/
def bindingAt? (module : Tree) (place : Address) : Option Binding :=
  (module.at? place).bind Binding.of?

/-- The same name stands at two places of a module, and it means the same. -/
def SameId (module : Tree) (place other : Address) : Prop :=
  ∃ binding, bindingAt? module place = some binding ∧ bindingAt? module other = some binding

/-- At a place stands the local name of a specifier that imports the function, as a value, from the
package of routes. -/
inductive IsLocalName (module : Tree) : Address → Prop
  | ofSpecifier {i j : Nat} {item specifier : Tree} (inModule : module.parts[i]? = some item)
      (isImport : item.shape = .importDecl false)
      (fromPackage : ∃ raw, (item.part 1).shape = .stringLit packageName raw)
      (inItem : (item.part 0).parts[j]? = some specifier)
      (isNamed : specifier.shape = .importNamed false)
      (imports : ImportsAs specifier functionName) : IsLocalName module [i, 0, j, 0]

theorem bindingAt?_callee {module call : Tree} {address : Address}
    (here : module.at? address = some call) :
    bindingAt? module (address ++ [0]) = Binding.of? (call.part 0) := by
  rw [bindingAt?, Tree.at?_append, here, Option.bind_some, Tree.at?_cons]
  cases there : call.parts[0]? with
  | none => rw [Tree.part_eq_absent there]; rfl
  | some p => rw [Tree.part_eq_of_getElem? there]; rfl

theorem at?_specifier {module item specifier : Tree} {i j : Nat}
    (inModule : module.parts[i]? = some item)
    (inItem : (item.part 0).parts[j]? = some specifier) :
    module.at? [i, 0, j] = some specifier := by
  have list : item.parts[0]? = some (item.part 0) :=
    Tree.getElem?_parts fun missing => by cases missing ▸ inItem
  simp only [Tree.at?_cons, inModule, list, inItem, Option.bind_some]
  rfl

theorem introduces_iff_isLocalName {module : Tree} {binding : Binding} :
    Introduces module binding ↔
      ∃ place, IsLocalName module place ∧ bindingAt? module place = some binding := by
  constructor
  · rintro ⟨item, member, isImport, fromPackage, specifier, inside, isNamed, imports, bound⟩
    obtain ⟨i, inModule⟩ := List.mem_iff_getElem?.mp member
    obtain ⟨j, inItem⟩ := List.mem_iff_getElem?.mp inside
    refine ⟨_, .ofSpecifier inModule isImport fromPackage inItem isNamed imports, ?_⟩
    have found := at?_specifier inModule inItem
    exact (bindingAt?_callee found).trans bound
  · rintro ⟨_, ⟨inModule, isImport, fromPackage, inItem, isNamed, imports⟩, told⟩
    rename_i item specifier
    have found := at?_specifier inModule inItem
    exact ⟨item, List.mem_of_getElem? inModule, isImport, fromPackage, specifier,
      List.mem_of_getElem? inItem, isNamed, imports, (bindingAt?_callee found).symm.trans told⟩

/-- A call is looked at exactly if its callee is nothing but a name, and means the same as the local
name of a specifier that imports the function. -/
theorem boundCall_iff_sameId {module call : Tree} {address : Address} :
    BoundCall module address call ↔
      module.at? address = some call ∧ call.shape = .call ∧ ¬ IsLink module address ∧
        ∃ place, IsLocalName module place ∧ SameId module (address ++ [0]) place := by
  constructor
  · rintro ⟨here, isCall, notLink, binding, bound, introduced⟩
    obtain ⟨place, isLocal, told⟩ := introduces_iff_isLocalName.mp introduced
    exact ⟨here, isCall, notLink, place, isLocal, binding, (bindingAt?_callee here).trans bound,
      told⟩
  · rintro ⟨here, isCall, notLink, place, isLocal, binding, bound, told⟩
    exact ⟨here, isCall, notLink, binding, (bindingAt?_callee here).symm.trans bound,
      introduces_iff_isLocalName.mpr ⟨place, isLocal, told⟩⟩

end RouteManifest.Routes
