import RouteManifest.Proofs.Failures
import RouteManifest.Proofs.Isolation
import RouteManifest.Proofs.Repeating

/-!
# Routes as objects

What a route holds under a name when its literal has been evaluated, and what the export names tell
of it. Properties are evaluated one after another, and each takes the place of those of its name
before it. The names are those of the module that the first property for it refers to; the others
are passed over. They tell of the module that is loaded as long as there is one such property, but
if there are more, the last is the one that is loaded from.
-/

namespace RouteManifest.Routes

open Script

/-- What an object holds under a name. -/
inductive Holding where
  | nothing
  /-- what a property puts there -/
  | set (property : Tree)
  /-- what cannot be told from the literal -/
  | untold
  deriving Inhabited

/-- A property that may have any name: a spread, or one with a computed key. -/
def isOpen (property : Tree) : Bool :=
  match property.shape with
  | .spread _ => true
  | .keyValue | .assignProp | .getterProp | .setterProp | .methodProp =>
    ((property.part 0).shape matches .computed)
  | _ => false

/-- What is held under a name after one more property. -/
def Holding.next (name : String) (before : Holding) (property : Tree) : Holding :=
  if isOpen property then .untold
  else if propertyName? property = some name then .set property
  else before

/-- What the object of a literal holds under a name. -/
def holding (name : String) (properties : List Tree) : Holding :=
  properties.foldl (Holding.next name) .nothing

/-- The last property with a name, which is the first one from behind. -/
def LastNamed (properties : List Tree) (name : String) (property : Tree) : Prop :=
  FirstNamed properties.reverse name property

theorem holding_append (name : String) (properties : List Tree) (property : Tree) :
    holding name (properties ++ [property]) = (holding name properties).next name property := by
  simp [holding]

/-- Without open properties, an object holds what the last property with the name puts there. -/
theorem holding_eq_set_iff {name : String} {properties : List Tree}
    (closed : ∀ p ∈ properties, isOpen p = false) {property : Tree} :
    holding name properties = .set property ↔ LastNamed properties name property := by
  rw [LastNamed, ← find?_eq_some_iff_firstNamed]
  induction properties using List.reverseRecOn with
  | nil => simp [holding]
  | append_singleton before last ih =>
    rw [List.forall_mem_append, List.forall_mem_singleton] at closed
    rw [holding_append, Holding.next, closed.2, List.reverse_append]
    by_cases named : propertyName? last = some name
    · simp [named]
    · simpa [named] using ih closed.1

/-- The only property with a name is the last as it is the first. -/
theorem FirstNamed.lastNamed {properties : List Tree} {name : String} {property : Tree}
    (first : FirstNamed properties name property)
    (alone : properties.Pairwise fun p q => Named p name → ¬ Named q name) :
    LastNamed properties name property := by
  obtain ⟨named, before, after, rfl, -⟩ := first
  have behind := (List.pairwise_cons.mp (List.pairwise_append.mp alone).2.1).1
  refine ⟨named, after.reverse, before.reverse, by simp, fun p member => ?_⟩
  exact behind p (List.mem_reverse.mp member) named

/-- Export names that were put behind all other properties are what the object holds of them. -/
theorem holding_exportsKey (properties : List Tree) (names : List String) :
    holding exportsKey (properties ++ [exportsProperty names]) = .set (exportsProperty names) := by
  have closed : isOpen (exportsProperty names) = false := rfl
  have named : propertyName? (exportsProperty names) = some exportsKey := rfl
  rw [holding_append, Holding.next, closed, named]
  simp

namespace Equipped

variable {more : Address → List Tree} {t u : Tree}

theorem isOpen_eq (h : Equipped more t u) : isOpen u = isOpen t := by
  have told : ∀ property : Tree, isOpen property = match property.shape.placeless with
      | .spread _ => true
      | .keyValue | .assignProp | .getterProp | .setterProp | .methodProp =>
        ((property.part 0).shape.placeless matches .computed)
      | _ => false := by
    intro property
    have key : ((property.part 0).shape.placeless matches .computed) =
        ((property.part 0).shape matches .computed) := by
      cases (property.part 0).shape with
      | _ => rfl
    rw [key, isOpen]
    cases property.shape with
    | _ => rfl
  by_cases object : t.shape = .objectLit
  · have object' := (h.grown.shape_iff rfl).mpr object
    simp [isOpen, object, object']
  · have key := (h.part_number (h.nothing object) 0).grown.shape
    rw [told, told, h.grown.shape, key]

/-- No open property comes about. -/
theorem closed (h : Equipped more t u) (closed : ∀ p ∈ t.parts, isOpen p = false) :
    ∀ q ∈ u.parts, isOpen q = false := by
  intro q member
  obtain ⟨k, found⟩ := List.mem_iff_getElem?.mp member
  rcases h.part_or_added found with ⟨p, there, part⟩ | ⟨_, names, alike⟩
  · rw [part.isOpen_eq]
    exact closed p (List.mem_of_getElem? there)
  · have made : Equipped (fun _ => []) (exportsProperty names) q :=
      ⟨.of_nothing _, .of_placeless alike⟩
    rw [made.isOpen_eq]
    rfl

/-- No further property with a name that is looked for comes about. -/
theorem alone (h : Equipped more t u) {name : String} (other : name ≠ exportsKey)
    (alone : t.parts.Pairwise fun p q => Named p name → ¬ Named q name) :
    u.parts.Pairwise fun p q => Named p name → ¬ Named q name := by
  have before : ∀ {k : Nat} {q : Tree}, u.parts[k]? = some q → Named q name →
      ∃ p, t.parts[k]? = some p ∧ Named p name := by
    intro k q found named
    rcases h.part_or_added found with ⟨p, there, part⟩ | ⟨_, names, alike⟩
    · exact ⟨p, there, part.named_iff.mp named⟩
    · exact absurd named (not_named_added alike other)
  rw [List.pairwise_iff_getElem] at alone ⊢
  intro i j bound bound' less named named'
  obtain ⟨p, there, called⟩ := before (List.getElem?_eq_getElem bound) named
  obtain ⟨p', there', called'⟩ := before (List.getElem?_eq_getElem bound') named'
  obtain ⟨inside, rfl⟩ := List.getElem?_eq_some_iff.mp there
  obtain ⟨inside', rfl⟩ := List.getElem?_eq_some_iff.mp there'
  exact alone i j inside inside' less called called'

end Equipped

namespace Setting

variable {s : Setting} {array once : Tree}

/-- A transformed array is the array with the export names that are due to its routes. -/
theorem exists_dueIn_of_transform {session : Session} (sound : session.cache.Sound s.project)
    (isArray : array.shape = .arrayLit)
    (transformed : ((s.transform array).run.run session).1 = .ok once) :
    ∃ received, s.DueIn array received ∧ once = array.extended (copies 1 received) := by
  have answers : Answers s.project (s.transform array)
      (s.planArray array >>= fun plan => pure (plan.carryOut array)) :=
    (s.answers_plan array).bind fun plan => Answers.pure (plan.carryOut array)
  have transformed := (answers session sound).1.symm.trans transformed
  obtain ⟨plan, planned, _⟩ := bind_eq_ok_iff.mp transformed
  have wellFormed := (s.planArray_ok_iff array).mp ⟨plan, planned⟩
  have due := (dueIn_iff planned).mpr rfl
  have all := answers_transform due wellFormed isArray 0
  rw [copies_zero, Tree.extended_nothing] at all
  have same := ((all session sound).1.symm.trans (answers session sound).1).trans transformed
  exact ⟨_, due, (Except.ok.inj same).symm⟩

/-- The export names of a transformed route are those of the module that its first property for
the module refers to, whatever else the route has. Without open properties, and if no other property
is for the module, that is the module that the object loads. -/
theorem holding_of_transform {session : Session} (sound : session.cache.Sound s.project)
    (isArray : array.shape = .arrayLit)
    (transformed : ((s.transform array).run.run session).1 = .ok once)
    {address : Address} {route : Tree} (place : RouteAt array address route)
    (referring : ∃ p ∈ route.parts, Named p "module") :
    ∃ route' property names, once.at? address = some route' ∧
      FirstNamed route'.parts "module" property ∧ s.Defers property names ∧
      holding exportsKey route'.parts = .set (exportsProperty names) ∧
      ((∀ p ∈ route.parts, isOpen p = false) →
        (route.parts.Pairwise fun p q => Named p "module" → ¬ Named q "module") →
          holding "module" route'.parts = .set property) := by
  obtain ⟨received, due, rfl⟩ := exists_dueIn_of_transform sound isArray transformed
  have equipped : Equipped (fun below => copies 1 received (address ++ below)) route
      (route.extended fun below => copies 1 received (address ++ below)) :=
    ⟨(due.keepsToElements isArray 1).at? place.at?_eq, Tree.Grown.of_extended _ _⟩
  have modules := due.routes address route place
  cases told : received address with
  | none =>
    obtain ⟨p, member, named⟩ := referring
    rw [told] at modules
    exact absurd named (modules p member)
  | some names =>
    rw [told] at modules
    obtain ⟨property, first, defers⟩ := modules.equipped equipped fun _ _ read => read
    have parts : (route.extended fun below => copies 1 received (address ++ below)).parts =
        (route.parts.mapIdx fun k p =>
          p.extended fun below => copies 1 received (address ++ k :: below)) ++
            [exportsProperty names] := by
      rw [Tree.extended_eq, Tree.parts_withParts, List.append_nil, copies, told]
      rfl
    refine ⟨_, property, names, at?_extended place.at?_eq, first, defers, ?_, ?_⟩
    · rw [parts]
      exact holding_exportsKey _ names
    · intro closed alone
      rw [holding_eq_set_iff (equipped.closed closed)]
      exact first.lastNamed (equipped.alone (by decide) alone)

end Setting

/-- A property that defers the import of a module. -/
def referring (specifier : String) : Tree :=
  let leaf (shape : Shape) : Tree := .node shape .nowhere []
  let call : Tree :=
    .node .call .nowhere [leaf .importCallee, .list [leaf (.stringLit specifier none)], .absent]
  .node .keyValue .nowhere [leaf (.ident "module" 0 false),
    .node (.arrow ⟨false, false⟩) .nowhere [.list [], call, .absent, .absent]]

/-- One route with properties for modules, in the order of their specifiers. -/
def referringRoutes (specifiers : List String) : Tree :=
  .node .arrayLit .nowhere [.node .objectLit .nowhere (specifiers.map referring)]

theorem transform_referringRoutes (specifiers names : List String)
    (planned : (passingSetting.planArray (referringRoutes specifiers)).toOption =
      some [⟨[0], names⟩]) :
    ((passingSetting.transform (referringRoutes specifiers)).run.run Session.fresh).1 =
      .ok (.node .arrayLit .nowhere
        [.node .objectLit .nowhere (specifiers.map referring ++ [exportsProperty names])]) := by
  rw [passingSetting.transform_fresh]
  cases told : passingSetting.planArray (referringRoutes specifiers) with
  | error halt =>
    rw [told] at planned
    cases planned
  | ok plan =>
    rw [told] at planned
    cases planned
    rfl

/-- One route with one module. -/
theorem holding_referringRoutes :
    ∃ once route' property names,
      ((passingSetting.transform (referringRoutes ["./x"])).run.run Session.fresh).1 = .ok once ∧
      once.at? [0] = some route' ∧ FirstNamed route'.parts "module" property ∧
      passingSetting.Defers property names ∧
      holding exportsKey route'.parts = .set (exportsProperty names) ∧
      holding "module" route'.parts = .set property := by
  have transformed := transform_referringRoutes ["./x"] ["a"] (by decide +kernel)
  have place : RouteAt (referringRoutes ["./x"]) [0]
      (.node .objectLit .nowhere [referring "./x"]) := .element rfl rfl
  have named : Named (referring "./x") "module" := .keyed (Or.inl rfl) .ident
  obtain ⟨route', property, names, found, first, defers, exported, loaded⟩ :=
    Setting.holding_of_transform (Cache.sound_empty _) rfl transformed place
      ⟨_, List.mem_singleton.mpr rfl, named⟩
  refine ⟨_, route', property, names, transformed, found, first, defers, exported, ?_⟩
  refine loaded (fun p member => ?_) (List.pairwise_singleton _ _)
  rw [List.mem_singleton.mp member]
  rfl

/-- The names are not always those of the module that the object loads: of two properties for it,
the first is looked at and the last is held. -/
theorem exists_untrue_names :
    ¬ ∀ (s : Setting) (array once : Tree), array.shape = .arrayLit →
      ((s.transform array).run.run Session.fresh).1 = .ok once →
        ∀ address route, RouteAt array address route → (∀ p ∈ route.parts, isOpen p = false) →
          (∃ p ∈ route.parts, Named p "module") →
            ∃ route' property names, once.at? address = some route' ∧
              holding "module" route'.parts = .set property ∧ s.Defers property names ∧
              holding exportsKey route'.parts = .set (exportsProperty names) := by
  intro always
  have transformed := transform_referringRoutes ["./x", "./y"] ["a"] (by decide +kernel)
  have place : RouteAt (referringRoutes ["./x", "./y"]) [0]
      (.node .objectLit .nowhere [referring "./x", referring "./y"]) := .element rfl rfl
  have closed : ∀ p ∈ [referring "./x", referring "./y"], isOpen p = false := by
    intro p member
    rcases List.mem_pair.mp member with rfl | rfl
    · rfl
    · rfl
  have named : Named (referring "./x") "module" := .keyed (Or.inl rfl) .ident
  obtain ⟨route', property, names, found, loaded, defers, exported⟩ :=
    always _ _ _ rfl transformed [0] _ place closed ⟨_, List.mem_cons_self, named⟩
  cases found
  have last : holding "module" [referring "./x", referring "./y", exportsProperty ["a"]] =
      .set (referring "./y") := by
    rfl
  cases last.symm.trans loaded
  have first := (holding_exportsKey [referring "./x", referring "./y"] ["a"]).symm.trans exported
  have told : (passingSetting.namesOf (referring "./y")).toOption = some ["b"] := by
    decide +kernel
  rw [Setting.namesOf_eq_ok_iff.mpr defers] at told
  cases told
  simp [exportsProperty] at first

end RouteManifest.Routes
