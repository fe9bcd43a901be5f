import RouteManifest.Proofs.Frame
import RouteManifest.Proofs.Repeating
import RouteManifest.Proofs.EquippedPlaces

/-!
# Calls in modules whose routes have export names

Export names for the routes of a module change none of its imports and none of its calls: the calls
that mark routes are those that marked them before, each call has the argument that it had, with
more in its routes, and what is due to the module is what was due to it. A route of one call may be
inside the routes of another; this is why more is said here than what is known of one array.
-/

namespace RouteManifest.Routes

open Script

/-- The binding that a name stands for, by its shape. -/
theorem Binding.of?_eq (t : Tree) :
    Binding.of? t = match t.shape.placeless with
      | .ident name level _ => some ⟨name, level⟩
      | _ => none := by
  unfold Binding.of?
  cases t.shape with
  | _ => rfl

theorem of?_eq_of_alike {t u : Tree} (alike : u.shape.placeless = t.shape.placeless) :
    Binding.of? u = Binding.of? t := by
  rw [Binding.of?_eq u, Binding.of?_eq t, alike]

/-- The name that a specifier imports, by the shapes of its parts. -/
theorem importedName?_eq (s : Tree) :
    importedName? s =
      match (if (s.part 1).isAbsent then (s.part 0).shape.placeless
        else (s.part 1).shape.placeless) with
      | .ident name _ _ | .stringLit name _ => some name
      | _ => none := by
  rw [importedName?]
  by_cases alone : (s.part 1).isAbsent = true
  · rw [if_pos alone, if_pos alone]
    cases (s.part 0).shape with
    | _ => rfl
  · rw [if_neg alone, if_neg alone]
    cases (s.part 1).shape with
    | _ => rfl

theorem importedName?_eq_of_alike {one two : Tree}
    (own : (one.part 0).shape.placeless = (two.part 0).shape.placeless)
    (imported : (one.part 1).shape.placeless = (two.part 1).shape.placeless) :
    importedName? one = importedName? two := by
  rw [importedName?_eq one, importedName?_eq two, own, imported, isAbsent_eq_of_alike imported]

/-- What a specifier binds for the function, by its shape. -/
theorem specifierBinding?_eq (s : Tree) :
    specifierBinding? s = match s.shape.placeless with
      | .importNamed false =>
        if importedName? s = some functionName then Binding.of? (s.part 0) else none
      | _ => none := by
  unfold specifierBinding?
  cases s.shape with
  | _ => rfl

/-- What an item binds for the function, by its shape and that of its source. -/
theorem itemBindings_eq (item : Tree) :
    itemBindings item = match item.shape.placeless, (item.part 1).shape.placeless with
      | .importDecl false, .stringLit source _ =>
        if source = packageName then (item.part 0).parts.filterMap specifierBinding? else []
      | _, _ => [] := by
  unfold itemBindings
  cases item.shape with
  | importDecl typeOnly => cases typeOnly with
    | true => rfl
    | false => cases (item.part 1).shape with
      | _ => rfl
  | _ => rfl

namespace Equipped

variable {more : Address → List Tree} {t u : Tree}

theorem filterMap_eq {α : Type} {f : Tree → Option α} (h : Equipped more t u)
    (each : ∀ p ∈ t.parts, ∀ more q, Equipped more p q → f q = f p)
    (added : ∀ names q, q.placeless = (exportsProperty names).placeless → f q = none) :
    u.parts.filterMap f = t.parts.filterMap f := by
  rw [List.filterMap_eq_flatMap_toList, List.filterMap_eq_flatMap_toList]
  refine h.flatMap_eq (fun p member more q part => ?_) fun names q alike => ?_
  · rw [each p member more q part]
  · rw [added names q alike]
    rfl

theorem specifierBinding?_eq (h : Equipped more t u) :
    specifierBinding? u = specifierBinding? t := by
  rw [Routes.specifierBinding?_eq u, Routes.specifierBinding?_eq t, h.grown.shape]
  split
  · rename_i form
    have nothing := h.nothing (by simp [(Shape.placeless_eq_iff rfl).mp form])
    have own := (h.part_number nothing 0).grown.shape
    rw [importedName?_eq_of_alike own (h.part_number nothing 1).grown.shape, of?_eq_of_alike own]
  · rfl

theorem itemBindings_eq (h : Equipped more t u) : itemBindings u = itemBindings t := by
  by_cases imports : t.shape = .importDecl false
  · have nothing := h.nothing (by simp [imports])
    have specifiers : (u.part 0).parts.filterMap specifierBinding? =
        (t.part 0).parts.filterMap specifierBinding? :=
      (h.part_number nothing 0).filterMap_eq (fun p _ more q part => part.specifierBinding?_eq)
        fun names q alike => by
          unfold specifierBinding?
          rw [(Shape.placeless_eq_iff rfl).mp (shape_of_added alike)]
    rw [Routes.itemBindings_eq u, Routes.itemBindings_eq t, h.grown.shape,
      (h.part_number nothing 1).grown.shape, specifiers]
  · have none : ∀ item : Tree, item.shape ≠ .importDecl false → itemBindings item = [] := by
      intro item other
      unfold itemBindings
      split
      · rename_i form _
        exact absurd form other
      · rfl
    rw [none t imports, none u fun form => imports ((h.grown.shape_iff rfl).mp form)]

/-- A module introduces the bindings that it introduced. -/
theorem bindings_eq (h : Equipped more t u) : bindings u = bindings t :=
  h.flatMap_eq (fun p _ more q part => part.itemBindings_eq) fun names q alike => by
    unfold itemBindings
    rw [(Shape.placeless_eq_iff rfl).mp (shape_of_added alike)]

theorem introduces_iff (h : Equipped more t u) {binding : Binding} :
    Introduces u binding ↔ Introduces t binding := by
  rw [← mem_bindings_iff, ← mem_bindings_iff, h.bindings_eq]

/-- What was there is an operand of an optional chain exactly if it was one. -/
theorem isLink_iff (h : Equipped more t u) {address : Address} (there : t.at? address ≠ none) :
    IsLink u address ↔ IsLink t address := by
  constructor
  · rintro ⟨outer, i, chain, isOptional, rfl, found, form⟩
    cases before : t.at? outer with
    | none =>
      rw [Tree.at?_append, before] at there
      exact absurd rfl there
    | some p =>
      obtain ⟨q, found', part⟩ := h.at? before
      cases found.symm.trans found'
      exact ⟨outer, i, p, isOptional, rfl, before, (part.grown.shape_iff rfl).mp form⟩
  · rintro ⟨outer, i, chain, isOptional, rfl, found, form⟩
    obtain ⟨q, found', part⟩ := h.at? found
    exact ⟨outer, i, q, isOptional, rfl, found', (part.grown.shape_iff rfl).mpr form⟩

/-- A call has the argument that it had. -/
theorem argument (h : Equipped more t u) (isCall : t.shape = .call) {array : Tree}
    (arguments : (t.part 1).parts = [array]) :
    ∃ array', (u.part 1).parts = [array'] ∧
      Equipped (fun below => more (1 :: 0 :: below)) array array' :=
  (h.part_number (h.nothing (by simp [isCall])) 1).parts_eq_singleton
    (h.nothing_below (by simp [isCall]) 1) arguments

theorem of_argument (h : Equipped more t u) (isCall : t.shape = .call) {array' : Tree}
    (arguments : (u.part 1).parts = [array']) :
    ∃ array, (t.part 1).parts = [array] ∧
      Equipped (fun below => more (1 :: 0 :: below)) array array' :=
  (h.part_number (h.nothing (by simp [isCall])) 1).of_parts_eq_singleton
    (h.nothing_below (by simp [isCall]) 1) arguments

end Equipped

/-- No call was added. -/
theorem shape_ne_call_of_added {added q : Tree} {names : List String} {inner : Address}
    (alike : added.placeless = (exportsProperty names).placeless) (found : added.at? inner = some q) :
    q.shape ≠ .call := by
  intro isCall
  have grown : Tree.Grown (fun _ => []) (exportsProperty names) added := .of_placeless alike
  rcases grown.at?_or_added found with ⟨p, there, alike⟩ | ⟨_, _, _, _, _, _, member, _⟩
  · have isCall' := (alike.shape_iff rfl).mp isCall
    match inner, there with
    | [], there =>
      cases there
      cases isCall'
    | [0], there =>
      cases there
      cases isCall'
    | [1], there =>
      cases there
      cases isCall'
    | 1 :: k :: rest, there =>
      change (names.map fun name => (.node (.stringLit name none) .nowhere [] : Tree))[k]?.bind _ =
        some p at there
      rw [List.getElem?_map, Option.bind_map, Option.bind_eq_some_iff] at there
      obtain ⟨name, _, there⟩ := there
      cases rest with
      | nil =>
        cases there
        cases isCall'
      | cons j rest => cases there
  · cases member

variable {more : Address → List Tree} {t u : Tree}

/-- A call that marks routes stays one. -/
theorem BoundCall.equipped {address : Address} {call : Tree} (bound : BoundCall t address call)
    (h : Equipped more t u) :
    ∃ call', BoundCall u address call' ∧
      Equipped (fun below => more (address ++ below)) call call' := by
  obtain ⟨call', found, part⟩ := h.at? bound.here
  obtain ⟨binding, means, introduced⟩ := bound.bound
  have callee := (part.part_number (part.nothing (by simp [bound.isCall])) 0).grown.shape
  refine ⟨call', ⟨found, (part.grown.shape_iff rfl).mpr bound.isCall, fun link => ?_,
    binding, (of?_eq_of_alike callee).trans means, h.introduces_iff.mpr introduced⟩, part⟩
  exact bound.notLink ((h.isLink_iff (by simp [bound.here])).mp link)

/-- No other calls mark routes. -/
theorem BoundCall.of_equipped {address : Address} {call' : Tree} (bound : BoundCall u address call')
    (h : Equipped more t u) :
    ∃ call, BoundCall t address call ∧
      Equipped (fun below => more (address ++ below)) call call' := by
  rcases h.at?_or_added bound.here with ⟨call, there, part⟩ | ⟨added, inner, names, alike, found⟩
  · have isCall := (part.grown.shape_iff rfl).mp bound.isCall
    obtain ⟨binding, means, introduced⟩ := bound.bound
    have callee := (part.part_number (part.nothing (by simp [isCall])) 0).grown.shape
    refine ⟨call, ⟨there, isCall, fun link => ?_, binding,
      (of?_eq_of_alike callee).symm.trans means, h.introduces_iff.mp introduced⟩, part⟩
    exact bound.notLink ((h.isLink_iff (by simp [there])).mpr link)
  · exact absurd bound.isCall (shape_ne_call_of_added alike found)

namespace IsRoute

theorem shape_eq {address : Address} {route : Tree} (h : IsRoute t address route) :
    route.shape = .objectLit := by
  obtain ⟨_, _, _, _, _, _, _, _, place⟩ := h
  exact place.shape_eq

/-- A route is an element of an array. -/
theorem inArray {address : Address} {k : Nat} {route : Tree} (h : IsRoute t (address ++ [k]) route) :
    ∃ array, t.at? address = some array ∧ array.shape = .arrayLit := by
  obtain ⟨outer, call, array, inner, bound, arguments, isArray, same, place⟩ := h
  obtain ⟨above, last, rfl⟩ : ∃ above last, inner = above ++ [last] :=
    ⟨_, _, (List.dropLast_append_getLast place.ne_nil).symm⟩
  have same : address ++ [k] = (outer ++ 1 :: 0 :: above) ++ [last] := by simpa using same
  obtain ⟨rfl, _⟩ := List.append_inj' same rfl
  rw [Tree.at?_append, bound.here, Option.bind_some, at?_argument arguments]
  exact place.inArray isArray

/-- An array of routes that is the second part of a node is the value of a property. -/
theorem keyValue {address : Address} {k : Nat} {route : Tree}
    (h : IsRoute t (address ++ [1, k]) route) :
    ∃ property, t.at? address = some property ∧ property.shape = .keyValue := by
  obtain ⟨outer, call, array, inner, bound, arguments, isArray, same, place⟩ := h
  obtain ⟨above, last, rfl⟩ : ∃ above last, inner = above ++ [last] :=
    ⟨_, _, (List.dropLast_append_getLast place.ne_nil).symm⟩
  have same : (address ++ [1]) ++ [k] = (outer ++ 1 :: 0 :: above) ++ [last] := by simpa using same
  obtain ⟨front, last⟩ := List.append_inj' same rfl
  cases last
  by_cases first : above = []
  · -- the array of a call is the first of its arguments
    subst first
    have same : address ++ [1] = (outer ++ [1]) ++ [0] := by simpa using front
    cases (List.append_inj' same rfl).2
  · obtain ⟨above', last', rfl⟩ : ∃ above' last', above = above' ++ [last'] :=
      ⟨_, _, (List.dropLast_append_getLast first).symm⟩
    have same : address ++ [1] = (outer ++ 1 :: 0 :: above') ++ [last'] := by simpa using front
    obtain ⟨rfl, last⟩ := List.append_inj' same rfl
    cases last
    rw [Tree.at?_append, bound.here, Option.bind_some, at?_argument arguments]
    rw [List.append_assoc] at place
    exact place.keyValue

/-- A route stays a route, where it is. -/
theorem equipped {address : Address} {route : Tree} (h : IsRoute t address route)
    (e : Equipped more t u) :
    ∃ route', IsRoute u address route' ∧
      Equipped (fun below => more (address ++ below)) route route' := by
  obtain ⟨outer, call, array, inner, bound, arguments, isArray, rfl, place⟩ := h
  obtain ⟨call', bound', part⟩ := bound.equipped e
  obtain ⟨array', arguments', values⟩ := part.argument bound.isCall arguments
  obtain ⟨route', place', below⟩ := place.equipped values
  refine ⟨route', ⟨outer, call', array', inner, bound', arguments',
    (values.grown.shape_iff rfl).mpr isArray, rfl, place'⟩, ?_⟩
  simpa using below

/-- No other routes come about. -/
theorem of_equipped {address : Address} {route' : Tree} (h : IsRoute u address route')
    (e : Equipped more t u) :
    ∃ route, IsRoute t address route ∧
      Equipped (fun below => more (address ++ below)) route route' := by
  obtain ⟨outer, call', array', inner, bound', arguments', isArray', rfl, place'⟩ := h
  obtain ⟨call, bound, part⟩ := bound'.of_equipped e
  obtain ⟨array, arguments, values⟩ := part.of_argument bound.isCall arguments'
  have isArray := (values.grown.shape_iff rfl).mp isArray'
  obtain ⟨route, place, below⟩ := place'.of_equipped values isArray
  refine ⟨route, ⟨outer, call, array, inner, bound, arguments, isArray, rfl, place⟩, ?_⟩
  simpa using below

end IsRoute

namespace Setting

variable {s s' : Setting} {received : Address → Option (List String)}

theorem AcceptsCall.equipped {call call' : Tree} (accepted : s.AcceptsCall call)
    (reads : ∀ specifier names, s.Reads specifier names → s'.Reads specifier names)
    (h : Equipped more call call') (isCall : call.shape = .call) : s'.AcceptsCall call' := by
  obtain ⟨array, arguments, isArray, wellFormed⟩ := accepted
  obtain ⟨array', arguments', values⟩ := h.argument isCall arguments
  exact ⟨array', arguments', (values.grown.shape_iff rfl).mpr isArray,
    wellFormed.equipped reads values isArray⟩

/-- What is due to a module is due to it when its routes have more export names. -/
theorem Due.equipped (due : s.Due t received)
    (reads : ∀ specifier names, s.Reads specifier names → s'.Reads specifier names)
    (h : Equipped more t u) : s'.Due u received := by
  refine ⟨fun address route' place => ?_, fun address names told => ?_⟩
  · obtain ⟨route, place', part⟩ := place.of_equipped h
    exact (due.routes address route place').equipped part reads
  · obtain ⟨route, place⟩ := due.others address names told
    obtain ⟨route', place', _⟩ := place.equipped h
    exact ⟨route', place'⟩

theorem Due.keepsToElements (due : s.Due t received) (times : Nat) :
    KeepsToElements (copies times received) t := by
  refine keepsToElements_copies (fun address names told => ?_) (fun address k names told => ?_)
    (fun address k names told => ?_) times
  · obtain ⟨route, place⟩ := due.others _ names told
    exact ⟨route, place.at?_eq, place.shape_eq⟩
  · obtain ⟨_, place⟩ := due.others _ names told
    exact place.inArray
  · obtain ⟨_, place⟩ := due.others _ names told
    exact place.keyValue

end Setting

end RouteManifest.Routes
