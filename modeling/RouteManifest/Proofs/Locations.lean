import RouteManifest.Proofs.Failures

/-!
# Where errors lie

Every error of a routes file lies at a position of that file, also where a route module is at
fault: it then lies at the property that refers to the module. The error of a call lies inside the
call. That the parts of a node lie inside it, and calls and faults of the syntax inside the text,
is relied on and not shown here.
-/

namespace RouteManifest

open Script

/-- A stretch lies inside another. -/
def Span.Inside (inner outer : Span) : Prop :=
  outer.lo ≤ inner.lo ∧ inner.lo ≤ inner.hi ∧ inner.hi ≤ outer.hi

instance (inner outer : Span) : Decidable (inner.Inside outer) :=
  inferInstanceAs (Decidable (_ ∧ _))

theorem Span.Inside.trans {inner middle outer : Span} (first : inner.Inside middle)
    (second : middle.Inside outer) : inner.Inside outer :=
  ⟨Nat.le_trans second.1 first.1, first.2.1, Nat.le_trans first.2.2 second.2.2⟩

namespace Script.Tree

/-- The stretches of a node that an error may point at: those of its parts, if routes are written
with nodes of its form, and the dots of a spread. A hole of an array is nowhere, and so is the body
of a function that has none. -/
def marks (t : Tree) : List Span :=
  match t.shape with
  | .arrayLit => (t.parts.filter isPresent).map span
  | .objectLit | .keyValue => t.parts.map span
  | .spread dots => dots :: t.parts.map span
  | .call => (t.part 1).parts.map span
  | .arrow _ => [(t.part 1).span]
  | .functionExpr => (t.part 1).span :: ([(t.part 1).part 2].filter isPresent).map span
  | _ => []

/-- The marks of every node of a tree lie inside the node. -/
def Nested (t : Tree) : Prop :=
  ∀ address u, t.at? address = some u → ∀ mark ∈ u.marks, mark.Inside u.span

/-- A tree lies inside a stretch, with all its nodes inside one another. -/
structure Within (t : Tree) (outer : Span) : Prop where
  inside : t.span.Inside outer
  nested : t.Nested

theorem isPresent_iff {t : Tree} : t.isPresent = true ↔ t.shape ≠ .absent := by
  rw [isPresent, Bool.not_eq_true', ← Bool.not_eq_true, Routes.isAbsent_iff]

variable {t p : Tree} {outer stretch : Span}

theorem Nested.at {u : Tree} {address : Address} (nested : t.Nested)
    (found : t.at? address = some u) : u.Nested := by
  intro below v there
  refine nested (address ++ below) v ?_
  rw [at?_append, found]
  exact there

theorem Nested.of_mem (nested : t.Nested) (member : p ∈ t.parts) : p.Nested := by
  obtain ⟨i, there⟩ := List.getElem?_of_mem member
  have found : t.at? [i] = some p := by
    rw [at?_cons, there]
    rfl
  exact nested.at found

theorem Nested.part (nested : t.Nested) (i : Nat) : (t.part i).Nested := by
  cases there : t.parts[i]? with
  | some p =>
    rw [part_eq_of_getElem? there]
    exact nested.of_mem (List.mem_of_getElem? there)
  | none =>
    rw [part_eq_absent there]
    rintro (_ | ⟨j, below⟩) u found
    · cases found
      exact fun _ member => (nomatch member)
    · cases found

theorem Within.mark (within : t.Within outer) (marked : stretch ∈ t.marks) :
    stretch.Inside outer :=
  (within.nested [] t rfl stretch marked).trans within.inside

theorem Within.of_mem (within : t.Within outer) (member : p ∈ t.parts)
    (marked : p.span ∈ t.marks) : p.Within outer :=
  ⟨within.mark marked, within.nested.of_mem member⟩

theorem mem_marks_objectLit (object : t.shape = .objectLit) (member : p ∈ t.parts) :
    p.span ∈ t.marks := by
  simp only [marks, object]
  exact List.mem_map_of_mem member

theorem mem_marks_arrayLit (isArray : t.shape = .arrayLit) (member : p ∈ t.parts)
    (present : p.shape ≠ .absent) : p.span ∈ t.marks := by
  simp only [marks, isArray]
  exact List.mem_map_of_mem (List.mem_filter.mpr ⟨member, isPresent_iff.mpr present⟩)

theorem mem_marks_call (isCall : t.shape = .call) (member : p ∈ (t.part 1).parts) :
    p.span ∈ t.marks := by
  simp only [marks, isCall]
  exact List.mem_map_of_mem member

theorem mem_marks_spread {dots : Span} (spread : t.shape = .spread dots) (member : p ∈ t.parts) :
    p.span ∈ t.marks := by
  simp only [marks, spread]
  exact List.mem_cons_of_mem dots (List.mem_map_of_mem member)

/-- Every node of a tree has a property. -/
def everywhere (holds : Tree → Bool) : Tree → Bool
  | .node shape span parts => holds (.node shape span parts) && inParts parts
where
  inParts : List Tree → Bool
    | [] => true
    | p :: ps => everywhere holds p && inParts ps

theorem everywhere_eq (holds : Tree → Bool) (t : Tree) :
    t.everywhere holds = (holds t && t.parts.all (everywhere holds)) := by
  obtain ⟨shape, span, parts⟩ := t
  have inside : everywhere.inParts holds parts = parts.all (everywhere holds) := by
    induction parts with
    | nil => rfl
    | cons p ps ih => rw [everywhere.inParts, List.all_cons, ih]
  rw [everywhere, inside, parts_node]

theorem everywhere_iff {holds : Tree → Bool} {t : Tree} :
    t.everywhere holds = true ↔ ∀ address u, t.at? address = some u → holds u = true := by
  induction t using parts_induction with
  | step t ih =>
    rw [everywhere_eq, Bool.and_eq_true, List.all_eq_true]
    constructor
    · rintro ⟨here, below⟩ (_ | ⟨i, address⟩) u found
      · cases found
        exact here
      · rw [at?_cons, Option.bind_eq_some_iff] at found
        obtain ⟨p, there, found⟩ := found
        have member := List.mem_of_getElem? there
        exact (ih p member).mp (below p member) address u found
    · intro each
      refine ⟨each [] t rfl, fun p member => (ih p member).mpr fun address u found => ?_⟩
      obtain ⟨i, there⟩ := List.getElem?_of_mem member
      refine each (i :: address) u ?_
      rw [at?_cons, there]
      exact found

end Script.Tree

/-- The stretch of the whole text of a routes file. -/
def RoutesFile.whole (f : RoutesFile) : Span := ⟨1, f.text.length + 1⟩

/-- What is relied on where a routes file is read: the fault of its syntax lies in its text, and so
does every call, and what an error may point at lies inside the node that it belongs to. -/
structure RoutesFile.Spanned (f : RoutesFile) : Prop where
  failure : ∀ failure, Module.ofText (.ofPath f.path) f.text = .error (.failure failure) →
    failure.span.Inside f.whole
  call : ∀ m, f.read = .ok m → ∀ address call, m.tree.at? address = some call →
    call.shape = .call → call.span.Inside f.whole
  nested : ∀ m, f.read = .ok m → m.tree.Nested

namespace RoutesFile

/-- A node has its marks inside, and lies in the file if it is a call. -/
def isPlaced (f : RoutesFile) (t : Tree) : Bool :=
  (!Routes.isCall t || t.span.Inside f.whole) && t.marks.all fun mark => mark.Inside t.span

/-- Whether a routes file is as it is relied on to be. -/
def isSpanned (f : RoutesFile) : Bool :=
  (match Module.ofText (.ofPath f.path) f.text with
    | .error (.failure failure) => decide (failure.span.Inside f.whole)
    | _ => true) &&
  match f.read with
    | .ok m => m.tree.everywhere f.isPlaced
    | .error _ => true

theorem isPlaced_iff {f : RoutesFile} {t : Tree} :
    f.isPlaced t = true ↔
      (t.shape = .call → t.span.Inside f.whole) ∧ ∀ mark ∈ t.marks, mark.Inside t.span := by
  simp only [isPlaced, Bool.and_eq_true, List.all_eq_true, decide_eq_true_eq, ← Routes.isCall_iff]
  cases Routes.isCall t <;> simp

theorem isSpanned_iff {f : RoutesFile} : f.isSpanned = true ↔ f.Spanned := by
  unfold isSpanned
  rw [Bool.and_eq_true]
  constructor
  · rintro ⟨outside, placed⟩
    have each : ∀ m, f.read = .ok m → ∀ address t, m.tree.at? address = some t →
        f.isPlaced t = true := by
      intro m read
      rw [read] at placed
      exact Tree.everywhere_iff.mp placed
    refine ⟨fun failure parsed => ?_, ?_, ?_⟩
    · rw [parsed] at outside
      exact of_decide_eq_true outside
    · exact fun m read address call found => (isPlaced_iff.mp (each m read address call found)).1
    · exact fun m read address t found => (isPlaced_iff.mp (each m read address t found)).2
  · rintro ⟨failure, call, nested⟩
    constructor
    · split
      · rename_i parsed
        exact decide_eq_true (failure _ parsed)
      · rfl
    · split
      · rename_i m read
        refine Tree.everywhere_iff.mpr fun address t found => isPlaced_iff.mpr ⟨?_, ?_⟩
        · exact call m read address t found
        · exact nested m read address t found
      · rfl

end RoutesFile

instance (f : RoutesFile) : Decidable f.Spanned := decidable_of_iff _ f.isSpanned_iff

namespace Routes

/-- If a computation ends with an error, the error lies where a stretch inside an outer one
begins. -/
def PointsInto (f : RoutesFile) (outer : Span) {α : Type}
    (x : Except (Halt CompileError) α) : Prop :=
  ∀ e, x = .error (.error e) →
    ∃ mark : Span, mark.Inside outer ∧ e.location? = some (f.location mark)

namespace PointsInto

variable {f : RoutesFile} {outer mark : Span} {α β : Type}

theorem ok (a : α) : PointsInto f outer (.ok a) := fun _ ended => (nomatch ended)

theorem breakdown (message : String) :
    PointsInto f outer (.error (.breakdown message) : Except (Halt CompileError) α) :=
  fun _ ended => (nomatch ended)

theorem error {e : CompileError} (inside : mark.Inside outer)
    (located : e.location? = some (f.location mark)) :
    PointsInto f outer (.error (.error e) : Except (Halt CompileError) α) := by
  intro other ended
  cases ended
  exact ⟨mark, inside, located⟩

theorem bind {x : Except (Halt CompileError) α} {next : α → Except (Halt CompileError) β}
    (first : PointsInto f outer x) (rest : ∀ a, PointsInto f outer (next a)) :
    PointsInto f outer (x >>= next) := by
  intro e ended
  cases x with
  | ok a => exact rest a e ended
  | error halt =>
    cases ended
    exact first e rfl

theorem forM {g : α → Except (Halt CompileError) Unit} {xs : List α}
    (each : ∀ a ∈ xs, PointsInto f outer (g a)) : PointsInto f outer (xs.forM g) := by
  induction xs with
  | nil => exact ok ()
  | cons a rest ih =>
    refine bind (each a List.mem_cons_self) fun _ => ih fun b member => ?_
    exact each b (List.mem_cons_of_mem a member)

end PointsInto

/-- What is not an import of one string is shown at the call, at an argument, or behind the dots
of one. -/
theorem importSpecifier_error {plain : Bool} {call : Tree} {stretch : Span}
    (h : importSpecifier plain call = .error stretch) :
    stretch = call.span ∨ ∃ a ∈ (call.part 1).parts, stretch = a.span ∨
      ∃ dots, a.shape = .spread dots ∧ ∃ p ∈ a.parts, stretch = p.span := by
  unfold importSpecifier at h
  -- the place is the same whether the callee is `import` or not
  split at h
  all_goals
    split at h
    · cases h
      exact Or.inl rfl
    · rename_i given
      rw [given]
      dsimp only at h
      split at h
      · cases h
      · cases h
        exact Or.inr ⟨_, List.mem_cons_self, Or.inl rfl⟩
    · rename_i given
      rw [given]
      cases h
      exact Or.inr ⟨_, List.mem_cons_self, Or.inr ⟨_, rfl, _, List.mem_cons_self, rfl⟩⟩
    · rename_i given
      rw [given]
      cases h
      exact Or.inr ⟨_, List.mem_cons_self, Or.inl rfl⟩

theorem inside_of_importSpecifier {plain : Bool} {call : Tree} {outer stretch : Span}
    (within : call.Within outer) (isCall : call.shape = .call)
    (h : importSpecifier plain call = .error stretch) : stretch.Inside outer := by
  rcases importSpecifier_error h with rfl | ⟨a, member, rfl | ⟨dots, spread, p, inside, rfl⟩⟩
  · exact within.inside
  · exact within.mark (Tree.mem_marks_call isCall member)
  · have argument : a.Within outer :=
      ⟨within.mark (Tree.mem_marks_call isCall member), (within.nested.part 1).of_mem member⟩
    exact argument.mark (Tree.mem_marks_spread spread inside)

theorem inside_of_functionExpr {value : Tree} {outer : Span} (within : value.Within outer)
    (form : value.shape = .functionExpr) :
    (if ((value.part 1).part 2).isPresent then ((value.part 1).part 2).span
      else (value.part 1).span).Inside outer := by
  split
  · rename_i present
    refine within.mark ?_
    simp only [Tree.marks, form]
    exact List.mem_cons_of_mem _ (List.mem_map_of_mem (by simp [present]))
  · refine within.mark ?_
    simp only [Tree.marks, form]
    exact List.mem_cons_self

/-- What shows that a value is no deferred import lies inside the value. -/
theorem inside_of_keyValue {span outer stretch : Span} {key value : Tree}
    (within : value.Within outer)
    (h : deferredImport (.node .keyValue span [key, value]) = .error stretch) :
    stretch.Inside outer := by
  unfold deferredImport at h
  dsimp only [value?] at h
  split at h
  · rename_i flags place parameters body others
    have marked : body.Within outer :=
      within.of_mem (List.mem_cons_of_mem _ List.mem_cons_self) (by simp [Tree.marks, Tree.part])
    split at h
    · rename_i isCall
      exact inside_of_importSpecifier marked isCall h
    · cases h
      exact marked.inside
  · cases h
    exact inside_of_functionExpr within rfl
  · cases h
    exact within.inside

/-- What shows that a property defers no import lies inside the property. -/
theorem inside_of_deferredImport {property : Tree} {outer stretch : Span}
    (within : property.Within outer) (h : deferredImport property = .error stretch) :
    stretch.Inside outer := by
  rcases keyValue_or_value?_eq_none property with ⟨span, key, value, rfl⟩ | bare
  · have inside : value.Within outer :=
      within.of_mem (List.mem_cons_of_mem key List.mem_cons_self) (by simp [Tree.marks])
    exact inside_of_keyValue inside h
  · unfold deferredImport at h
    rw [bare] at h
    cases h
    exact within.inside

namespace Setting

variable {s : Setting} {outer : Span}

theorem pointsInto_childrenAlone {property : Tree} (within : property.Within outer) :
    PointsInto s.file outer (s.childrenAlone property) := by
  unfold childrenAlone
  split
  · split
    · exact .ok ()
    · refine .error (within.mark ?_) rfl
      simp [Tree.marks]
  · exact .error within.inside rfl

/-- A module that cannot be read is a fault of the property that refers to it. -/
theorem pointsInto_namesOf {property : Tree} (within : property.Within outer) :
    PointsInto s.file outer (s.namesOf property) := by
  unfold namesOf
  split
  · rename_i stretch bad
    exact .error (inside_of_deferredImport within bad) rfl
  · refine .bind ?_ fun module => .bind ?_ fun found => .ok found.names
    · unfold Project.routeModule Project.absolute
      split
      · exact .ok _
      · exact .breakdown _
    · rcases s.project.extract module with (cause | message) | found
      · exact .error within.inside rfl
      · exact .breakdown message
      · exact .ok found

theorem pointsInto_received {array element : Tree} (within : array.Within outer)
    (isArray : array.shape = .arrayLit) (member : element ∈ array.parts) :
    PointsInto s.file outer (s.received array element) := by
  have inside : element.shape ≠ .absent → element.Within outer := fun present =>
    within.of_mem member (Tree.mem_marks_arrayLit isArray member present)
  unfold received
  split
  · rename_i object
    have property : ∀ p ∈ element.parts, p.Within outer := fun p own =>
      (inside (by simp [object])).of_mem own (Tree.mem_marks_objectLit object own)
    refine .bind (.forM fun p own => ?_) fun _ => ?_
    · exact pointsInto_childrenAlone (property p (List.mem_filter.mp own).1)
    · split
      · rename_i p found
        have refers := property p (List.mem_of_find?_eq_some found)
        exact .bind (pointsInto_namesOf refers) fun names => .ok (some names)
      · exact .ok none
  · rename_i dots spread
    refine .error ((inside (by simp [spread])).mark ?_) rfl
    simp [Tree.marks, spread]
  · exact .error within.inside rfl
  · rename_i present
    exact .error (inside present).inside rfl

end Setting

/-- Elements that are looked at in an array lie inside it. -/
theorem ElementAt.within {array inner element : Tree} {address : Address} {outer : Span}
    (h : ElementAt array address inner element) (within : array.Within outer)
    (isArray : array.shape = .arrayLit) :
    inner.Within outer ∧ inner.shape = .arrayLit ∧ element ∈ inner.parts := by
  induction h with
  | here there => exact ⟨within, isArray, List.mem_of_getElem? there⟩
  | @child array route key value inner element span i k address there object inside named form
      below ih =>
    refine ih ?_ form
    have route : route.Within outer :=
      within.of_mem (List.mem_of_getElem? there)
        (Tree.mem_marks_arrayLit isArray (List.mem_of_getElem? there) (by simp [object]))
    have own := route.of_mem (List.mem_of_getElem? inside)
      (Tree.mem_marks_objectLit object (List.mem_of_getElem? inside))
    exact own.of_mem (List.mem_cons_of_mem key List.mem_cons_self) (by simp [Tree.marks])

namespace Setting

/-- What is wrong with an array of routes is wrong with an element that is looked at in it. -/
theorem received_of_planArray {s : Setting} {array : Tree} {halt : Halt CompileError}
    (h : s.planArray array = .error halt) :
    ∃ address inner element, ElementAt array address inner element ∧
      s.received inner element = .error halt := by
  have told : errorOf? (s.planAlong (looksOf [] array)) = some halt := by
    rw [planAlong_looksOf, h]
    rfl
  rw [errorOf?_planAlong] at told
  obtain ⟨l, member, fault⟩ := List.exists_of_findSome?_eq_some told
  obtain ⟨address, inner, element, place, rfl⟩ := mem_looksOf_iff.mp member
  rw [fault?, outcome_empty] at fault
  exact ⟨address, inner, element, place, errorOf?_eq_some_iff.mp fault⟩

/-- The error of a call lies inside the call. -/
theorem CallFails.inside {s : Setting} {call : Tree} {outer : Span} {e : CompileError}
    (fails : s.CallFails call (.error e)) (within : call.Within outer)
    (isCall : call.shape = .call) :
    ∃ stretch : Span, stretch.Inside outer ∧ e.location? = some (s.file.location stretch) := by
  cases fails with
  | arity count => exact ⟨call.span, within.inside, rfl⟩
  | argument alone form => exact ⟨call.span, within.inside, rfl⟩
  | @routes array _ alone isArray rejected =>
    rw [(s.answers_plan array).run_fresh] at rejected
    obtain ⟨address, inner, element, place, ended⟩ := received_of_planArray rejected
    have member : array ∈ (call.part 1).parts := by simp [alone]
    have argument : array.Within outer :=
      ⟨within.mark (Tree.mem_marks_call isCall member), (within.nested.part 1).of_mem member⟩
    obtain ⟨inside, form, own⟩ := place.within argument isArray
    exact pointsInto_received inside form own e ended

end Setting

theorem read_eq_error {f : RoutesFile} {e : CompileError} (h : f.read = .error (.error e)) :
    ∃ failure, Module.ofText (.ofPath f.path) f.text = .error (.failure failure) ∧
      e = .malformed (f.location failure.span) failure.fault.message := by
  unfold RoutesFile.read at h
  rcases parsed : Module.ofText (.ofPath f.path) f.text with (failure | fault) | m
  · rw [parsed] at h
    cases h
    exact ⟨failure, rfl, rfl⟩
  · rw [parsed] at h
    cases h
  · rw [parsed] at h
    cases h

/-- Every error has a location, and that is a position of the routes file: where its syntax is at
fault, or a position inside the first call that fails. -/
theorem compile_error_located {f : RoutesFile} (spanned : f.Spanned) {p : Project} {withMap : Bool}
    {e : CompileError} (ended : (compile p f withMap).1 = .error (.error e)) :
    ∃ location position, e.location? = some location ∧ location.file = f.path.text ∧
      (location.line, location.column) = Source.lineColumn f.text position ∧
      1 ≤ position ∧ position ≤ f.text.length + 1 ∧
      ((∃ failure, Module.ofText (.ofPath f.path) f.text = .error (.failure failure) ∧
          position = failure.span.lo ∧ e = .malformed location failure.fault.message) ∨
        ∃ m address call, f.read = .ok m ∧
          (Setting.mk p f).FirstFailure m.tree address call (.error e) ∧
          call.span.lo ≤ position ∧ position ≤ call.span.hi) := by
  cases read : f.read with
  | error halt =>
    rw [compile_eq, read] at ended
    cases ended
    obtain ⟨failure, parsed, rfl⟩ := read_eq_error read
    obtain ⟨start, ordered, stop⟩ := spanned.failure failure parsed
    exact ⟨f.location failure.span, failure.span.lo, rfl, rfl, rfl, start,
      Nat.le_trans ordered stop, Or.inl ⟨failure, parsed, rfl, rfl⟩⟩
  | ok m =>
    obtain ⟨address, call, first⟩ := (compile_eq_error_iff read p withMap (.error e)).mp ended
    have inText := spanned.call m read address call first.bound.here first.bound.isCall
    have within : call.Within call.span :=
      ⟨⟨Nat.le_refl _, inText.2.1, Nat.le_refl _⟩, (spanned.nested m read).at first.bound.here⟩
    obtain ⟨stretch, inside, located⟩ := first.fails.inside within first.bound.isCall
    obtain ⟨start, ordered, stop⟩ := inside.trans inText
    exact ⟨f.location stretch, stretch.lo, located, rfl, rfl, start, Nat.le_trans ordered stop,
      Or.inr ⟨m, address, call, rfl, first, inside.1, Nat.le_trans inside.2.1 inside.2.2⟩⟩

/-- A routes file in which the children of a route are spread from elsewhere. -/
def spreadingFile : RoutesFile :=
  ⟨⟨"r.ts"⟩, ("import\x7bdefineRoutes as d\x7dfrom\"rr-routes\";" ++
    "d([\x7bchildren:[...x]\x7d])").toList⟩

/-- The error lies at the dots. -/
theorem compile_spreadingFile :
    spreadingFile.Spanned ∧
      (compile ⟨⟨[], []⟩, ⟨"/"⟩⟩ spreadingFile false).1 =
        .error (.error (.routeShape ⟨"r.ts", 0, 55⟩)) ∧
      ∃ position, 1 ≤ position ∧ position ≤ spreadingFile.text.length + 1 ∧
        (0, 55) = Source.lineColumn spreadingFile.text position := by
  have spanned : spreadingFile.Spanned := by
    decide +kernel
  have told : firstFault? ⟨⟨⟨[], []⟩, ⟨"/"⟩⟩, spreadingFile⟩ =
      some (.error (.routeShape ⟨"r.ts", 0, 55⟩)) := by
    decide +kernel
  obtain ⟨m, read, first⟩ := firstFault?_eq_some_iff.mp told
  have ended := (compile_eq_error_iff read ⟨⟨[], []⟩, ⟨"/"⟩⟩ false _).mpr first
  obtain ⟨_, position, located, _, place, start, stop, _⟩ := compile_error_located spanned ended
  cases located
  exact ⟨spanned, ended, position, start, stop, place⟩

end Routes

end RouteManifest
