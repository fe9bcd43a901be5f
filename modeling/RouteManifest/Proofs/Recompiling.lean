import RouteManifest.Proofs.Isolation
import RouteManifest.Proofs.Persistence
import RouteManifest.Proofs.Rescoping

/-!
# Compiling what was compiled

What a compiled text says is the module with export names for its routes. If it is read as that
module, compiling it again succeeds, and each route that refers to a module gets the property that it
has got before once more. The step is from one time to the next; the run is by the number of times.
What is carried along is that the module, before its names are resolved, is the first one with as
many copies of each property as there were times.
-/

namespace RouteManifest.Routes

open Script Scope

/-- The file that is there when a file has been compiled so many times, each time from the text of
the time before. -/
def recompiled (p : Project) (withMap : Bool) (f : RoutesFile) :
    Nat → Except (Halt CompileError) RoutesFile
  | 0 => .ok f
  | times + 1 => do
    let g ← recompiled p withMap f times
    return .ofText g.path (← (compile p g withMap).1)

/-- The text of the module of a file with the properties that are due to its routes. -/
def printed (p : Project) (withMap : Bool) (g : RoutesFile) (m : Module)
    (received : Address → Option (List String)) : String :=
  g.print p.root withMap ⟨(resolve m.tree).extended (exportsProperties received), m.comments⟩

/-- What is printed is read as what it was printed for, up to positions. A text does not say what
names mean, so that the modules are compared as they are before their names are resolved. -/
def ReadsBack (p : Project) (withMap : Bool) (g : RoutesFile) : Prop :=
  ∀ m received, Module.ofText (.ofPath g.path) g.text = .ok m →
    (Setting.mk p g).Due (resolve m.tree) received →
      ∃ m', Module.ofText (.ofPath g.path)
          (RoutesFile.ofText g.path (printed p withMap g m received)).text = .ok m' ∧
        m'.tree.placeless = (m.tree.extended (exportsProperties received)).placeless

theorem read_eq_ok_iff {f : RoutesFile} {m : Module} :
    f.read = .ok m ↔ ∃ own, Module.ofText (.ofPath f.path) f.text = .ok own ∧
      m = ⟨resolve own.tree, own.comments⟩ := by
  unfold RoutesFile.read
  cases Module.ofText (.ofPath f.path) f.text with
  | error stop =>
    constructor
    · exact fun read => nomatch read
    · exact fun ⟨_, parsed, _⟩ => nomatch parsed
  | ok own =>
    constructor
    · intro read
      cases read
      exact ⟨own, rfl, rfl⟩
    · rintro ⟨_, parsed, rfl⟩
      cases parsed
      rfl

theorem copies_add_exportsProperties (times : Nat) (received : Address → Option (List String)) :
    (fun address => copies times received address ++ exportsProperties received address) =
      copies (times + 1) received := by
  funext address
  exact (copies_succ times received address).symm

/-- A file whose module is a given one with so many copies of what is due to it. -/
structure IsStage (f : RoutesFile) (t : Tree) (received : Address → Option (List String))
    (times : Nat) (g : RoutesFile) (m : Module) : Prop where
  path : g.path = f.path
  parsed : Module.ofText (.ofPath g.path) g.text = .ok m
  grown : Tree.Grown (copies times received) t m.tree

section

variable {p : Project} {f : RoutesFile} {t : Tree} {received : Address → Option (List String)}

/-- What has grown by copies may grow by one copy more. -/
theorem grown_once_more {u : Tree} {times : Nat} (keeps : KeepsToElements (copies 1 received) t)
    (grown : Tree.Grown (copies times received) t u) :
    Tree.Grown (copies (times + 1) received) t (u.extended (exportsProperties received)) := by
  rw [← copies_add_exportsProperties]
  refine grown.extended fun address added => ?_
  have one : copies 1 received address = exportsProperties received address := by
    rw [copies_succ, copies_zero]
    rfl
  obtain ⟨_, found, _⟩ := keeps.objects address (one ▸ added)
  simp [found]

/-- If every call is accepted, there is a compiled text: it says what is due. -/
theorem compile_of_due {g : RoutesFile} {m : Module}
    (parsed : Module.ofText (.ofPath g.path) g.text = .ok m)
    (accepted : ∀ address call, BoundCall (resolve m.tree) address call →
      (Setting.mk p g).AcceptsCall call)
    (due : (Setting.mk p g).Due (resolve m.tree) received) (withMap : Bool) :
    (compile p g withMap).1 = .ok (printed p withMap g m received) := by
  obtain ⟨plan, planned⟩ := ((Setting.mk p g).modulePlan_ok_iff _).mpr accepted
  have read := read_eq_ok_iff.mpr ⟨m, parsed, rfl⟩
  rw [compile_eq, printed, (Setting.due_iff planned received).mp due,
    ← Setting.carryOut_modulePlan planned]
  exact bind_eq_ok_iff.mpr ⟨_, read, bind_eq_ok_iff.mpr ⟨plan, planned, rfl⟩⟩

/-- One time: what is due to the first module is due at every stage, and compiling adds it. -/
theorem IsStage.compiles (due : (Setting.mk p f).Due (resolve t) received)
    (accepted : ∀ address call, BoundCall (resolve t) address call →
      (Setting.mk p f).AcceptsCall call)
    {times : Nat} {g : RoutesFile} {m : Module} (stage : IsStage f t received times g m)
    (withMap : Bool) :
    (Setting.mk p g).Due (resolve m.tree) received ∧
      (compile p g withMap).1 = .ok (printed p withMap g m received) ∧
      Tree.Grown (copies (times + 1) received) (resolve t)
        ((resolve m.tree).extended (exportsProperties received)) := by
  have keeps := due.keepsToElements times
  have grown := grown_resolve ⟨keeps.of_resolve, stage.grown⟩
  have equipped : Equipped (copies times received) (resolve t) (resolve m.tree) := ⟨keeps, grown⟩
  have reads : ∀ specifier names, (Setting.mk p f).Reads specifier names →
      (Setting.mk p g).Reads specifier names := by
    rintro specifier names ⟨module, file, place, told⟩
    refine ⟨module, file, ?_, told⟩
    exact (congrArg (Project.routeModule p.root · specifier) stage.path).trans place
  have accepted' : ∀ address call', BoundCall (resolve m.tree) address call' →
      (Setting.mk p g).AcceptsCall call' := by
    intro address call' bound'
    obtain ⟨call, bound, part⟩ := bound'.of_equipped equipped
    exact (accepted address call bound).equipped reads part bound.isCall
  have due' := due.equipped reads equipped
  exact ⟨due', compile_of_due stage.parsed accepted' due' withMap,
    grown_once_more (due.keepsToElements 1) grown⟩

/-- Every time: from the file that is there after so many times to the next. -/
theorem exists_isStage (due : (Setting.mk p f).Due (resolve t) received)
    (accepted : ∀ address call, BoundCall (resolve t) address call →
      (Setting.mk p f).AcceptsCall call)
    {m : Module} (parsed : Module.ofText (.ofPath f.path) f.text = .ok m) (own : m.tree = t)
    {withMap : Bool} {times : Nat}
    (back : ∀ k < times, ∀ g, recompiled p withMap f k = .ok g → ReadsBack p withMap g) :
    ∃ g m, recompiled p withMap f times = .ok g ∧ IsStage f t received times g m := by
  induction times with
  | zero =>
    refine ⟨f, m, rfl, rfl, parsed, ?_⟩
    rw [copies_zero, own]
    exact .of_placeless rfl
  | succ times ih =>
    obtain ⟨g, m, reached, stage⟩ := ih fun k less => back k (by omega)
    obtain ⟨due', compiled, _⟩ := stage.compiles due accepted withMap
    obtain ⟨m', parsed', same⟩ :=
      back times (by omega) g reached m received stage.parsed due'
    refine ⟨_, m', bind_eq_ok_iff.mpr ⟨g, reached, bind_eq_ok_iff.mpr ⟨_, compiled, rfl⟩⟩,
      stage.path, parsed', ?_⟩
    rw [Tree.Grown, same]
    exact grown_once_more (due.keepsToElements 1).of_resolve stage.grown

end

/-- Transforming and compiling again are stable. An array of routes that is accepted is accepted
again however often it has been transformed, whatever is forgotten in between: each route with a
module has one property for its names from each time behind all that it had, and nothing else has
changed. The same holds of compiling if each printed text is read as what it was printed for: the
text is compiled again, and each route with a module has one property more. -/
theorem transformed_and_compiled_again :
    (∀ (s : Setting) (array once : Tree), array.shape = .arrayLit →
      ((s.transform array).run.run Session.fresh).1 = .ok once →
        ∃ received, s.DueIn array received ∧ ∀ choices : List Bool,
          ((s.transformAll choices array).run.run Session.fresh).1 =
            .ok (array.extended (copies choices.length received))) ∧
    ∀ (p : Project) (f : RoutesFile) (withMap : Bool) (text : String),
      (compile p f withMap).1 = .ok text →
        ∃ m received, f.read = .ok m ∧ (Setting.mk p f).Due m.tree received ∧ ∀ times,
          (∀ k < times, ∀ g, recompiled p withMap f k = .ok g → ReadsBack p withMap g) →
            ∃ g m', recompiled p withMap f times = .ok g ∧ g.path = f.path ∧ g.read = .ok m' ∧
              (compile p g withMap).1 = .ok (g.print p.root withMap
                { m' with tree := m'.tree.extended (exportsProperties received) }) ∧
              (m'.tree.extended (exportsProperties received)).placeless =
                (m.tree.extended (copies (times + 1) received)).placeless := by
  constructor
  · intro s array once isArray transformed
    rw [s.transform_fresh] at transformed
    obtain ⟨plan, planned, _⟩ := bind_eq_ok_iff.mp transformed
    have wellFormed := (s.planArray_ok_iff array).mp ⟨plan, planned⟩
    have due := (Setting.dueIn_iff planned).mpr rfl
    refine ⟨plan.namesAt, due, fun choices => ?_⟩
    have all := Setting.answers_transformAll due wellFormed isArray choices 0
    rw [copies_zero, Tree.extended_nothing, Nat.zero_add] at all
    exact all.run_fresh
  · intro p f withMap text compiled
    rw [compile_eq] at compiled
    obtain ⟨_, read, compiled⟩ := bind_eq_ok_iff.mp compiled
    obtain ⟨plan, planned, _⟩ := bind_eq_ok_iff.mp compiled
    obtain ⟨own, parsed, rfl⟩ := read_eq_ok_iff.mp read
    have accepted := ((Setting.mk p f).modulePlan_ok_iff _).mp ⟨plan, planned⟩
    have due := (Setting.due_iff planned _).mpr rfl
    refine ⟨_, plan.namesAt, read, due, fun times back => ?_⟩
    obtain ⟨g, m, reached, stage⟩ := exists_isStage due accepted parsed rfl back
    obtain ⟨_, compiled', grown⟩ := stage.compiles due accepted withMap
    exact ⟨g, ⟨resolve m.tree, m.comments⟩, reached, stage.path,
      read_eq_ok_iff.mpr ⟨m, stage.parsed, rfl⟩, compiled', grown⟩

/-- Whether what is printed for a file is read as what it was printed for. -/
def readsBack (p : Project) (withMap : Bool) (g : RoutesFile) : Bool :=
  match Module.ofText (.ofPath g.path) g.text with
  | .error _ => false
  | .ok m =>
    match (Setting.mk p g).modulePlan (resolve m.tree) with
    | .error _ => false
    | .ok plan =>
      match Module.ofText (.ofPath g.path)
          (RoutesFile.ofText g.path (printed p withMap g m plan.namesAt)).text with
      | .error _ => false
      | .ok m' => m'.tree.placeless = (m.tree.extended (exportsProperties plan.namesAt)).placeless

theorem readsBack_of {p : Project} {withMap : Bool} {g : RoutesFile}
    (told : readsBack p withMap g = true) :
    ReadsBack p withMap g ∧ ∃ text, (compile p g withMap).1 = .ok text := by
  unfold readsBack at told
  split at told
  · cases told
  · rename_i m parsed
    split at told
    · cases told
    · rename_i plan planned
      split at told
      · cases told
      · rename_i m' reparsed
        have read := read_eq_ok_iff.mpr ⟨m, parsed, rfl⟩
        constructor
        · intro own received parsed' due
          cases parsed.symm.trans parsed'
          rw [(Setting.due_iff planned received).mp due]
          exact ⟨m', reparsed, of_decide_eq_true told⟩
        · rw [compile_eq]
          exact ⟨_, bind_eq_ok_iff.mpr ⟨_, read, bind_eq_ok_iff.mpr ⟨plan, planned, rfl⟩⟩⟩

/-- Routes that refer to a module beside the file, one of them a child of the other. -/
def deferringRoutes : Tree :=
  let leaf (shape : Shape) : Tree := .node shape .nowhere []
  let property (name : String) (value : Tree) : Tree :=
    .node .keyValue .nowhere [leaf (.ident name 0 false), value]
  let call : Tree :=
    .node .call .nowhere [leaf .importCallee, .list [leaf (.stringLit "./x" none)], .absent]
  let deferred : Tree := .node (.arrow ⟨false, false⟩) .nowhere [.list [], call, .absent, .absent]
  let child : Tree := .node .objectLit .nowhere [property "module" deferred]
  .node .arrayLit .nowhere [.node .objectLit .nowhere
    [property "module" deferred, property "children" (.node .arrayLit .nowhere [child])]]

/-- The routes three times, with one cache for the first two, and a file twice. -/
theorem deferringFile_compiled_again :
    (∃ received, passingSetting.DueIn deferringRoutes received ∧
      ((passingSetting.transformAll [false, false, true] deferringRoutes).run.run Session.fresh).1 =
        .ok (deferringRoutes.extended (copies 3 received))) ∧
    ∃ m received g m' text, deferringFile.read = .ok m ∧ passingSetting.Due m.tree received ∧
      recompiled passingSetting.project false deferringFile 1 = .ok g ∧ g.read = .ok m' ∧
      (compile passingSetting.project g false).1 = .ok text ∧
      (m'.tree.extended (exportsProperties received)).placeless =
        (m.tree.extended (copies 2 received)).placeless := by
  constructor
  · have isSome : (passingSetting.planArray deferringRoutes).toOption.isSome = true := by
      decide +kernel
    cases planned : passingSetting.planArray deferringRoutes with
    | error halt =>
      rw [planned] at isSome
      cases isSome
    | ok plan =>
      have once : ((passingSetting.transform deferringRoutes).run.run Session.fresh).1 =
          .ok (plan.carryOut deferringRoutes) := by
        rw [passingSetting.transform_fresh, planned]
        rfl
      obtain ⟨received, due, all⟩ :=
        transformed_and_compiled_again.1 passingSetting deferringRoutes _ rfl once
      exact ⟨received, due, all [false, false, true]⟩
  · have told : readsBack passingSetting.project false deferringFile = true := by decide +kernel
    obtain ⟨back, text, compiled⟩ := readsBack_of told
    obtain ⟨m, received, read, due, all⟩ := transformed_and_compiled_again.2 _ _ _ _ compiled
    obtain ⟨g, m', reached, _, read', compiled', same⟩ := all 1 fun k less g reached => by
      have first : k = 0 := by omega
      subst first
      cases reached
      exact back
    exact ⟨m, received, g, m', _, read, due, reached, read', compiled', same⟩

end RouteManifest.Routes
