import RouteManifest.Proofs.Failures
import RouteManifest.Proofs.Paths

/-!
# Routes files under other paths

What compiling comes to depends on the path of the routes file in three ways: by the dialect that
its name decides, by the modules that specifiers mean from there, and by the locations of errors,
which name it. A path that is relative to a project and the absolute path that it stands for agree
in the first two.
-/

namespace RouteManifest

open Script

namespace Path

/-- The directory of a file with a name. -/
def directory (p : Path) : Path := (p.parent?).getD ⟨""⟩

theorem components_directory {p : Path} {name : String} (h : p.fileName? = some name) :
    p.directory.components = p.components.dropLast := by
  obtain ⟨dir, parent, components⟩ := parent?_eq_some (numberedComponents_ne_nil_of_fileName h)
  rw [directory, parent]
  exact components

theorem isAbsolute_directory {p : Path} (relative : p.isAbsolute = false) {name : String}
    (h : p.fileName? = some name) : p.directory.isAbsolute = false := by
  rw [← Bool.not_eq_true, isAbsolute_iff_components, components_directory h]
  intro first
  have inside := List.mem_of_mem_dropLast (List.mem_of_mem_head? first)
  rw [components_eq, relative] at inside
  exact root_not_mem_stepsOf _ _ inside

end Path

namespace Project

/-- From the directory of a relative path and from that of its absolute form, the same steps lead
to the same place. -/
theorem resolve?_join_directory {root rel : Path} (normal : root.Normal)
    (relative : rel.isAbsolute = false) {name : String} (named : rel.fileName? = some name)
    (q : Path) :
    (rel.directory.join q).resolve? root = ((root.join rel).directory.join q).resolve? root := by
  cases onward : q.isAbsolute with
  | true => rw [Path.join_of_absolute _ onward, Path.join_of_absolute _ onward]
  | false =>
    obtain ⟨names, start, -⟩ := normal.components
    have some_text : root.text ≠ "" := Path.text_ne_empty_of_components (by rw [start]; simp)
    have below : (root.join rel).fileName? = some name := Path.fileName?_join some_text relative named
    have some_further : rel.further ≠ [] := by
      intro empty
      have last := Path.further_getLast? relative named
      rw [empty] at last
      cases last
    have above : (root.join rel).directory.components =
        root.components ++ rel.further.dropLast := by
      rw [Path.components_directory below, Path.components_join some_text relative,
        List.dropLast_append_of_ne_nil some_further]
    have beside : rel.directory.isAbsolute = false := Path.isAbsolute_directory relative named
    have near : (rel.directory.join q).isAbsolute = false :=
      (Path.isAbsolute_join _ onward).trans beside
    have far : ((root.join rel).directory.join q).isAbsolute = true := by
      rw [Path.isAbsolute_join _ onward, Path.isAbsolute_iff_components, above, start]
      rfl
    have some_above : (root.join rel).directory.text ≠ "" := by
      refine Path.text_ne_empty_of_components ?_
      rw [above, start]
      simp
    rw [Path.resolve?_of_relative normal near, Path.resolve?_of_absolute far]
    have taken : root.components.foldl Path.step [] = root.components.reverse := by
      rw [start, List.foldl_cons]
      simp [Path.step, Path.foldl_step_names]
    unfold Path.reached?
    rw [Path.foldl_step_join beside onward, Path.components_directory named,
      Path.foldl_step_parent relative named, Path.components_join some_above onward, above,
      List.foldl_append, List.foldl_append, taken]

/-- A specifier means the same module in a relative routes file and in the file at the absolute
path, however many `.` and `..` the relative path has. -/
theorem routeModule_join {ε : Type} {root rel : Path} (normal : root.Normal)
    (relative : rel.isAbsolute = false) {name : String} (named : rel.fileName? = some name)
    (specifier : String) :
    (routeModule root rel specifier : Except (Halt ε) Path) =
      routeModule root (root.join rel) specifier := by
  have same := resolve?_join_directory normal relative named ⟨specifier⟩
  unfold routeModule absolute
  rw [← Path.directory, ← Path.directory, same]

/-- In a normal directory every specifier means a module. -/
theorem routeModule_eq_ok {ε : Type} {root : Path} (normal : root.Normal) (importer : Path)
    (specifier : String) :
    ∃ module, (routeModule root importer specifier : Except (Halt ε) Path) = .ok module := by
  obtain ⟨module, found⟩ := Path.resolve?_of_normal normal (importer.directory.join ⟨specifier⟩)
  refine ⟨module, ?_⟩
  unfold routeModule absolute
  rw [← Path.directory, found]

end Project

/-! ## Errors under another path -/

/-- The same line and column of another file. -/
def Location.inFile (file : String) (l : Location) : Location := { l with file := file }

/-- The same error with its location in another file. What is said of route modules stays. -/
def CompileError.inFile (file : String) : CompileError → CompileError
  | .callArity l count => .callArity (l.inFile file) count
  | .callArgument l => .callArgument (l.inFile file)
  | .routeShape l => .routeShape (l.inFile file)
  | .childrenShape l fault => .childrenShape (l.inFile file) fault
  | .moduleShape l => .moduleShape (l.inFile file)
  | .extraction l specifier cause => .extraction (l.inFile file) specifier cause
  | .malformed l message => .malformed (l.inFile file) message
  | .internal summary causes => .internal summary causes

/-- An answer with its error in another file. -/
def inFile {α : Type} (file : String) (answer : Except (Halt CompileError) α) :
    Except (Halt CompileError) α :=
  answer.mapError (Halt.map (CompileError.inFile file))

theorem inFile_bind {α β : Type} (file : String) (x : Except (Halt CompileError) α)
    (f : α → Except (Halt CompileError) β) :
    inFile file (x >>= f) = inFile file x >>= fun a => inFile file (f a) :=
  mapError_bind x f _

theorem inFile_routeModule (file : String) (root importer : Path) (specifier : String) :
    inFile file (Project.routeModule root importer specifier) =
      Project.routeModule root importer specifier := by
  unfold Project.routeModule Project.absolute
  split
  · rfl
  · rfl

/-- Two routes files with the same text, in the same dialect, where every specifier means the same
module. -/
structure RoutesFile.Alike (root : Path) (f g : RoutesFile) : Prop where
  text : f.text = g.text
  dialect : Dialect.ofPath f.path = Dialect.ofPath g.path
  modules : ∀ specifier, (Project.routeModule root f.path specifier :
    Except (Halt CompileError) Path) = Project.routeModule root g.path specifier

namespace RoutesFile.Alike

variable {p : Project} {f g : RoutesFile}

theorem location (alike : Alike p.root f g) (span : Span) :
    g.location span = (f.location span).inFile g.path.text := by
  rw [RoutesFile.location, RoutesFile.location, alike.text]
  rfl

theorem read (alike : Alike p.root f g) : g.read = inFile g.path.text f.read := by
  unfold RoutesFile.read
  rw [alike.dialect, alike.text]
  cases Module.ofText (.ofPath g.path) g.text with
  | ok m => rfl
  | error stop =>
    cases stop with
    | failure f => rfl
    | breakdown fault => rfl

end RoutesFile.Alike

namespace Routes.Setting

variable {p : Project} {f g : RoutesFile}

theorem namesOf_of_alike (alike : f.Alike p.root g) (property : Tree) :
    (Setting.mk p g).namesOf property =
      inFile g.path.text ((Setting.mk p f).namesOf property) := by
  unfold namesOf
  cases deferredImport property with
  | error span =>
    dsimp only
    rw [alike.location]
    rfl
  | ok specifier =>
    dsimp only
    rw [inFile_bind, inFile_routeModule, alike.modules]
    refine bind_congr fun module => ?_
    rw [alike.location]
    cases p.extract module with
    | ok found => rfl
    | error halt => cases halt <;> rfl

theorem childrenAlone_of_alike (alike : f.Alike p.root g) (property : Tree) :
    (Setting.mk p g).childrenAlone property =
      inFile g.path.text ((Setting.mk p f).childrenAlone property) := by
  simp only [childrenAlone_eq, alike.location]
  cases childrenFault? property with
  | none => rfl
  | some fault => rfl

theorem received_of_alike (alike : f.Alike p.root g) (array element : Tree) :
    (Setting.mk p g).received array element =
      inFile g.path.text ((Setting.mk p f).received array element) := by
  unfold received
  cases element.shape with
  | objectLit =>
    have children : (Setting.mk p g).childrenAlone = fun property =>
        inFile g.path.text ((Setting.mk p f).childrenAlone property) :=
      funext (childrenAlone_of_alike alike)
    dsimp only
    rw [inFile_bind, children, inFile, mapError_forM]
    refine bind_congr fun _ => ?_
    cases element.parts.find? fun p => propertyName? p = some "module" with
    | none => rfl
    | some property =>
      dsimp only
      rw [inFile_bind, namesOf_of_alike alike]
      rfl
  | _ =>
    dsimp only
    rw [alike.location]
    rfl

theorem outcome_of_alike (alike : f.Alike p.root g) (l : Look) :
    (Setting.mk p g).outcome .empty l =
      inFile g.path.text ((Setting.mk p f).outcome .empty l) := by
  cases l with
  | element address array element =>
    rw [outcome_empty, outcome_empty, received_of_alike alike]
  | call address call =>
    rcases parts : (call.part 1).parts with _ | ⟨argument, _ | ⟨other, rest⟩⟩
    · simp only [outcome, parts, alike.location]
      rfl
    · simp only [outcome, parts, alike.location]
      by_cases array : isArray argument = true
      · simp only [if_pos array]
        rfl
      · simp only [if_neg array]
        rfl
    · simp only [outcome, parts, alike.location]
      rfl

theorem planAlong_of_alike (alike : f.Alike p.root g) (looks : List Look) :
    (Setting.mk p g).planAlong looks =
      inFile g.path.text ((Setting.mk p f).planAlong looks) := by
  induction looks with
  | nil => rfl
  | cons l rest ih =>
    rw [planAlong, planAlong, outcome_of_alike alike, ih, inFile_bind]
    refine bind_congr fun names => ?_
    rw [inFile_bind]
    rfl

theorem modulePlan_of_alike (alike : f.Alike p.root g) (module : Tree) :
    (Setting.mk p g).modulePlan module =
      inFile g.path.text ((Setting.mk p f).modulePlan module) := by
  rw [modulePlan, modulePlan, ← planAlong_looks, ← planAlong_looks, planAlong_of_alike alike]

end Routes.Setting

namespace Routes

/-- Files that are alike compile to the same text, or fail with the same error in either file. -/
theorem compile_of_alike {p : Project} {f g : RoutesFile} (alike : f.Alike p.root g) :
    (compile p g false).1 = inFile g.path.text (compile p f false).1 := by
  have print : g.print p.root false = f.print p.root false := by
    funext m
    simp only [RoutesFile.print, Bool.false_eq_true, if_false]
  rw [compile_eq, compile_eq, inFile_bind, alike.read, print]
  refine bind_congr fun m => ?_
  rw [inFile_bind, Setting.modulePlan_of_alike alike]
  refine bind_congr fun plan => ?_
  generalize f.print p.root false = print
  rfl

theorem alike_join {root rel : Path} (normal : root.Normal) (relative : rel.isAbsolute = false)
    {name : String} (named : rel.fileName? = some name) (source : String) :
    (RoutesFile.ofText rel source).Alike root (.ofText (root.join rel) source) where
  text := rfl
  dialect := by
    obtain ⟨names, start, -⟩ := normal.components
    have some_text : root.text ≠ "" := Path.text_ne_empty_of_components (by rw [start]; simp)
    have same : (root.join rel).fileName? = rel.fileName? :=
      (Path.fileName?_join some_text relative named).trans named.symm
    simp only [RoutesFile.ofText, Dialect.ofPath, Path.extension?, same]
  modules := Project.routeModule_join normal relative named

/-- In a project whose directory is a normal path, a relative path with a file name and the absolute
path that it stands for are as good as each other for a routes file, whatever `.` and `..` are in
the relative one: specifiers mean the same modules with the same files, and what comes of compiling
is the same text, or the same error but for the file of its location. -/
theorem compile_join (p : Project) (rel : Path) (source : String) (normal : p.root.Normal)
    (relative : rel.isAbsolute = false) (named : rel.fileName? ≠ none) :
    (compile p (.ofText (p.root.join rel) source) false).1 =
        (compile p (.ofText rel source) false).1.mapError
          (Halt.map (CompileError.inFile (p.root.join rel).text)) ∧
      ∀ specifier, ∃ module,
        (Project.routeModule p.root rel specifier : Except (Halt CompileError) Path) =
            .ok module ∧
          (Project.routeModule p.root (p.root.join rel) specifier :
            Except (Halt CompileError) Path) = .ok module := by
  obtain ⟨name, named⟩ := Option.ne_none_iff_exists'.mp named
  have alike := alike_join normal relative named source
  refine ⟨compile_of_alike alike, fun specifier => ?_⟩
  obtain ⟨module, found⟩ := Project.routeModule_eq_ok normal rel specifier
  exact ⟨module, found, (alike.modules specifier).symm.trans found⟩

/-- A path that leaves the project and another directory, and ends beside it. -/
def strayingPath : Path := ⟨"./../q/o/../r.ts"⟩

/-- The missing module is looked for beside the file, and named alike under both paths. -/
theorem compile_strayingPath :
    (Path.mk "/p").Normal ∧ strayingPath.isAbsolute = false ∧ strayingPath.fileName? ≠ none ∧
      (compile ⟨⟨[], []⟩, ⟨"/p"⟩⟩
        (.ofText ((Path.mk "/p").join strayingPath) (String.ofList deferringFile.text)) false).1 =
          .error (.error (.extraction ⟨"/p/./../q/o/../r.ts", 0, 45⟩ "./x" (.notFound ⟨"/q/x"⟩))) := by
  have normal : (Path.mk "/p").Normal := Or.inr (by decide)
  have relative : strayingPath.isAbsolute = false := by decide
  have named : strayingPath.fileName? ≠ none := by decide
  have told : firstFault?
      ⟨⟨⟨[], []⟩, ⟨"/p"⟩⟩, .ofText strayingPath (String.ofList deferringFile.text)⟩ =
      some (.error (.extraction ⟨"./../q/o/../r.ts", 0, 45⟩ "./x" (.notFound ⟨"/q/x"⟩))) := by
    decide +kernel
  have missing := compile_of_firstFault? told false
  have joined := (compile_join ⟨⟨[], []⟩, ⟨"/p"⟩⟩ strayingPath
    (String.ofList deferringFile.text) normal relative named).1
  have place : (Path.mk "/p").join strayingPath = ⟨"/p/./../q/o/../r.ts"⟩ := by decide +kernel
  refine ⟨normal, relative, named, ?_⟩
  rw [joined, missing, place]
  rfl

end Routes

end RouteManifest
