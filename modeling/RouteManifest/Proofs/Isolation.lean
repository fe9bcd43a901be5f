import Mathlib.Data.List.Find
import RouteManifest.Proofs.Elements

/-!
# Which files matter

Compiling depends on the files through the route modules alone, and on each of these through the
paths that the search for its file can try: whether they are files or directories, and what they
say. A module is sought from its absolute form; what its text refers to in turn is never sought.
Looks behind the first that fails ask for nothing.
-/

namespace RouteManifest

open Script

/-- Two file trees have the same to say of a path. -/
structure FileTree.AgreeAt (files files' : FileTree) (q : Path) : Prop where
  isFile : files.isFile q = files'.isFile q
  isDirectory : files.isDirectory q = files'.isDirectory q
  readText : files.readText q = files'.readText q

theorem FileTree.agreeAt_of_locate {files files' : FileTree} {q : Path}
    (same : files.locate q = files'.locate q) : files.AgreeAt files' q :=
  ⟨by simp only [isFile, same], by simp only [isDirectory, same], by simp only [readText, same]⟩

/-- The name that a path leads to first from the root. -/
def Path.firstName? (q : Path) : Option String :=
  match (pieces q.text.toList).map String.ofList with
  | "" :: name :: _ => if name = "" ∨ name = "." ∨ name = ".." then none else some name
  | _ => none

theorem Path.firstName?_eq_some {q : Path} {name : String} (h : q.firstName? = some name) :
    ∃ rest, (pieces q.text.toList).map String.ofList = "" :: name :: rest ∧
      name ≠ "" ∧ name ≠ "." ∧ name ≠ ".." := by
  unfold firstName? at h
  split at h
  · rename_i first rest steps
    obtain ⟨plain, same⟩ := Option.ite_none_left_eq_some.mp h
    cases same
    exact ⟨rest, steps, by simpa [not_or] using plain⟩
  · cases h

/-- If nothing or a file is right below the root under the first name of a path, this is all that
the path can lead to. -/
theorem FileTree.locate_eq_of_first {files files' : FileTree} {q : Path} {name : String}
    (absolute : q.isAbsolute = true) (first : q.firstName? = some name)
    (same : files.entryAt? [name] = files'.entryAt? [name])
    (flat : ∀ entry, files.entryAt? [name] = some entry → ∃ bytes, entry = .file bytes) :
    files.locate q = files'.locate q := by
  obtain ⟨rest, steps, plain⟩ := Path.firstName?_eq_some first
  have onward : ∀ t : FileTree, t.entryAt? [name] = files.entryAt? [name] →
      t.walk maxLinks [] ("" :: name :: rest) =
        match files.entryAt? [name] with
        | none => .error .notFound
        | some entry => if rest = [] then .ok ([name], entry) else .error .notDirectory := by
    intro t own
    have root : t.entryAt? [] = some .directory := rfl
    rw [maxLinks, walk, walkFrom, root]
    simp only [true_or, if_true]
    rw [walkFrom, root]
    simp only [plain, or_self, if_false, List.nil_append, own]
    cases told : files.entryAt? [name] with
    | none => rfl
    | some entry =>
      obtain ⟨bytes, rfl⟩ := flat entry told
      cases rest with
      | nil => simp [walkFrom, own, told]
      | cons step rest => simp [walkFrom, own, told]
  simp only [locate, steps, absolute, if_true, onward files rfl, onward files' same.symm]

namespace Project

/-- Two file trees agree on every path that the file of a module can have. -/
def AgreeOn (files files' : FileTree) (root module : Path) : Prop :=
  ∀ base, module.resolve? root = some base → ∀ q ∈ candidates base, files.AgreeAt files' q

/-- The file of a module is one of the candidates. -/
theorem mem_candidates_of_fileAt? {files : FileTree} {base q : Path}
    (h : fileAt? files base = some q) : q ∈ candidates base := by
  simp only [fileAt?] at h
  simp only [candidates, List.cons_append, List.mem_cons, List.mem_append]
  by_cases self : files.isFile base = true
  · rw [if_pos self] at h
    exact Or.inl (Option.some.inj h).symm
  · rw [if_neg self, Option.or_eq_some_iff, Option.or_eq_some_iff] at h
    rcases h with first | ⟨_, second | ⟨_, third⟩⟩
    · exact Or.inr (Or.inl (Or.inl (List.mem_of_find?_eq_some first)))
    · exact Or.inr (Or.inl (Or.inr (List.mem_of_find?_eq_some second)))
    · rw [Option.ite_none_right_eq_some] at third
      exact Or.inr (Or.inr (List.mem_of_find?_eq_some third.2))

theorem fileAt?_congr {files files' : FileTree} {base : Path}
    (agree : ∀ q ∈ candidates base, files.AgreeAt files' q) :
    fileAt? files base = fileAt? files' base := by
  have self := agree base List.mem_cons_self
  have among (xs : List Path) (inside : ∀ q ∈ xs, q ∈ candidates base) :
      xs.find? files.isFile = xs.find? files'.isFile :=
    List.find?_congr fun q member => (agree q (inside q member)).isFile
  have named := among (extended base moduleExtensions) fun q member => by
    simp [candidates, member]
  have typed := among (typedSources base) fun q member => by simp [candidates, member]
  have index := among (indexFiles base) fun q member => by simp [candidates, member]
  simp only [fileAt?, withExtension?, self.isFile, self.isDirectory, named, typed, index]

/-- What a module says depends on the candidates for its file alone. -/
theorem extract_congr {files files' : FileTree} {root module : Path}
    (agree : AgreeOn files files' root module) :
    (Project.mk files root).extract module = (Project.mk files' root).extract module := by
  have place : ((Project.mk files root).moduleFile module : Except (Halt ExtractError) _) =
      (Project.mk files' root).moduleFile module := by
    unfold moduleFile absolute
    cases found : module.resolve? root with
    | none => rfl
    | some base => exact congrArg Except.ok (fileAt?_congr (agree base found))
  unfold extract
  rw [← place]
  cases told : ((Project.mk files root).moduleFile module : Except (Halt ExtractError) _) with
  | error halt => rfl
  | ok file =>
    cases file with
    | none => rfl
    | some file =>
      have same : files.readText file = files'.readText file := by
        unfold moduleFile absolute at told
        cases found : module.resolve? root with
        | none =>
          rw [found] at told
          cases told
        | some base =>
          rw [found] at told
          have here : fileAt? files base = some file := Except.ok.inj told
          exact (agree base found file (mem_candidates_of_fileAt? here)).readText
      simp only [same]

end Project

namespace Routes

namespace Setting

variable {files files' : FileTree} {root : Path} {f : RoutesFile}

theorem namesOf_congr {property : Tree}
    (same : ∀ module, (Setting.mk ⟨files, root⟩ f).moduleOf? property = some module →
      (Project.mk files root).extract module = (Project.mk files' root).extract module) :
    (Setting.mk ⟨files, root⟩ f).namesOf property =
      (Setting.mk ⟨files', root⟩ f).namesOf property := by
  unfold namesOf
  unfold moduleOf? at same
  cases deferred : deferredImport property with
  | error span => rfl
  | ok specifier =>
    rw [deferred] at same
    dsimp only at same ⊢
    cases told : (Project.routeModule root f.path specifier : Except (Halt CompileError) Path) with
    | error halt => rfl
    | ok module =>
      rw [told] at same
      change ((Project.mk files root).extract module).mapError _ >>= _ =
        ((Project.mk files' root).extract module).mapError _ >>= _
      rw [same module rfl]

/-- What a look comes to depends on the module that it needs alone. -/
theorem outcome_empty_congr {l : Look}
    (same : ∀ module, (Setting.mk ⟨files, root⟩ f).needed? l = some module →
      (Project.mk files root).extract module = (Project.mk files' root).extract module) :
    (Setting.mk ⟨files, root⟩ f).outcome .empty l =
      (Setting.mk ⟨files', root⟩ f).outcome .empty l := by
  cases l with
  | call address call => rfl
  | element address array element =>
    rw [outcome_empty, outcome_empty]
    unfold received
    split
    · rename_i object
      rw [needed?, if_pos (isObject_iff.mpr object), moduleOfRoute?] at same
      refine bind_congr fun _ => ?_
      cases found : element.parts.find? fun p => propertyName? p = some "module" with
      | none => rfl
      | some property =>
        rw [found] at same
        dsimp only
        rw [namesOf_congr same]
    all_goals rfl

/-- Plans agree if the files agree on what the looks up to the first that fails ask for. -/
theorem modulePlan_congr {module : Tree}
    (agree : ∀ l ∈ (Setting.mk ⟨files, root⟩ f).untilFault (looks (calls module)), ∀ path,
      (Setting.mk ⟨files, root⟩ f).needed? l = some path →
        Project.AgreeOn files files' root path) :
    (Setting.mk ⟨files, root⟩ f).modulePlan module =
      (Setting.mk ⟨files', root⟩ f).modulePlan module := by
  rw [modulePlan, modulePlan, ← planAlong_looks, ← planAlong_looks]
  refine planAlong_congr fun l member => outcome_empty_congr fun path needed => ?_
  exact Project.extract_congr (agree l member path needed)

end Setting

/-- What compiling comes to, told by the plan for the module. -/
theorem compile_eq (p : Project) (f : RoutesFile) (withMap : Bool) :
    (compile p f withMap).1 = (do
      let m ← f.read
      let plan ← (Setting.mk p f).modulePlan m.tree
      return f.print p.root withMap { m with tree := plan.carryOut m.tree }) := by
  have ran : (compile p f withMap).1 =
      ((Setting.mk p f).compiledModule.run.run Session.fresh).1.map (f.print p.root withMap) := rfl
  rw [ran, (Setting.mk p f).answers_compiledModule.run_fresh]
  cases f.read with
  | error halt => rfl
  | ok m =>
    change Except.map _ (do
      let plan ← (Setting.mk p f).modulePlan m.tree
      return { m with tree := plan.carryOut m.tree }) = (do
      let plan ← (Setting.mk p f).modulePlan m.tree
      return f.print p.root withMap { m with tree := plan.carryOut m.tree })
    cases (Setting.mk p f).modulePlan m.tree with
    | error halt => rfl
    | ok plan => rfl

/-- What compiling comes to does not depend on files that no look up to the first that fails asks
for. -/
theorem compile_congr {files files' : FileTree} {root : Path} {f : RoutesFile} {withMap : Bool}
    (agree : ∀ m, f.read = .ok m →
      ∀ l ∈ (Setting.mk ⟨files, root⟩ f).untilFault (looks (calls m.tree)), ∀ path,
        (Setting.mk ⟨files, root⟩ f).needed? l = some path →
          Project.AgreeOn files files' root path) :
    (compile ⟨files, root⟩ f withMap).1 = (compile ⟨files', root⟩ f withMap).1 := by
  rw [compile_eq, compile_eq]
  refine bind_congr_ok fun m read => ?_
  rw [Setting.modulePlan_congr (agree m read)]

theorem Setting.mem_of_mem_untilFault {s : Setting} {l : Look} {looks : List Look}
    (h : l ∈ s.untilFault looks) : l ∈ looks := by
  induction looks with
  | nil => cases h
  | cons first rest ih =>
    rw [untilFault] at h
    split at h
    · rcases List.mem_cons.mp h with rfl | inside
      · exact List.mem_cons_self
      · exact List.mem_cons_of_mem first (ih inside)
    · rw [List.mem_singleton.mp h]
      exact List.mem_cons_self

/-- Two projects with the same root compile a routes file alike, result or error, if their files
agree on the candidates for the route modules of the file. -/
theorem compile_eq_of_agreeOn_candidates (files files' : FileTree) (root : Path) (f : RoutesFile)
    (withMap : Bool)
    (agree : ∀ m, f.read = .ok m → ∀ address route path, IsRoute m.tree address route →
      (Setting.mk ⟨files, root⟩ f).RefersTo route.parts path →
        Project.AgreeOn files files' root path) :
    (compile ⟨files, root⟩ f withMap).1 = (compile ⟨files', root⟩ f withMap).1 := by
  refine compile_congr fun m read l member path needed => ?_
  obtain ⟨address, route, place, refers⟩ :=
    needed_iff.mp ⟨l, Setting.mem_of_mem_untilFault member, needed⟩
  exact agree m read address route path place refers

/-- A routes file with one route, which refers to a module beside it. -/
def deferringFile : RoutesFile :=
  ⟨⟨"r.ts"⟩, ("import\x7bdefineRoutes as d\x7dfrom\"rr-routes\";" ++
    "d([\x7bmodule:()=>import(\"./x\")\x7d])").toList⟩

/-- Files of which the one passes on whatever the other exports. -/
def passingFiles (other : String) : FileTree :=
  ⟨[(["x.ts"], .file "export*from\"./y\";export const a=1".toUTF8),
    (["y.ts"], .file other.toUTF8)], []⟩

/-- No candidate for the file of `x` is the file of `y`, or lies below a directory. -/
theorem agreeOn_passingFiles (one other : String) :
    Project.AgreeOn (passingFiles one) (passingFiles other) ⟨"/"⟩ ⟨"/x"⟩ := by
  intro base found
  have here : (Path.mk "/x").resolve? ⟨"/"⟩ = some ⟨"/x"⟩ := by decide +kernel
  cases here.symm.trans found
  have firsts : ((Project.candidates ⟨"/x"⟩).all fun q =>
      q.isAbsolute && q.firstName?.any (· ≠ "y.ts")) = true := by
    decide +kernel
  intro q member
  have told := List.all_eq_true.mp firsts q member
  rw [Bool.and_eq_true, Option.any_eq_true] at told
  obtain ⟨absolute, name, first, apart⟩ := told
  have entry : ∀ text, (passingFiles text).entryAt? [name] =
      if name = "x.ts" then some (.file "export*from\"./y\";export const a=1".toUTF8)
      else none := by
    intro text
    have same : (name == "y.ts") = false := beq_false_of_ne (of_decide_eq_true apart)
    by_cases own : name = "x.ts"
    · simp [FileTree.entryAt?, passingFiles, own]
    · simp [FileTree.entryAt?, passingFiles, own, same, List.lookup_cons, beq_false_of_ne own]
  refine FileTree.agreeAt_of_locate (FileTree.locate_eq_of_first absolute first ?_ ?_)
  · rw [entry, entry]
  · intro e told
    rw [entry, Option.ite_none_right_eq_some] at told
    exact ⟨_, (Option.some.inj told.2).symm⟩

theorem agreeOn_of_modulesOf {s : Setting} {files' : FileTree}
    (agree : ∀ path ∈ modulesOf s,
      Project.AgreeOn s.project.files files' s.project.root path) :
    ∀ m, s.file.read = .ok m → ∀ address route path, IsRoute m.tree address route →
      s.RefersTo route.parts path → Project.AgreeOn s.project.files files' s.project.root path :=
  fun _ read address route path place refers =>
    agree path ((mem_modulesOf_iff read).mpr ⟨address, route, place, refers⟩)

def passingSetting : Setting := ⟨⟨passingFiles "export const b=2", ⟨"/"⟩⟩, deferringFile⟩

/-- The file that is passed on may be no module at all. -/
theorem compile_passingFiles :
    modulesOf passingSetting = [⟨"/x"⟩] ∧
      (∀ m, deferringFile.read = .ok m → ∀ address route path, IsRoute m.tree address route →
        passingSetting.RefersTo route.parts path →
          Project.AgreeOn passingSetting.project.files (passingFiles "\x7d") ⟨"/"⟩ path) ∧
      (compile passingSetting.project deferringFile true).1 =
        (compile ⟨passingFiles "\x7d", ⟨"/"⟩⟩ deferringFile true).1 := by
  have needs : modulesOf passingSetting = [⟨"/x"⟩] := by decide +kernel
  have agree : ∀ path ∈ modulesOf passingSetting,
      Project.AgreeOn passingSetting.project.files (passingFiles "\x7d") ⟨"/"⟩ path := by
    intro path member
    rw [needs, List.mem_singleton] at member
    rw [member]
    exact agreeOn_passingFiles _ _
  have agree := agreeOn_of_modulesOf agree
  exact ⟨needs, agree, compile_eq_of_agreeOn_candidates _ _ _ _ _ agree⟩

end Routes

end RouteManifest
