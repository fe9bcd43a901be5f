import RouteManifest.Config
import RouteManifest.Proofs.Records
import RouteManifest.Proofs.Searching

/-!
# The discovery of the routes file

What the package of a project says about its routes file is told by how the package is spelled. If
it names a file, that is the routes file, as if it had been given; otherwise it is the first of the
usual files that is there. Either way its path is absolute and normal.
-/

namespace RouteManifest.Config

open Json Json.Spelling

/-- What the section of a package says about the routes file. -/
def Section (cs : List Char) (routes? : Option String) : Prop :=
  ∃ o, Record "routes" false TextOrNull cs o ∧ o.join = routes?

/-- What the text of a package says about the routes file. -/
def Says : (text : String) → (routes? : Option String) → Prop :=
  Document fun cs routes? => ∃ o, Record "rr-bundler" true Section cs o ∧ o.join = routes?

/-- The package of a project is a text. -/
def Describes (p : Project) (text : String) : Prop :=
  ∃ place, p.files.locate (packageFile p.root) = .ok (place, .file text.toUTF8)

/-- The usual routes files of a project, the first before all others. -/
def usualFiles (root : Path) : List Path :=
  ["tsx", "ts", "jsx", "js"].map fun e => (root.join ⟨"app"⟩).join ⟨"routes." ++ e⟩

/-- The setting is read as the package is spelled. -/
theorem read_routesSetting_iff {text : String} {routes? : Option String} :
    Json.read routesSetting text = .ok routes? ↔ Says text routes? := by
  have inner := ((Read.reads_text? "path string").record "BundlerSection" "routes" false).map
    Option.join
  exact Read.read_eq_ok_iff ((inner.record "PackageJson" "rr-bundler" true).map Option.join)

/-- No text says two things. -/
theorem Says.unique {text : String} {r r' : Option String} (first : Says text r)
    (second : Says text r') : r = r' := by
  have same := (read_routesSetting_iff.mpr first).symm.trans (read_routesSetting_iff.mpr second)
  exact Except.ok.inj same

/-- The usual files are the file without its extension with each of the extensions behind it, and
their paths are normal. -/
theorem extended_usualRoutes {root : Path} (normal : root.Normal) :
    Project.extended (usualRoutes root) routesExtensions = usualFiles root ∧
      ∀ q ∈ usualFiles root, q.Normal := by
  obtain ⟨names, proper, rfl⟩ := Path.normal_iff.mp normal
  have app : Path.IsName "app" := by decide
  have routes : Path.IsName "routes" := by decide
  have inside : ∀ s ∈ names ++ ["app"], Path.IsName s := Path.proper_concat proper app
  have placed (e : String) (member : e ∈ routesExtensions) :
      ((Path.ofPlace names).join ⟨"app"⟩).join ⟨"routes." ++ e⟩ =
        .ofPlace (names ++ ["app"] ++ ["routes." ++ e]) ∧ Path.IsName ("routes." ++ e) := by
    have name : Path.IsName ("routes." ++ e) := by
      revert e
      decide
    exact ⟨by rw [Path.join_ofPlace proper app, Path.join_ofPlace inside name], name⟩
  constructor
  · refine List.map_congr_left fun e member => ?_
    rw [(placed e member).1, usualRoutes, Path.join_ofPlace proper app,
      Path.join_ofPlace inside routes, Path.append_ofPlace]
    rfl
  · intro q listed
    obtain ⟨e, member, rfl⟩ := List.mem_map.mp listed
    obtain ⟨place, name⟩ := placed e member
    rw [place]
    exact Path.normal_ofPlace (Path.proper_concat inside name)

variable {p : Project}

/-! ## The ways that loading can go -/

theorem load_of_not_describes (none : ∀ text, ¬ Describes p text) :
    ∃ reason, load p = .error (.error (.unreadable (packageFile p.root) reason)) := by
  cases told : p.files.readText (packageFile p.root) with
  | error e => exact ⟨e.message, by simp only [load, told]⟩
  | ok text => exact absurd (FileTree.readText_eq_ok_iff.mp told) (none text)

theorem load_of_not_says {text : String} (described : Describes p text)
    (none : ∀ routes?, ¬ Says text routes?) :
    ∃ reason, load p = .error (.error (.malformed (packageFile p.root) reason)) := by
  have found := FileTree.readText_eq_ok_iff.mpr described
  cases told : Json.read routesSetting text with
  | error e => exact ⟨e.display, by simp only [load, found, told]⟩
  | ok routes? => exact absurd (read_routesSetting_iff.mp told) (none routes?)

/-- What a package names is the routes file, as if it had been given. -/
theorem load_of_says_some {text routes : String} (described : Describes p text)
    (said : Says text (some routes)) : load p = withRoutes p.root ⟨routes⟩ := by
  simp only [load, FileTree.readText_eq_ok_iff.mpr described, read_routesSetting_iff.mpr said]

/-- Where a package names nothing, the usual files are looked for. -/
theorem load_of_says_none (normal : p.root.Normal) {text : String} (described : Describes p text)
    (said : Says text none) :
    load p =
      match (usualFiles p.root).find? p.files.isFile with
      | some routes => .ok ⟨p.root, routes⟩
      | none => .error (.error .noRoutes) := by
  have searched : Project.withExtension? p.files (usualRoutes p.root) routesExtensions =
      (usualFiles p.root).find? p.files.isFile := by
    rw [Project.withExtension?, (extended_usualRoutes normal).1]
  have text_read := FileTree.readText_eq_ok_iff.mpr described
  have setting_read := read_routesSetting_iff.mpr said
  cases found : (usualFiles p.root).find? p.files.isFile with
  | some routes => simp only [load, text_read, setting_read, searched, found]
  | none => simp only [load, text_read, setting_read, searched, found]

theorem withRoutes_eq {ε : Type} {root : Path} (normal : root.Normal) (routes : Path) :
    (withRoutes root routes : Except (Halt ε) Config) = .ok ⟨root, routes.seenFrom root⟩ := by
  unfold withRoutes Project.absolute
  rw [normal.resolve?_seenFrom]
  rfl

/-- What loading comes to, and why. -/
inductive Outcome (p : Project) : Except (Halt ConfigError) Config → Prop
  | unreadable {reason : String} (none : ∀ text, ¬ Describes p text) :
      Outcome p (.error (.error (.unreadable (packageFile p.root) reason)))
  | malformed {text reason : String} (described : Describes p text)
      (none : ∀ routes?, ¬ Says text routes?) :
      Outcome p (.error (.error (.malformed (packageFile p.root) reason)))
  | given {text routes : String} (described : Describes p text) (said : Says text (some routes)) :
      Outcome p (.ok ⟨p.root, (Path.mk routes).seenFrom p.root⟩)
  | usual {text : String} {routes : Path} (described : Describes p text) (said : Says text none)
      (first : (usualFiles p.root).find? p.files.isFile = some routes) :
      Outcome p (.ok ⟨p.root, routes⟩)
  | noRoutes {text : String} (described : Describes p text) (said : Says text none)
      (none_there : (usualFiles p.root).find? p.files.isFile = none) :
      Outcome p (.error (.error .noRoutes))

theorem outcome_load (normal : p.root.Normal) : Outcome p (load p) := by
  by_cases described : ∃ text, Describes p text
  · obtain ⟨text, described⟩ := described
    by_cases said : ∃ routes?, Says text routes?
    · obtain ⟨routes?, said⟩ := said
      cases routes? with
      | some routes =>
        rw [load_of_says_some described said, withRoutes_eq normal]
        exact .given described said
      | none =>
        rw [load_of_says_none normal described said]
        cases first : (usualFiles p.root).find? p.files.isFile with
        | some routes => exact .usual described said first
        | none => exact .noRoutes described said first
    · obtain ⟨reason, loaded⟩ := load_of_not_says described (not_exists.mp said)
      rw [loaded]
      exact .malformed described (not_exists.mp said)
  · obtain ⟨reason, loaded⟩ := load_of_not_describes (not_exists.mp described)
    rw [loaded]
    exact .unreadable (not_exists.mp described)

/-- Loading fails to read a package exactly if it is no text, to understand it exactly if it spells
no package, and to find a routes file exactly if the package names none and none of the usual files
is there. Otherwise the root is the project's own and the routes file has an absolute and normal
path: the one that the package names, whatever files there are, or else the first usual file. -/
theorem load_agrees (p : Project) (normal : p.root.Normal) :
    ((∃ file reason, load p = .error (.error (.unreadable file reason))) ↔
        ∀ text, ¬ Describes p text) ∧
      ((∃ file reason, load p = .error (.error (.malformed file reason))) ↔
        ∃ text, Describes p text ∧ ∀ routes?, ¬ Says text routes?) ∧
      (load p = .error (.error .noRoutes) ↔
        ∃ text, Describes p text ∧ Says text none ∧
          ∀ q ∈ usualFiles p.root, p.files.isFile q = false) ∧
      (∀ message, load p ≠ .error (.breakdown message)) ∧
      (∀ c, load p = .ok c → c.root = p.root ∧ c.routes.Normal) ∧
      (∀ text routes, Describes p text → Says text (some routes) →
        load p = withRoutes p.root ⟨routes⟩ ∧
          load p = .ok ⟨p.root, (Path.mk routes).seenFrom p.root⟩) ∧
      ∀ text, Describes p text → Says text none →
        ∀ c, load p = .ok c ↔
          c.root = p.root ∧ (usualFiles p.root).find? p.files.isFile = some c.routes := by
  have outcome := outcome_load normal
  refine ⟨⟨?_, ?_⟩, ⟨?_, ?_⟩, ⟨?_, ?_⟩, ?_, ?_, ?_, ?_⟩
  · rintro ⟨file, reason, loaded⟩
    rw [loaded] at outcome
    cases outcome with
    | unreadable none => exact none
  · intro none
    obtain ⟨reason, loaded⟩ := load_of_not_describes none
    exact ⟨_, reason, loaded⟩
  · rintro ⟨file, reason, loaded⟩
    rw [loaded] at outcome
    cases outcome with
    | malformed described none => exact ⟨_, described, none⟩
  · rintro ⟨text, described, none⟩
    obtain ⟨reason, loaded⟩ := load_of_not_says described none
    exact ⟨_, reason, loaded⟩
  · intro loaded
    rw [loaded] at outcome
    cases outcome with
    | noRoutes described said none_there =>
      exact ⟨_, described, said, by simpa using none_there⟩
  · rintro ⟨text, described, said, none_there⟩
    have none_found : (usualFiles p.root).find? p.files.isFile = none := by simpa using none_there
    rw [load_of_says_none normal described said, none_found]
  · intro message loaded
    rw [loaded] at outcome
    cases outcome
  · intro c loaded
    rw [loaded] at outcome
    cases outcome with
    | given => exact ⟨rfl, Path.normal_seenFrom _ _⟩
    | usual described said first =>
      exact ⟨rfl, (extended_usualRoutes normal).2 _ (List.mem_of_find?_eq_some first)⟩
  · intro text routes described said
    have loaded := load_of_says_some described said
    exact ⟨loaded, loaded.trans (withRoutes_eq normal _)⟩
  · intro text described said c
    rw [load_of_says_none normal described said]
    cases (usualFiles p.root).find? p.files.isFile with
    | some routes =>
      obtain ⟨root, routes'⟩ := c
      simp [eq_comm]
    | none => simp

/-- A package that names a routes file by a way around, in an escape, and says more than that. -/
def package : String :=
  "\x7b\"name\": [1.5e3, null], \"rr-bundler\": \x7b\"routes\": " ++
    "\"./src/..//\\u0072outes.tsx\"\x7d\x7d"

/-- A project whose package names a routes file that is not there; one of the usual files is. -/
def settledProject : Project :=
  ⟨⟨[(["p"], .directory), (["p", "package.json"], .file package.toUTF8),
    (["p", "app"], .directory), (["p", "app", "routes.ts"], .file .empty)], []⟩, ⟨"/p"⟩⟩

/-- The file that is named is the routes file all the same. -/
theorem load_settledProject :
    (Path.mk "/p").Normal ∧ load settledProject = .ok ⟨⟨"/p"⟩, ⟨"/p/routes.tsx"⟩⟩ := by
  have normal : (Path.mk "/p").Normal := Or.inr (by decide)
  have described : Describes settledProject package := ⟨["p", "package.json"], rfl⟩
  have said : Says package (some "./src/..//routes.tsx") :=
    read_routesSetting_iff.mp (by decide +kernel)
  have named := (load_agrees settledProject normal).2.2.2.2.2.1 package _ described said
  have place : (Path.mk "./src/..//routes.tsx").seenFrom ⟨"/p"⟩ = ⟨"/p/routes.tsx"⟩ := by
    decide +kernel
  exact ⟨normal, named.2.trans (congrArg (fun routes => Except.ok (Config.mk ⟨"/p"⟩ routes)) place)⟩

end RouteManifest.Config
