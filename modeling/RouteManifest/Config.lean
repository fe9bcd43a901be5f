import RouteManifest.Json.Record
import RouteManifest.Project

/-!
# Configuration

Which file of a project holds its routes. The project says so in `package.json`; otherwise it is
the first of the usual files that is there.
-/

namespace RouteManifest

structure Config where
  root : Path
  routes : Path
  deriving DecidableEq, Repr, Inhabited

namespace Config

/-- The extensions of the routes file in the order in which they are tried. -/
def routesExtensions : List String := ["tsx", "ts", "jsx", "js"]

open Json.Read in
/-- The routes file that a package names. -/
def routesSetting : Json.Read (Option String) := do
  let section_ : Json.Read (Option String) := do
    return (← record "BundlerSection" "routes" false (text? "path string")).join
  return (← record "PackageJson" "rr-bundler" true section_).join

/-- The configuration in which the routes file is given. -/
def withRoutes {ε : Type} (root routes : Path) : Except (Halt ε) Config :=
  (Project.absolute root routes).map fun routes => ⟨root, routes⟩

def packageFile (root : Path) : Path := root.join ⟨"package.json"⟩

/-- The usual routes file of a project, without its extension. -/
def usualRoutes (root : Path) : Path := (root.join ⟨"app"⟩).join ⟨"routes"⟩

def load (p : Project) : Except (Halt ConfigError) Config :=
  let package := packageFile p.root
  match p.files.readText package with
  | .error e => .error (.error (.unreadable package e.message))
  | .ok text =>
    match Json.read routesSetting text with
    | .error e => .error (.error (.malformed package e.display))
    | .ok (some routes) => withRoutes p.root ⟨routes⟩
    | .ok none =>
      match Project.withExtension? p.files (usualRoutes p.root) routesExtensions with
      | some routes => .ok ⟨p.root, routes⟩
      | none => .error (.error .noRoutes)

end Config

end RouteManifest
