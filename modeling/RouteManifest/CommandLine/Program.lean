import RouteManifest.CommandLine.Usage
import RouteManifest.Config
import RouteManifest.Loader
import RouteManifest.Log

/-!
# The program

The program finds the routes file of a project, loads it as a bundler would, and prints what the
bundler would receive.
-/

namespace RouteManifest.CommandLine

/-- What a run of the program leaves behind. -/
structure Outcome where
  exitCode : Nat
  output : String
  errors : List String
  deriving DecidableEq, Repr, Inhabited

inductive RunError where
  | noDirectory (e : FileError)
  | config (e : ConfigError)
  | notLoaded
  deriving DecidableEq, Repr, Inhabited

/-- The error and what is behind it, on one line. -/
def RunError.display : RunError → String
  | noDirectory e => "Error: " ++ e.message
  | config e => "Error: " ++ ": ".intercalate (e.message :: e.cause?.toList)
  | notLoaded => "Error: routes file was not handled by the plugin"

def configure (files : FileTree) (root : Path) (o : Options) : Except (Halt RunError) Config :=
  match o.routes with
  | some routes => Config.withRoutes root routes
  | none =>
    match Config.load ⟨files, root⟩ with
    | .ok c => .ok c
    | .error (.error e) => .error (.error (.config e))
    | .error (.breakdown message) => .error (.breakdown message)

def load (files : FileTree) (o : Options) :
    Except (Halt RunError) (LoadResult × Journal) :=
  match files.canonical o.projectRoot with
  | .error e => .error (.error (.noDirectory e))
  | .ok root =>
    match configure files root o with
    | .error halt => .error halt
    | .ok config =>
      let chosen := if o.routes.isNone then [.routesChosen config.routes] else []
      let loader : Loader := ⟨⟨files, config.root⟩, config.routes, o.withMap⟩
      match loader.load? config.routes with
      | some (result, journal) => .ok (result, journal ++ chosen)
      | none => .error (.error .notLoaded)

/-- The paths that a run looks at, as far as they can be told from the files that are known: those
of the configuration, of the routes file, and of the modules that it got to. -/
def needed (files : FileTree) (o : Options) : List Path :=
  match files.canonical o.projectRoot with
  | .error _ => [o.projectRoot]
  | .ok root =>
    let usual := Project.extended (Config.usualRoutes root) Config.routesExtensions
    let chosen :=
      match configure files root o with
      | .ok c => [c.routes]
      | .error _ => []
    let modules :=
      match load files o with
      | .ok (_, journal) => journal.flatMap fun
        | .moduleReferenced _ module => Project.candidates module
        | _ => []
      | .error _ => []
    o.projectRoot :: Config.packageFile root :: usual ++ chosen ++ modules

def logLines (filter : Log.Filter) (format : LogFormat) (journal : Journal) : List String :=
  let lines := (journal.reverse.map Log.Line.ofEvent).filter filter.passes
  lines.map fun l =>
    match format with
    | .pretty => l.pretty
    | .json => l.json

/-- A run with the given options; `filter` describes what is logged. -/
def runWith (files : FileTree) (filter : Option String) (o : Options) : Outcome :=
  let filter := (filter.map Log.Filter.ofText).getD Log.Filter.usual
  match load files o with
  | .error (.error e) => ⟨1, "", [e.display]⟩
  | .error (.breakdown message) => ⟨101, "", [message]⟩
  | .ok (result, journal) =>
    ⟨if result.isError then 1 else 0, result.json.pretty 0 ++ "\n",
      logLines filter o.logFormat journal⟩

def run (files : FileTree) (filter : Option String) (words : List String) : Outcome :=
  match request words with
  | .run o => runWith files filter o
  | .help long => ⟨0, helpText long, []⟩
  | .version => ⟨0, versionText, []⟩
  | .refused r => ⟨2, "", r.lines⟩

end RouteManifest.CommandLine
