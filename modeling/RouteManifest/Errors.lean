import RouteManifest.Path
import RouteManifest.Source

/-!
# Errors

What can be wrong with a routes file, with a module that it refers to, and with the configuration
of a project. Every error of a routes file has a location in that file, internal errors apart;
where the fault lies in a route module, the location is that of the reference to it.
-/

namespace RouteManifest

/-- Why there is no answer: an error, or a state that the program has no answer for. -/
inductive Halt (ε : Type) where
  | error (e : ε)
  | breakdown (message : String)
  deriving DecidableEq, Repr

/-- Why the exports of a route module are not known. -/
inductive ExtractError where
  | notFound (module : Path)
  | unreadable (file : Path) (reason : String)
  | malformed (location : Location) (message : String)
  deriving DecidableEq, Repr, Inhabited

def ExtractError.message : ExtractError → String
  | notFound module => s!"module not found: {module.text}"
  | unreadable file reason => s!"failed to read {file.text}: {reason}"
  | malformed location message => s!"{location.display}: {message}"

/-- What is wrong with the property that holds the children of a route. -/
inductive ChildrenFault where
  | notAssignment
  | notArray
  deriving DecidableEq, Repr, Inhabited

def ChildrenFault.message : ChildrenFault → String
  | notAssignment => "children must be a property assignment if defined"
  | notArray => "children must be an array if defined"

/-- Why a routes file cannot be compiled. -/
inductive CompileError where
  | callArity (location : Location) (count : Nat)
  | callArgument (location : Location)
  | routeShape (location : Location)
  | childrenShape (location : Location) (fault : ChildrenFault)
  | moduleShape (location : Location)
  | extraction (location : Location) (specifier : String) (cause : ExtractError)
  | malformed (location : Location) (message : String)
  /-- an error that is nobody's code's fault, with what led to it from the outside in -/
  | internal (summary : String) (causes : List String)
  deriving DecidableEq, Repr, Inhabited

namespace CompileError

def message : CompileError → String
  | callArity _ count => s!"defineRoutes must have exactly one argument, found {count}"
  | callArgument _ =>
    "defineRoutes must be called with an array literal of route definitions"
  | routeShape _ => "route definition must be an object literal"
  | childrenShape _ fault => fault.message
  | moduleShape _ =>
    "a route module must be an inline arrow like `() => import('...')` if defined"
  | extraction _ specifier _ =>
    "failed to read the exports of route module \"" ++ specifier ++ "\""
  | malformed _ message => message
  | internal summary _ => summary

def location? : CompileError → Option Location
  | callArity l _ | callArgument l | routeShape l | childrenShape l _ | moduleShape l
  | extraction l _ _ | malformed l _ => some l
  | internal _ _ => none

/-- An error of the user's code, not of the program. -/
def isKnown (e : CompileError) : Bool := !(e matches internal _ _)

/-- What led to an error of the program, from the outside in. -/
def causes : CompileError → List String
  | internal _ causes => causes
  | _ => []

/-- The cause of an error in a sentence, where another file is the cause. -/
def cause? : CompileError → Option String
  | extraction _ _ cause => some cause.message
  | _ => none

end CompileError

/-- Why the configuration of a project cannot be told. -/
inductive ConfigError where
  | unreadable (file : Path) (reason : String)
  | malformed (file : Path) (reason : String)
  | noRoutes
  deriving DecidableEq, Repr, Inhabited

namespace ConfigError

def message : ConfigError → String
  | unreadable file reason => s!"failed to read {file.text}: {reason}"
  | malformed file reason => s!"failed to parse {file.text}: {reason}"
  | noRoutes =>
    "No routes file found, please create one at `app/routes.ts` or configure it in " ++
      "`package.json` at `\"rr-bundler\".routes`."

/-- The message of the error behind an error. -/
def cause? : ConfigError → Option String
  | unreadable _ reason | malformed _ reason => some reason
  | noRoutes => none

end ConfigError

end RouteManifest
