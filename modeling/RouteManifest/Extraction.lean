import RouteManifest.Exports
import RouteManifest.Errors
import RouteManifest.Project
import RouteManifest.Session
import RouteManifest.Script.Dialect
import RouteManifest.Script.Module

/-!
# Reading the exports of a module

The export names of a module are told by the text of its file alone. No other file is looked at,
and nothing is run.
-/

namespace RouteManifest

open Script

structure Extract where
  file : Path
  names : List String
  deriving DecidableEq, Repr, Inhabited

/-- Why a text could not be read as a module of the given file. -/
def malformedModule {ε : Type} (file : Path) (text : List Char) (error : Location → String → ε) :
    Stop → Halt ε
  | .failure f => .error (error (.ofPosition file.text text f.span.lo) f.fault.message)
  | .breakdown fault => .breakdown fault.message

namespace Project

/-- The exports of a module as its file has them now. -/
def extract (p : Project) (module : Path) : Except (Halt ExtractError) Extract :=
  match p.moduleFile module with
  | .error halt => .error halt
  | .ok none => .error (.error (.notFound module))
  | .ok (some file) =>
    match p.files.readText file with
    | .error e => .error (.error (.unreadable file e.message))
    | .ok text =>
      let source := Source.withoutMark text.toList
      match Module.ofText (.ofPath file) source with
      | .error stop => .error (malformedModule file source .malformed stop)
      | .ok m => .ok ⟨file, Exports.names m.tree⟩

/-- The export names of a module, which is read only if it was not read before. A module that could
not be read is not remembered. -/
def exportsOf (p : Project) (module : Path) : Work ExtractError (List String) := do
  match (← get).cache.find? module with
  | some names =>
    Work.record (.exportsReused module)
    return names
  | none =>
    let found ← Work.ofExcept (p.extract module)
    Work.record (.exportsRead found.file found.names)
    modify fun s => { s with cache := s.cache.store module found.names }
    return found.names

end Project

end RouteManifest
