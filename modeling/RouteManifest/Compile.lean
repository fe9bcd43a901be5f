import RouteManifest.Routes.Calls
import RouteManifest.Routes.Planning
import RouteManifest.Script.Printed
import RouteManifest.Script.Scope

/-!
# Compiling a routes file

A routes file is read, every route of its calls receives the export names of its module, and the
result is printed, with its comments. There is a result only if nothing is wrong anywhere.
-/

namespace RouteManifest

open Script Routes

/-- A routes file with a text, of which a byte order mark is no part. -/
def RoutesFile.ofText (path : Path) (text : String) : RoutesFile :=
  ⟨path, Source.withoutMark text.toList⟩

def RoutesFile.read (f : RoutesFile) : Except (Halt CompileError) Module :=
  match Module.ofText (.ofPath f.path) f.text with
  | .ok m => .ok ⟨Scope.resolve m.tree, m.comments⟩
  | .error stop => .error (malformedModule f.path f.text .malformed stop)

namespace Routes.Setting

/-- The plan for the routes of a call, by addresses from the call on. -/
def planCall (s : Setting) (call : Tree) : Work CompileError Plan :=
  match (call.part 1).parts with
  | [argument] => do
    if isArray argument then return (← s.plan argument).below [1, 0]
    else Work.fail (.callArgument (s.file.location call.span))
  | arguments => Work.fail (.callArity (s.file.location call.span) arguments.length)

def planCalls (s : Setting) : List Call → Work CompileError Plan
  | [] => return []
  | c :: rest => do
    let plan := (← s.planCall c.call).below c.address
    return plan ++ (← s.planCalls rest)

def planModule (s : Setting) (module : Tree) : Work CompileError Plan := do
  if (bindings module).isEmpty then
    Work.record (.noRoutes s.file.path)
    return []
  else
    let plan ← s.planCalls (calls module)
    Work.record (.compiled s.file.path (calls module).length (← get).cache.extractions)
    return plan

/-- The module of the routes file with the export names of its route modules. -/
def compiledModule (s : Setting) : Work CompileError Module := do
  let m ← Work.ofExcept s.file.read
  return { m with tree := (← s.planModule m.tree).carryOut m.tree }

end Routes.Setting

/-- The text of a module that was read from a file, with a map of where it comes from or without;
the map names the file by its path below the root. -/
def RoutesFile.print (f : RoutesFile) (root : Path) (withMap : Bool) (m : Module) : String :=
  if withMap then m.printWithMap true f.text f.path root else m.print true

/-- The compiled text of a routes file, or why there is none, and what was done. -/
def compile (p : Project) (f : RoutesFile) (withMap : Bool) :
    Except (Halt CompileError) String × Journal :=
  let (answer, session) := (Setting.mk p f).compiledModule.run.run Session.fresh
  (answer.map (f.print p.root withMap), session.journal)

end RouteManifest
