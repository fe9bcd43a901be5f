import RouteManifest.Script.Address

/-!
# Calls that mark routes

Routes are the argument of calls of `defineRoutes`, which a module imports from the package of
routes, under that name or another. A call counts if its callee is nothing but the name, and if
the name means the import where the call stands.
-/

namespace RouteManifest.Routes

open Script

def packageName : String := "rr-routes"

def functionName : String := "defineRoutes"

/-- A name and the level of the scope that binds it. -/
structure Binding where
  name : String
  level : Nat
  deriving DecidableEq, Repr, Inhabited

/-- The binding that a plain name means. -/
def Binding.of? (t : Tree) : Option Binding :=
  match t.shape with
  | .ident name level _ => some ⟨name, level⟩
  | _ => none

/-- The name under which a module exports what a specifier imports. -/
def importedName? (specifier : Tree) : Option String :=
  let imported := specifier.part 1
  match (if imported.isAbsent then specifier.part 0 else imported).shape with
  | .ident name _ _ | .stringLit name _ => some name
  | _ => none

/-- The binding of `defineRoutes` that a specifier makes. -/
def specifierBinding? (specifier : Tree) : Option Binding :=
  match specifier.shape with
  | .importNamed false =>
    if importedName? specifier = some functionName then Binding.of? (specifier.part 0)
    else none
  | _ => none

def itemBindings (item : Tree) : List Binding :=
  match item.shape, (item.part 1).shape with
  | .importDecl false, .stringLit source _ =>
    if source = packageName then (item.part 0).parts.filterMap specifierBinding? else []
  | _, _ => []

def bindings (module : Tree) : List Binding := module.parts.flatMap itemBindings

/-- A call of one of the bindings. -/
def isCallOf (bindings : List Binding) (t : Tree) : Bool :=
  t.shape matches .call && (Binding.of? (t.part 0)).any bindings.contains

structure Call where
  address : Address
  call : Tree
  deriving Inhabited

/-- The calls of the bindings in a tree, each before those inside it; `linked` says that the tree
is a link of an optional chain, which is no call of its own. -/
def callsIn (bindings : List Binding) (address : Address) (linked : Bool) : Tree → List Call
  | .node shape span parts =>
    let t : Tree := .node shape span parts
    let own := if !linked && isCallOf bindings t then [⟨address, t⟩] else []
    own ++ inParts (shape matches .optionalChain _) 0 parts
where
  inParts (linked : Bool) (i : Nat) : List Tree → List Call
    | [] => []
    | p :: ps => callsIn bindings (address ++ [i]) linked p ++ inParts linked (i + 1) ps

/-- The calls in a module whose routes are to be looked at. -/
def calls (module : Tree) : List Call := callsIn (bindings module) [] false module

end RouteManifest.Routes
