import RouteManifest.Script.Names

/-!
# Export names

The names that a module exports when it runs, in the order of their declarations, each once. What
has a meaning only for types is not there at run time, and what is passed on from another module
as a whole is not known from the module alone; neither counts.
-/

namespace RouteManifest.Exports

open Script

/-- The names that an exported declaration declares at run time. -/
def declaredNames (decl : Tree) : List String :=
  let own := (decl.part 0).name?.toList
  match decl.shape with
  | .functionDecl isDeclare | .classDecl isDeclare | .enumDecl isDeclare _ =>
    if isDeclare then [] else own
  | .variableDecl _ isDeclare =>
    if isDeclare then [] else variableNames decl.parts
  | .namespaceDecl isDeclare isGlobal => if isDeclare || isGlobal then [] else own
  | _ => []

/-- The text of a name in a list of exports, which may be written as a string. -/
def nameText? (t : Tree) : Option String :=
  match t.shape with
  | .ident name _ _ => some name
  | .stringLit value _ => some value
  | _ => none

/-- The name that one entry of a list of exports adds. -/
def specifierName? (specifier : Tree) : Option String :=
  match specifier.shape with
  | .exportSpecifier typeOnly =>
    if typeOnly then none
    else
      let exported := specifier.part 1
      nameText? (if exported.isAbsent then specifier.part 0 else exported)
  | .exportStarAs | .exportDefaultFrom => nameText? (specifier.part 0)
  | _ => none

def itemNames (item : Tree) : List String :=
  match item.shape with
  | .exportDecl => declaredNames (item.part 0)
  | .exportNamed typeOnly =>
    if typeOnly then [] else (item.part 0).parts.filterMap specifierName?
  | .exportDefaultDecl =>
    match (item.part 0).shape with
    | .interfaceDecl _ => []
    | _ => ["default"]
  | .exportDefaultExpr => ["default"]
  | .importEquals isExport typeOnly =>
    if isExport && !typeOnly then (item.part 0).name?.toList else []
  | _ => []

/-- The export names of a module, each at its first occurrence. -/
def names (module : Tree) : List String := (module.parts.flatMap itemNames).eraseDups

end RouteManifest.Exports
