import RouteManifest.Script.Tree
import RouteManifest.Errors

/-!
# The shape of a route

A route is an object literal. Of its properties two matter, by their names: `children`, which must
hold an array literal of further routes, and the first `module`, which must hold a deferred import,
`() => import("…")`. Properties without a plain name never matter.
-/

namespace RouteManifest.Routes

open Script

/-- The name of a key that is an identifier or a string. -/
def keyName? (key : Tree) : Option String :=
  match key.shape with
  | .ident name _ _ => some name
  | .stringLit value _ => some value
  | _ => none

def propertyName? (property : Tree) : Option String :=
  match property.shape with
  | .ident name _ _ => some name
  | .keyValue | .assignProp | .getterProp | .setterProp | .methodProp => keyName? (property.part 0)
  | _ => none

def value? : Tree → Option Tree
  | .node .keyValue _ [_, value] => some value
  | _ => none

def isArray (t : Tree) : Bool := t.shape matches .arrayLit

/-- What is wrong with a property for children, and where. -/
def childrenFault? (property : Tree) : Option (Span × ChildrenFault) :=
  match value? property with
  | some value => if isArray value then none else some (value.span, .notArray)
  | none => some (property.span, .notAssignment)

def childArray? (property : Tree) : Option Tree :=
  if propertyName? property = some "children" then (value? property).filter isArray else none

/-- The specifier of `import(…)` in a plain arrow, or the place where it is not that: the first
argument, or else the call. -/
def importSpecifier (plain : Bool) (call : Tree) : Except Span String :=
  let isImport := (call.part 0).shape matches .importCallee
  match (call.part 1).parts with
  | [] => .error call.span
  | [.node (.stringLit value _) span _] =>
    if plain && isImport then .ok value else .error span
  | .node (.spread _) _ (argument :: _) :: _ => .error argument.span
  | argument :: _ => .error argument.span

/-- The specifier of the module that a property defers the import of, or the closest place that
shows that it does not. -/
def deferredImport (property : Tree) : Except Span String :=
  match value? property with
  | none => .error property.span
  | some value =>
    match value with
    | .node (.arrow flags) _ (parameters :: body :: _) =>
      let plain := !flags.isAsync && !flags.isGenerator && parameters.parts.isEmpty
      if body.shape matches .call then importSpecifier plain body else .error body.span
    | .node .functionExpr _ (_ :: function :: _) =>
      let body := function.part 2
      .error (if body.isPresent then body.span else function.span)
    | _ => .error value.span

/-- The name of the property that holds the export names of a route's module. -/
def exportsKey : String := "_ex"

/-- The property that holds export names. -/
def exportsProperty (names : List String) : Tree :=
  let literal (name : String) : Tree := .node (.stringLit name none) .nowhere []
  .node .keyValue .nowhere
    [.node (.ident exportsKey 0 false) .nowhere [],
      .node .arrayLit .nowhere (names.map literal)]

/-- A route with the export names of its module, behind all that it has. -/
def withExports (names : List String) (route : Tree) : Tree :=
  route.withParts (route.parts ++ [exportsProperty names])

end RouteManifest.Routes
