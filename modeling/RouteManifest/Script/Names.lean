import RouteManifest.Script.Tree

/-!
# Names that code binds

Which names a pattern binds, and which names a statement declares for the scope around it.
Variables of a function are declared throughout the function, however deep in its blocks they
stand; everything else is declared for the block in which it stands.
-/

namespace RouteManifest.Script

/-- The names that a binding pattern binds, from left to right. -/
def boundNames : Tree → List String
  | .node .bindingIdent _ (.node (.ident name _ _) _ _ :: _) => [name]
  | .node (.arrayPattern _) _ (elements :: _) => boundNames elements
  | .node (.objectPattern _) _ (properties :: _) => boundNames properties
  | .node (.restPattern _) _ (target :: _) => boundNames target
  | .node .assignPattern _ (target :: _) => boundNames target
  | .node .keyValuePattern _ [_, target] => boundNames target
  | .node .shorthandPattern _ (.node (.ident name _ _) _ _ :: _) => [name]
  | .node .list _ items => ofAll items
  | _ => []
where
  ofAll : List Tree → List String
    | [] => []
    | t :: ts => boundNames t ++ ofAll ts

def variableNames (declarators : List Tree) : List String :=
  declarators.flatMap fun d => boundNames (d.part 0)

/-- The names that the head of a loop declares for the function around it. -/
def headNames : Tree → List String
  | .node (.variableDecl "var" _) _ ds => variableNames ds
  | _ => []

def importedNames (specifiers : Tree) : List String :=
  specifiers.parts.filterMap fun s => (s.part 0).name?

/-- The names that a statement declares for the scope around it; `inBlock` says that a block
stands between the two. -/
def declared (inBlock : Bool) : Tree → List String
  | .node (.variableDecl kind _) _ ds =>
    if inBlock && kind ≠ "var" then [] else variableNames ds
  | .node (.usingDecl _) _ ds => if inBlock then [] else variableNames ds
  | .node (.functionDecl _) _ (name :: _) | .node (.classDecl _) _ (name :: _)
  | .node (.enumDecl _ _) _ (name :: _) | .node (.namespaceDecl _ false) _ (name :: _) =>
    if inBlock then [] else name.name?.toList
  | .node .exportDecl _ [decl] => declared inBlock decl
  | .node .exportDefaultDecl _ [.node .functionExpr _ (name :: _)]
  | .node .exportDefaultDecl _ [.node .classExpr _ (name :: _)] => name.name?.toList
  | .node (.importDecl _) _ (specifiers :: _) => importedNames specifiers
  | .node .block _ items => ofAll true items
  | .node .ifStmt _ [_, yes, no] => declared inBlock yes ++ declared inBlock no
  | .node .forStmt _ [init, _, _, body] => headNames init ++ declared inBlock body
  | .node .forInStmt _ [left, _, body] | .node (.forOfStmt _) _ [left, _, body] =>
    headNames left ++ declared inBlock body
  | .node .whileStmt _ [_, body] | .node .doWhileStmt _ [_, body] | .node .withStmt _ [_, body]
  | .node .labeledStmt _ [_, body] => declared inBlock body
  | .node .tryStmt _ [body, handler, finalizer] =>
    declared inBlock body ++ declared inBlock handler ++ declared inBlock finalizer
  | .node .catchClause _ [_, body] => declared true body
  | .node .switchStmt _ [_, cases] => declared true cases
  | .node .switchCase _ [_, body] => declared true body
  | .node .list _ items => ofAll inBlock items
  | _ => []
where
  ofAll (inBlock : Bool) : List Tree → List String
    | [] => []
    | t :: ts => declared inBlock t ++ ofAll inBlock ts

/-- The names that statements declare for the scope that they make up. -/
def declaredByAll (statements : List Tree) : List String := statements.flatMap (declared false)

end RouteManifest.Script
