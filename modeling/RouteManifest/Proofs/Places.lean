import RouteManifest.Script.Address
import RouteManifest.Script.Scope

/-!
# The scopes around a place

Where a name at an address of a tree is looked up, told from the tree as it is read and from the
address alone. On the way down to the address every node says how each of its parts stands: as a
node of its own among some scopes, as a piece of what is around it, or as something in which no
name is looked up, such as a label, the name behind a dot, or a key that is not computed.
-/

namespace RouteManifest.Script.Scope

/-- The names of a scope that are known at statement number `i`. -/
def statementNames (names : List String) : List Tree → Nat → List String
  | [], _ => names
  | t :: ts, i =>
    let names :=
      match t.shape with
      | .importEquals _ _ => (t.part 0).name?.toList ++ names
      | _ => names
    match i with
    | 0 => names
    | i + 1 => statementNames names ts i

/-- The names that are known to parameter number `i`; behind the last parameter, all names of the
function. -/
def parameterNames (known : List String) : List Tree → Nat → List String
  | [], _ => known
  | p :: ps, i =>
    let known := if isLate p then boundNames (target p) ++ known else known
    match i with
    | 0 => known
    | i + 1 => parameterNames known ps i

/-- The names that the cases of a `switch` before number `i` declare. -/
def caseNames (known : List String) : List Tree → Nat → List String
  | [], _ => known
  | _ :: _, 0 => known
  | c :: cs, i + 1 => caseNames (declaredByAll (c.part 1).parts ++ known) cs i

/-- The names that all parameters of a function know. -/
def earlyNames (items : List Tree) : List String :=
  (items.filter (!isLate ·)).flatMap fun p => boundNames (target p)

/-- The names that a function knows behind its parameters. -/
def functionNames (known : List String) (items : List Tree) : List String :=
  parameterNames (earlyNames items ++ known) items items.length

/-- How a node stands among the scopes around it. -/
inductive Place where
  /-- as a node of its own -/
  | plain (env : Env)
  /-- as a function that knows the given names besides its own -/
  | function (known : List String) (outer : Env)
  /-- as the parameters of a function -/
  | parameters (known : List String) (outer : Env)
  /-- as a parameter whose decorators stand outside the function -/
  | parameter (known : List String) (outer : Env)
  /-- as statements with the names of their scope -/
  | statements (names : List String) (outer : Env)
  /-- as the cases of a `switch` -/
  | clauses (outer : Env)
  /-- as one case, behind cases that declare the given names -/
  | clause (known : List String) (outer : Env)
  /-- as a class that knows its own name, but not in its heritage -/
  | classBody (own : List String) (outer : Env)
  /-- as a function or class whose name belongs to the module -/
  | exported (env : Env)

namespace Place

/-- The scopes in which the node is looked up if it is a name. -/
def env? : Place → Option Env
  | plain env => some env
  | parameter known outer => some (known :: outer)
  | classBody own outer => some (own :: outer)
  | _ => none

/-- The body of a function that knows the given names. -/
def ofBody (known : List String) (outer : Env) (inner : Tree) : Place :=
  if inner.shape matches .block then .statements (declaredByAll inner.parts ++ known) outer
  else .plain (known :: outer)

def ofKey (env : Env) (k : Tree) : Option Place :=
  if k.shape matches .computed then some (.plain env) else none

def ofParameter (known : List String) (outer : Env) (p : Tree) : Place :=
  match p.shape with
  | .parameter | .parameterProperty _ => .parameter known outer
  | _ => .plain (known :: outer)

/-- The places of the parts of a function. -/
def ofFunction (known : List String) (outer : Env) (f : Tree) : List (Option Place) :=
  let items := (f.part 0).parts
  let all := functionNames known items
  [some (.parameters (earlyNames items ++ known) outer), some (.plain outer),
    some (ofBody all outer (f.part 2)), some (.plain (all :: outer)), some (.plain (all :: outer))]

/-- The places of the parts of a node that stands on its own; where there is none, no name is
looked up. -/
def ofParts (env : Env) (t : Tree) : List (Option Place) :=
  let here := some (plain env)
  let among (names : List String) := some (plain (names :: env))
  match t with
  | .node (.ident _ _ _) _ ps | .node .privateName _ ps | .node .breakStmt _ ps
  | .node .continueStmt _ ps | .node .jsxNamespaced _ ps => ps.map fun _ => none
  | .node .labeledStmt _ [_, _] => [none, here]
  | .node .member _ [_, property] => [here, ofKey env property]
  | .node .qualifiedName _ [_, _] => [here, none]
  | .node .jsxMember _ [_, _] => [here, none]
  | .node .jsxAttribute _ [_, _] => [none, here]
  | .node .keyValue _ [k, _] => [ofKey env k, here]
  | .node .keyValuePattern _ [k, _] => [ofKey env k, here]
  | .node .methodProp _ [k, _] => [ofKey env k, some (.function [] env)]
  | .node .getterProp _ [k, _, _] => [ofKey env k, here, here]
  | .node .setterProp _ [k, bound, _] =>
    [ofKey env k, among (boundNames bound), among (boundNames bound)]
  | .node (.methodMember _ _) _ [k, _] => [ofKey env k, some (.function [] env)]
  | .node (.fieldMember _) _ (k :: rest) => ofKey env k :: rest.map fun _ => here
  | .node (.accessorMember _) _ (k :: rest) => ofKey env k :: rest.map fun _ => here
  | .node (.constructor _) _ [_, items, inner] =>
    [none, some (.parameters (earlyNames items.parts) env),
      some (ofBody (functionNames [] items.parts) env inner)]
  | .node (.functionDecl _) _ [_, _] => [here, some (.function [] env)]
  | .node .functionExpr _ [name, _] =>
    [among name.name?.toList, some (.function name.name?.toList env)]
  | .node (.function _) _ _ => ofFunction [] env t
  | .node (.arrow _) _ [items, inner, _, _] =>
    let all := functionNames [] items.parts
    [some (.parameters (earlyNames items.parts) env), some (ofBody all env inner), among all,
      among all]
  | .node .classExpr _ [name, _] =>
    [among name.name?.toList, some (.classBody name.name?.toList env)]
  | .node .exportDefaultDecl _ [.node .functionExpr _ [_, _]]
  | .node .exportDefaultDecl _ [.node .classExpr _ [_, _]] => [some (.exported env)]
  | .node .block _ items | .node .namespaceBlock _ items | .node (.moduleBody _) _ items =>
    items.mapIdx fun i _ => among (statementNames (declaredByAll items) items i)
  | .node (.innerNamespace _ _) _ [name, _] =>
    [among name.name?.toList, among name.name?.toList]
  | .node .forStmt _ (head :: rest) | .node .forInStmt _ (head :: rest)
  | .node (.forOfStmt _) _ (head :: rest) => (head :: rest).map fun _ => among (loopNames head)
  | .node .catchClause _ [bound, _] => [among (boundNames bound), among (boundNames bound)]
  | .node .switchStmt _ [_, _] => [here, some (.clauses env)]
  | .node (.enumDecl _ _) _ [_, members] => [here, among (enumNames members)]
  | .node .enumMember _ [_, _] => [none, here]
  | .node (.importNamed _) _ [_, _] => [here, none]
  | .node (.exportNamed _) _ [_, source, _] =>
    [if source.isPresent then none else here, none, none]
  | .node (.exportSpecifier _) _ [_, _] => [here, none]
  | .node .tupleElement _ [_, _] => [none, here]
  | .node (.propertySignature _ isComputed _) _ (_ :: rest)
  | .node (.methodSignature isComputed _) _ (_ :: rest)
  | .node (.getterSignature isComputed) _ (_ :: rest)
  | .node (.setterSignature isComputed) _ (_ :: rest) =>
    (if isComputed then here else none) :: rest.map fun _ => here
  | .node _ _ parts => parts.map fun _ => here

/-- The places of the parts of a node. -/
def parts : Place → Tree → List (Option Place)
  | plain env, t => ofParts env t
  | function known outer, f => ofFunction known outer f
  | parameters known outer, t =>
    t.parts.mapIdx fun i p => some (ofParameter (parameterNames known t.parts i) outer p)
  | parameter known outer, p => (ofParts (known :: outer) p).set 0 (some (.plain outer))
  | statements names outer, t =>
    t.parts.mapIdx fun i _ => some (.plain (statementNames names t.parts i :: outer))
  | clauses outer, t => t.parts.mapIdx fun i _ => some (.clause (caseNames [] t.parts i) outer)
  | clause known outer, c =>
    [some (.plain (known :: outer)),
      some (.statements (declaredByAll (c.part 1).parts ++ known) outer)]
  | classBody own outer, c => (ofParts (own :: outer) c).set 2 (some (.plain outer))
  | exported env, .node .functionExpr _ [_, _] => [some (.plain env), some (.function [] env)]
  | exported env, t => t.parts.map fun _ => some (.plain env)

/-- The place of the node at an address, if names are looked up there. -/
def at? (place : Place) (t : Tree) : Address → Option Place
  | [] => some place
  | i :: below => t.parts[i]?.bind fun p => ((place.parts t)[i]?.join).bind fun q => q.at? p below

end Place

/-- The scopes around the node at an address of a module, if names are looked up there. -/
def scopesAt (t : Tree) (address : Address) : Option Env :=
  ((Place.plain []).at? t address).bind Place.env?

end RouteManifest.Script.Scope
