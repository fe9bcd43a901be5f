import RouteManifest.Script.Names

/-!
# Scopes

Which scope binds a name is told by a level: of the scopes around an occurrence, the outermost,
that of the module, has level one, and a name that none of them binds has level zero. Two
occurrences of a name with the level one therefore mean the same thing, wherever they stand.

The names of a function's parameters are known to all of its parameters, and those that the body
declares only to the body.

Scopes are not everywhere what ECMAScript says. The cases of a `switch` see there what any of them
declares, here only what those up to their own declare. The name of a class expression is known
there to what the class extends, here only to the class. A rest parameter, and a parameter that is a
property, is known there to all parameters, here only from there on. A `var` in the head of a loop
is there a variable of the function, here the loop has one of the same name besides. Types and their
parameters declare nothing here: a type is looked up like a value. A name imported by assignment is
known from there on.
-/

namespace RouteManifest.Script.Scope

/-- The names of the scopes around a place, the innermost first. -/
abbrev Env := List (List String)

def level : Env → String → Nat
  | [], _ => 0
  | names :: outer, name => if names.contains name then outer.length + 1 else level outer name

/-- A pass over a part of a tree among given scopes. -/
abbrev Pass := Env → Tree → Tree

/-- The key of a member, in which only a computed one has names. -/
def key (sub : Pass) (env : Env) (k : Tree) : Tree :=
  if k.shape matches .computed then sub env k else k

/-- Statements or items of one scope in order; a name that is imported by assignment is known from
there on. -/
def statements (sub : Pass) (names : List String) (outer : Env) : List Tree → List Tree
  | [] => []
  | t :: ts =>
    let names :=
      match t.shape with
      | .importEquals _ _ => (t.part 0).name?.toList ++ names
      | _ => names
    sub (names :: outer) t :: statements sub names outer ts

def body (sub : Pass) (known : List String) (outer : Env) (items : List Tree) : List Tree :=
  statements sub (declaredByAll items ++ known) outer items

/-- The target of a parameter. -/
def target (p : Tree) : Tree :=
  match p.shape with
  | .parameter | .parameterProperty _ => p.part 1
  | _ => p

/-- The names of the parameter are known only from there on. -/
def isLate (p : Tree) : Bool :=
  p.shape matches .parameterProperty _ || (target p).shape matches .restPattern _

/-- Parameters in order; the answer has the names known behind them. -/
def parameters (sub : Pass) (outer : Env) (known : List String) :
    List Tree → List Tree × List String
  | [] => ([], known)
  | p :: ps =>
    let known := if isLate p then boundNames (target p) ++ known else known
    let walked := sub (known :: outer) p
    let walked :=
      match p.shape with
      | .parameter | .parameterProperty _ => walked.setPart 0 (sub outer (p.part 0))
      | _ => walked
    let (rest, known) := parameters sub outer known ps
    (walked :: rest, known)

/-- The parameters and the body of a function, with the scope that the rest of it stands in. -/
def function (sub : Pass) (outer : Env) (known : List String) (items : List Tree) (inner : Tree) :
    List Tree × Tree × Env :=
  let early := (items.filter (!isLate ·)).flatMap fun p => boundNames (target p)
  let (items, known) := parameters sub outer (early ++ known) items
  let inner :=
    if inner.shape matches .block then inner.withParts (body sub known outer inner.parts)
    else sub (known :: outer) inner
  (items, inner, known :: outer)

/-- A function that knows the given names besides its own. -/
def functionNode (sub : Pass) (outer : Env) (known : List String) (f : Tree) : Tree :=
  let (items, inner, env) := function sub outer known (f.part 0).parts (f.part 2)
  f.withParts [(f.part 0).withParts items, sub outer (f.part 1), inner, sub env (f.part 3),
    sub env (f.part 4)]

def cases (sub : Pass) (outer : Env) (known : List String) : List Tree → List Tree
  | [] => []
  | c :: cs =>
    let test := sub (known :: outer) (c.part 0)
    let known := declaredByAll (c.part 1).parts ++ known
    let inner := (c.part 1).withParts (statements sub known outer (c.part 1).parts)
    c.withParts [test, inner] :: cases sub outer known cs

/-- The names that the head of a loop declares for the loop. -/
def loopNames (head : Tree) : List String :=
  match head.shape with
  | .variableDecl _ _ | .usingDecl _ => variableNames head.parts
  | _ => []

/-- The names that can be used without their enumeration inside it. -/
def enumNames (members : Tree) : List String := members.parts.filterMap fun m => (m.part 0).name?

/-- The tree with the level of its own name, if it is one; its parts are passed over by `sub`, each
among the scopes that it stands in. -/
def resolveNode (sub : Pass) (env : Env) (t : Tree) : Tree :=
  let here := sub env
  match t with
  | .node (.ident name _ isOptional) span ps =>
    .node (.ident name (level env name) isOptional) span ps
  | .node .privateName _ _ | .node .breakStmt _ _ | .node .continueStmt _ _
  | .node .jsxNamespaced _ _ => t
  | .node .labeledStmt span [label, inner] => .node .labeledStmt span [label, here inner]
  | .node .member span [object, property] =>
    .node .member span [here object, key sub env property]
  | .node .qualifiedName span [left, right] => .node .qualifiedName span [here left, right]
  | .node .jsxMember span [object, property] => .node .jsxMember span [here object, property]
  | .node .jsxAttribute span [name, value] => .node .jsxAttribute span [name, here value]
  | .node .keyValue span [k, value] => .node .keyValue span [key sub env k, here value]
  | .node .keyValuePattern span [k, inner] =>
    .node .keyValuePattern span [key sub env k, here inner]
  | .node .methodProp span [k, f] =>
    .node .methodProp span [key sub env k, functionNode sub env [] f]
  | .node .getterProp span [k, type, inner] =>
    .node .getterProp span [key sub env k, here type, here inner]
  | .node .setterProp span [k, parameter, inner] =>
    let known := boundNames parameter
    .node .setterProp span
      [key sub env k, sub (known :: env) parameter, sub (known :: env) inner]
  | .node (.methodMember kind m) span [k, f] =>
    .node (.methodMember kind m) span [key sub env k, functionNode sub env [] f]
  | .node (.fieldMember m) span (k :: rest) =>
    .node (.fieldMember m) span (key sub env k :: rest.map here)
  | .node (.accessorMember m) span (k :: rest) =>
    .node (.accessorMember m) span (key sub env k :: rest.map here)
  | .node (.constructor m) span [k, items, inner] =>
    let (parameters, inner, _) := function sub env [] items.parts inner
    .node (.constructor m) span [k, items.withParts parameters, inner]
  | .node (.functionDecl isDeclare) span [name, f] =>
    .node (.functionDecl isDeclare) span [here name, functionNode sub env [] f]
  | .node .functionExpr span [name, f] =>
    let known := name.name?.toList
    .node .functionExpr span [sub (known :: env) name, functionNode sub env known f]
  | .node (.function _) _ _ => functionNode sub env [] t
  | .node (.arrow flags) span [items, inner, types, result] =>
    let (parameters, inner, env) := function sub env [] items.parts inner
    .node (.arrow flags) span
      [items.withParts parameters, inner, sub env types, sub env result]
  | .node .classExpr span [name, c] =>
    let env' := name.name?.toList :: env
    .node .classExpr span [sub env' name, (sub env' c).setPart 2 (here (c.part 2))]
  | .node .exportDefaultDecl span [.node .functionExpr inner [name, f]] =>
    .node .exportDefaultDecl span
      [.node .functionExpr inner [here name, functionNode sub env [] f]]
  | .node .exportDefaultDecl span [.node .classExpr inner [name, c]] =>
    .node .exportDefaultDecl span [.node .classExpr inner [here name, here c]]
  | .node .block span items => .node .block span (body sub [] env items)
  | .node .namespaceBlock span items => .node .namespaceBlock span (body sub [] env items)
  | .node (.moduleBody shebang) span items =>
    .node (.moduleBody shebang) span (body sub [] env items)
  | .node (.innerNamespace isDeclare isGlobal) span [name, inner] =>
    let env := name.name?.toList :: env
    .node (.innerNamespace isDeclare isGlobal) span [sub env name, sub env inner]
  | .node .forStmt span (head :: rest) =>
    .node .forStmt span ((head :: rest).map (sub (loopNames head :: env)))
  | .node .forInStmt span (head :: rest) =>
    .node .forInStmt span ((head :: rest).map (sub (loopNames head :: env)))
  | .node (.forOfStmt isAwait) span (head :: rest) =>
    .node (.forOfStmt isAwait) span ((head :: rest).map (sub (loopNames head :: env)))
  | .node .catchClause span [parameter, inner] =>
    let env := boundNames parameter :: env
    .node .catchClause span [sub env parameter, sub env inner]
  | .node .switchStmt span [subject, clauses] =>
    .node .switchStmt span [here subject, clauses.withParts (cases sub env [] clauses.parts)]
  | .node (.enumDecl isDeclare isConst) span [name, members] =>
    .node (.enumDecl isDeclare isConst) span [here name, sub (enumNames members :: env) members]
  | .node .enumMember span [k, value] => .node .enumMember span [k, here value]
  | .node (.importNamed typeOnly) span [name, imported] =>
    .node (.importNamed typeOnly) span [here name, imported]
  | .node (.exportNamed typeOnly) span [names, source, marks] =>
    if source.isPresent then t
    else .node (.exportNamed typeOnly) span [here names, source, marks]
  | .node (.exportSpecifier typeOnly) span [name, exported] =>
    .node (.exportSpecifier typeOnly) span [here name, exported]
  | .node .tupleElement span [label, type] => .node .tupleElement span [label, here type]
  | .node (.propertySignature isReadonly isComputed isOptional) span (k :: rest) =>
    .node (.propertySignature isReadonly isComputed isOptional) span
      ((if isComputed then here k else k) :: rest.map here)
  | .node (.methodSignature isComputed isOptional) span (k :: rest) =>
    .node (.methodSignature isComputed isOptional) span
      ((if isComputed then here k else k) :: rest.map here)
  | .node (.getterSignature isComputed) span (k :: rest) =>
    .node (.getterSignature isComputed) span
      ((if isComputed then here k else k) :: rest.map here)
  | .node (.setterSignature isComputed) span (k :: rest) =>
    .node (.setterSignature isComputed) span
      ((if isComputed then here k else k) :: rest.map here)
  | .node shape span parts => .node shape span (parts.map here)

/-- The tree with the level of every name that is bound or used in it; `fuel` bounds its
height. -/
def resolveIn : (fuel : Nat) → Pass
  | 0, _, t => t
  | fuel + 1, env, t => resolveNode (resolveIn fuel) env t

/-- The module with the level of every name in it. -/
def resolve (t : Tree) : Tree := resolveIn t.height [] t

end RouteManifest.Script.Scope
