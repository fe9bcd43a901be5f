import RouteManifest.Source

/-!
# Syntax trees

One type serves for every node of a module: a node says what it is (its shape, with all that is
not a node itself), where it stands, and which nodes it is made of. The parts of a node stand in
a fixed order for each shape, given beside the constructor; the order is the one in which a
traversal visits them. A part that may be missing is then a node of shape `absent`, and a part of
any length is a node of shape `list`.

The order of the parts is not always that of the source: a class keeps its members before its
base class, and a function its body before its result type.
-/

namespace RouteManifest.Script

/-- The modifiers that a class member or a parameter property can carry. -/
structure Modifiers where
  access : Option String
  isStatic : Bool
  isAbstract : Bool
  isOverride : Bool
  isReadonly : Bool
  isDeclare : Bool
  isOptional : Bool
  isDefinite : Bool
  deriving DecidableEq, Repr, Inhabited

/-- No modifier at all. -/
def Modifiers.none : Modifiers := ⟨Option.none, false, false, false, false, false, false, false⟩

/-- What a function is besides its parts. -/
structure FunctionFlags where
  isAsync : Bool
  isGenerator : Bool
  deriving DecidableEq, Repr, Inhabited

inductive MethodKind where
  | method
  | getter
  | setter
  deriving DecidableEq, Repr, Inhabited

/-- What a node is. Behind each constructor stand the parts of such a node in order; `?` marks a
part that may be `absent`, and `*` a `list`. -/
inductive Shape where
  /-- a part that is missing -/
  | absent
  /-- a part of any length -/
  | list
  /-- a stretch of source where an error was met and passed over -/
  | invalid
  -- module items
  /-- items -/
  | moduleBody (shebang : Option String)
  /-- specifiers*, source, attributes? -/
  | importDecl (typeOnly : Bool)
  /-- local name, imported name? -/
  | importNamed (typeOnly : Bool)
  /-- local name -/
  | importDefault
  /-- local name -/
  | importStar
  /-- declaration -/
  | exportDecl
  /-- specifiers*, source?, attributes? -/
  | exportNamed (typeOnly : Bool)
  /-- the name inside, the exported name? -/
  | exportSpecifier (typeOnly : Bool)
  /-- exported name -/
  | exportStarAs
  /-- exported name -/
  | exportDefaultFrom
  /-- source, attributes? -/
  | exportAll (typeOnly : Bool)
  /-- function expression, class expression or interface declaration -/
  | exportDefaultDecl
  /-- expression -/
  | exportDefaultExpr
  /-- name, reference -/
  | importEquals (isExport typeOnly : Bool)
  /-- source -/
  | externalReference
  /-- expression -/
  | exportAssignment
  /-- name -/
  | namespaceExport
  -- statements
  /-- statements -/
  | block
  | emptyStmt
  | debuggerStmt
  /-- object, body -/
  | withStmt
  /-- argument? -/
  | returnStmt
  /-- label, body -/
  | labeledStmt
  /-- label? -/
  | breakStmt
  /-- label? -/
  | continueStmt
  /-- test, consequent, alternate? -/
  | ifStmt
  /-- discriminant, cases* -/
  | switchStmt
  /-- test?, statements* -/
  | switchCase
  /-- argument -/
  | throwStmt
  /-- block, handler?, finalizer? -/
  | tryStmt
  /-- parameter?, body -/
  | catchClause
  /-- test, body -/
  | whileStmt
  /-- test, body -/
  | doWhileStmt
  /-- init?, test?, update?, body -/
  | forStmt
  /-- left, right, body -/
  | forInStmt
  /-- left, right, body -/
  | forOfStmt (isAwait : Bool)
  /-- expression -/
  | exprStmt
  -- declarations
  /-- name, function -/
  | functionDecl (isDeclare : Bool)
  /-- name, class -/
  | classDecl (isDeclare : Bool)
  /-- declarators -/
  | variableDecl (kind : String) (isDeclare : Bool)
  /-- declarators -/
  | usingDecl (isAwait : Bool)
  /-- target, init? -/
  | declarator (isDefinite : Bool)
  /-- name, type parameters?, extends*, body -/
  | interfaceDecl (isDeclare : Bool)
  /-- members -/
  | interfaceBody
  /-- name, type parameters?, type -/
  | typeAliasDecl (isDeclare : Bool)
  /-- name, members* -/
  | enumDecl (isDeclare isConst : Bool)
  /-- name, init? -/
  | enumMember
  /-- name, body? -/
  | namespaceDecl (isDeclare isGlobal : Bool)
  /-- items -/
  | namespaceBlock
  /-- name, body -/
  | innerNamespace (isDeclare isGlobal : Bool)
  -- functions and classes
  /-- parameters*, decorators*, body?, type parameters?, result type? -/
  | function (flags : FunctionFlags)
  /-- decorators*, target -/
  | parameter
  /-- decorators*, target -/
  | parameterProperty (modifiers : Modifiers)
  /-- expression -/
  | decorator
  /-- decorators*, members*, base?, type parameters?, base type arguments?, implements* -/
  | classBody (isAbstract : Bool)
  /-- key, parameters*, body? -/
  | constructor (modifiers : Modifiers)
  /-- key, function -/
  | methodMember (kind : MethodKind) (modifiers : Modifiers)
  /-- key, value?, type?, decorators* -/
  | fieldMember (modifiers : Modifiers)
  /-- key, value?, type?, decorators* -/
  | accessorMember (modifiers : Modifiers)
  /-- block -/
  | staticBlock
  /-- parameters*, type? -/
  | indexSignature (isReadonly isStatic : Bool)
  | emptyMember
  -- names and literals
  /-- a name; `scope` is the number of the scope that binds it, or zero -/
  | ident (name : String) (scope : Nat) (isOptional : Bool)
  /-- name -/
  | privateName
  | stringLit (value : String) (raw : Option String)
  | numberLit (raw : String)
  | bigintLit (raw : String)
  | boolLit (value : Bool)
  | nullLit
  | regexLit (body flags : String)
  -- expressions
  | thisExpr
  | superExpr
  | importCallee
  /-- elements, with `absent` for a hole -/
  | arrayLit
  /-- properties -/
  | objectLit
  /-- argument of the three dots at `dots` -/
  | spread (dots : Span)
  /-- name?, function -/
  | functionExpr
  /-- name?, class -/
  | classExpr
  /-- argument -/
  | unary (op : String)
  /-- argument -/
  | update (op : String) (before : Bool)
  /-- left, right -/
  | binary (op : String)
  /-- left, right -/
  | assign (op : String)
  /-- object, property -/
  | member
  /-- expression -/
  | computed
  /-- test, consequent, alternate -/
  | conditional
  /-- callee, arguments*, type arguments? -/
  | call
  /-- callee, arguments?*, type arguments? -/
  | newExpr
  /-- expressions -/
  | sequence
  /-- parameters*, body, type parameters?, result type? -/
  | arrow (flags : FunctionFlags)
  /-- argument? -/
  | yieldExpr (delegate : Bool)
  /-- argument -/
  | awaitExpr
  | newTarget
  | importMeta
  /-- expression -/
  | paren
  /-- expressions*, quasis* -/
  | template
  | templateElement (raw : String) (tail : Bool)
  /-- tag, type arguments?, template -/
  | taggedTemplate
  /-- a `member` or a `call` -/
  | optionalChain (optional : Bool)
  -- object properties
  /-- key, value -/
  | keyValue
  /-- key, value -/
  | assignProp
  /-- key, result type?, body -/
  | getterProp
  /-- key, parameter, body -/
  | setterProp
  /-- key, function -/
  | methodProp
  -- patterns
  /-- name, type? -/
  | bindingIdent
  /-- elements*, type? -/
  | arrayPattern (isOptional : Bool)
  /-- properties*, type? -/
  | objectPattern (isOptional : Bool)
  /-- target, type? -/
  | restPattern (dots : Span)
  /-- target, default -/
  | assignPattern
  /-- key, target -/
  | keyValuePattern
  /-- key, default? -/
  | shorthandPattern
  -- elements in tags
  /-- opening, children*, closing? -/
  | jsxElement
  /-- name, attributes*, type arguments? -/
  | jsxOpening (selfClosing : Bool)
  /-- name -/
  | jsxClosing
  /-- opening, children*, closing -/
  | jsxFragment
  | jsxFragmentEdge
  /-- name, value? -/
  | jsxAttribute
  /-- expression or `jsxEmpty` -/
  | jsxContainer
  /-- expression -/
  | jsxSpreadChild
  | jsxText (raw : String)
  | jsxEmpty
  /-- object, property -/
  | jsxMember
  /-- namespace, name -/
  | jsxNamespaced
  -- expressions with types
  /-- expression, type -/
  | typeAssertion
  /-- expression -/
  | constAssertion
  /-- expression -/
  | nonNull
  /-- expression, type -/
  | asExpr
  /-- expression, type -/
  | satisfiesExpr
  /-- expression, type arguments -/
  | instantiation
  -- types
  /-- type -/
  | typeClause
  /-- parameters -/
  | typeParameters
  /-- name, constraint?, default? -/
  | typeParameter (isIn isOut isConst : Bool)
  /-- types -/
  | typeArguments
  /-- expression, type arguments? -/
  | heritage
  | keywordType (text : String)
  | thisType
  /-- parameters*, type parameters?, result type -/
  | functionType
  /-- parameters*, type parameters?, result type -/
  | constructorType (isAbstract : Bool)
  /-- name, type arguments? -/
  | typeReference
  /-- left, right -/
  | qualifiedName
  /-- name, type arguments? -/
  | typeQuery
  /-- source, qualifier?, type arguments? -/
  | importType
  /-- members -/
  | typeLiteral
  /-- element -/
  | arrayType
  /-- elements -/
  | tupleType
  /-- label?, type -/
  | tupleElement
  /-- type -/
  | optionalType
  /-- type -/
  | restType
  /-- types -/
  | unionType
  /-- types -/
  | intersectionType
  /-- check, extends, then, else -/
  | conditionalType
  /-- type parameter -/
  | inferType
  /-- type -/
  | parenType
  /-- type -/
  | operatorType (op : String)
  /-- object, index -/
  | indexedType
  /-- type parameter, key type?, type? -/
  | mappedType (isReadonly isOptional : Option String)
  /-- literal -/
  | literalType
  /-- types*, quasis* -/
  | templateType
  /-- name, type? -/
  | typePredicate (asserts : Bool)
  -- members of types
  /-- parameters*, result type?, type parameters? -/
  | callSignature
  /-- parameters*, result type?, type parameters? -/
  | constructSignature
  /-- key, type? -/
  | propertySignature (isReadonly isComputed isOptional : Bool)
  /-- key, parameters*, result type?, type parameters? -/
  | methodSignature (isComputed isOptional : Bool)
  /-- key, result type? -/
  | getterSignature (isComputed : Bool)
  /-- key, parameter -/
  | setterSignature (isComputed : Bool)
  deriving Inhabited

/-- A node: its shape, its place in the source, and its parts. -/
inductive Tree where
  | node (shape : Shape) (span : Span) (parts : List Tree)
  deriving Inhabited

namespace Tree

def shape : Tree → Shape
  | node s _ _ => s

def span : Tree → Span
  | node _ s _ => s

def parts : Tree → List Tree
  | node _ _ ps => ps

/-- The missing part. -/
def absent : Tree := node .absent .nowhere []

/-- A part of any length. -/
def list (items : List Tree) : Tree := node .list .nowhere items

def ofOption : Option Tree → Tree
  | some t => t
  | none => absent

def isAbsent : Tree → Bool
  | node .absent _ _ => true
  | _ => false

def isPresent (t : Tree) : Bool := !t.isAbsent

/-- The part number `i`, counted from zero. -/
def part (t : Tree) (i : Nat) : Tree := t.parts.getD i absent

/-- The node with another span. -/
def withSpan (t : Tree) (span : Span) : Tree := node t.shape span t.parts

/-- The node with other parts. -/
def withParts (t : Tree) (parts : List Tree) : Tree := node t.shape t.span parts

/-- The node with another part number `i`. -/
def setPart (t : Tree) (i : Nat) (p : Tree) : Tree := t.withParts (t.parts.set i p)

/-- The name of an identifier. -/
def name? : Tree → Option String
  | node (.ident n _ _) _ _ => some n
  | _ => none

/-- The longest way down from a node, in nodes. -/
def height : Tree → Nat
  | node _ _ ps => heights ps + 1
where
  heights : List Tree → Nat
    | [] => 0
    | p :: ps => max (height p) (heights ps)

end Tree

end RouteManifest.Script
