import RouteManifest.Script.Printer.Function

/-!
# Writing types

Types and the members of interfaces and type literals, each of which ends with a semicolon on a
line of its own.
-/

namespace RouteManifest.Script.Printer

/-- Writes a modifier of a mapped type, which may be added or removed. -/
def mappedModifier (sign : String) (word : String) : Print Unit := do
  if sign = "+" || sign = "-" then put sign
  put word

/-- Writes the key of a member, in brackets if it is computed. -/
def memberKey (sub : Writer) (isComputed : Bool) (key : Tree) : Print Unit := do
  if isComputed then put "["
  full sub key
  if isComputed then put "]"

/-- Writes a type signature: type parameters, parameters, and the result behind a colon. -/
def signature (sub : Writer) (items result types : Tree) : Print Unit := do
  sub types
  parameters sub items.parts
  typeBehindColon sub result

def typeMember (sub : Writer) (t : Tree) : Print Bool := do
  match t.shape with
  | .callSignature =>
    sub (t.part 2)
    parameters sub (t.part 0).parts
    after " : " sub (t.part 1)
  | .constructSignature =>
    put "new"
    signature sub (t.part 0) (t.part 1) (t.part 2)
  | .propertySignature isReadonly isComputed isOptional =>
    flag isReadonly "readonly"
    memberKey sub isComputed (t.part 0)
    if isOptional then put "?"
    typeBehindColon sub (t.part 1)
  | .methodSignature isComputed isOptional =>
    memberKey sub isComputed (t.part 0)
    if isOptional then put "?"
    signature sub (t.part 1) (t.part 2) (t.part 3)
  | .getterSignature isComputed =>
    put "get "
    memberKey sub isComputed (t.part 0)
    put "()"
    typeBehindColon sub (t.part 1)
  | .setterSignature isComputed =>
    put "set "
    memberKey sub isComputed (t.part 0)
    put "("
    sub (t.part 1)
    put ")"
  | .indexSignature isReadonly isStatic =>
    flag isStatic "static"
    flag isReadonly "readonly"
    put "["
    putList .commas ((t.part 0).parts.map sub)
    put "]"
    typeBehindColon sub (t.part 1)
  | _ => return false
  return true

/-- Writes the members of a type in braces. -/
def typeMembers (sub : Writer) (members : List Tree) : Print Unit := do
  put "\x7b"
  putList .block <| members.map fun member => do
    sub member
    put ";"
  put "\x7d"

def type (sub : Writer) (t : Tree) : Print Bool := do
  match t.shape with
  | .typeClause => sub (t.part 0)
  | .typeParameters | .typeArguments =>
    put "<"
    putList .commas (t.parts.map sub)
    put ">"
  | .typeParameter isIn isOut isConst =>
    flag isConst "const"
    flag isIn "in"
    flag isOut "out"
    sub (t.part 0)
    after " extends " sub (t.part 1)
    after " = " sub (t.part 2)
  | .heritage =>
    full sub (t.part 0)
    sub (t.part 1)
  | .keywordType text => putMarked t.span text
  | .thisType => putMarked t.span "this"
  | .functionType =>
    sub (t.part 1)
    parameters sub (t.part 0).parts
    put " => "
    sub (t.part 2)
  | .constructorType isAbstract =>
    flag isAbstract "abstract"
    put "new"
    sub (t.part 1)
    parameters sub (t.part 0).parts
    put " => "
    sub (t.part 2)
  | .typeReference =>
    sub (t.part 0)
    sub (t.part 1)
  | .qualifiedName =>
    sub (t.part 0)
    put "."
    sub (t.part 1)
  | .typeQuery =>
    put "typeof "
    sub (t.part 0)
    sub (t.part 1)
  | .importType =>
    put "import("
    sub (t.part 0)
    put ")"
    after "." sub (t.part 1)
    sub (t.part 2)
  | .typeLiteral => typeMembers sub t.parts
  | .arrayType =>
    sub (t.part 0)
    put "[]"
  | .tupleType =>
    put "["
    putList .commas (t.parts.map sub)
    put "]"
  | .tupleElement =>
    let label := t.part 0
    if label.isPresent then
      full sub label
      put ": "
    sub (t.part 1)
  | .optionalType =>
    sub (t.part 0)
    put "?"
  | .restType =>
    put "..."
    sub (t.part 0)
  | .unionType => putList { separator := " |", spaced := true } (t.parts.map sub)
  | .intersectionType => putList { separator := " &", spaced := true } (t.parts.map sub)
  | .conditionalType =>
    sub (t.part 0)
    put " extends "
    sub (t.part 1)
    put " ? "
    sub (t.part 2)
    put " : "
    sub (t.part 3)
  | .inferType =>
    put "infer "
    sub (t.part 0)
  | .parenType =>
    put "("
    sub (t.part 0)
    put ")"
  | .operatorType op =>
    put s!"{op} "
    sub (t.part 0)
  | .indexedType =>
    sub (t.part 0)
    put "["
    sub (t.part 1)
    put "]"
  | .mappedType isReadonly isOptional =>
    put "\x7b"
    endLine
    indented do
      if let some sign := isReadonly then mappedModifier sign "readonly "
      put "["
      let parameter := t.part 0
      sub (parameter.part 0)
      after " in " sub (parameter.part 1)
      put "]"
      if let some sign := isOptional then mappedModifier sign "?"
      typeBehindColon sub (t.part 2)
      put ";"
      endLine
    put "\x7d"
  | .literalType => sub (t.part 0)
  | .templateType =>
    put "`"
    templateHoles sub (t.part 1).parts (t.part 0).parts
    put "`"
  | .typePredicate asserts =>
    flag asserts "asserts"
    sub (t.part 0)
    after " is " sub (t.part 1)
  | .interfaceBody => typeMembers sub t.parts
  | _ => return ← typeMember sub t
  return true
where
  templateHoles (sub : Writer) : List Tree → List Tree → Print Unit
    | stretch :: stretches, [] => do
      sub stretch
      templateHoles sub stretches []
    | stretch :: stretches, h :: holes => do
      sub stretch
      put "$\x7b"
      sub h
      put "\x7d"
      templateHoles sub stretches holes
    | [], _ => pure ()

end RouteManifest.Script.Printer
