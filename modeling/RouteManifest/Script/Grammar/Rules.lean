import RouteManifest.Script.Grammar.Name

/-!
# Rules that refer to each other

The rules of the grammar refer to each other without end: a statement holds expressions, which hold
functions, which hold statements. A reader that needs a rule defined later takes it from a record
of rules; tying the knot is left to the module that has them all.
-/

namespace RouteManifest.Script.Grammar

/-- The rules that are needed before they are defined. -/
structure Rules where
  /-- an expression without commas -/
  assignment : Parse Tree
  plainAssignment : Parse Tree
  /-- an operand with the operators before and after it -/
  unary : Parse Tree
  /-- the operators of at least a precedence, with their right operands, after a left operand -/
  binaryTail : Tree → Nat → Parse Tree
  /-- what follows an operand: calls unless `noCalls`, members -/
  subscripts : (callee : Tree) → (noCalls noComputed : Bool) → Parse Tree
  /-- the operand of `new`, with its members -/
  newCallee : (isNew : Bool) → Parse Tree
  leftHandSide : Parse Tree
  statement : (declarations topLevel : Bool) → Parse Tree
  pattern : Parse Tree
  type_ : Parse Tree
  operatorType : Parse Tree
  namespaceDecl : (start : Nat) → Parse Tree
  tagElement : (start : Nat) → Parse Tree
  ifStatement : Parse Tree
  deriving Inhabited

/-- Expressions separated by commas, of which the first is read already. -/
def sequenceAfter (r : Rules) (start : Nat) (first : Tree) : Parse Tree := do
  if !(← isPunct .comma) then return first
  let items ← iterate [first] fun items => do
    if ← eatPunct .comma then return .again ((← r.assignment) :: items)
    else return .done items.reverse
  return .node .sequence (← spanFrom start) items

def expression (r : Rules) : Parse Tree := do
  let start ← position
  let first ← r.assignment
  sequenceAfter r start first

/-- A reader where `in` is an operator. -/
def withIn {α : Type} (p : Parse α) : Parse α := within (fun c => { c with includesIn := true }) p

/-- A reader where `in` is no operator. -/
def withoutIn {α : Type} (p : Parse α) : Parse α :=
  within (fun c => { c with includesIn := false }) p

def inType {α : Type} (p : Parse α) : Parse α := within (fun c => { c with inType := true }) p

def propertyKey (r : Rules) : Parse Tree :=
  within (fun c => { c with inPropertyName := true }) do
    let start ← position
    match ← required with
    | .string .. | .number .. | .bigint .. => literal
    | .word w =>
      bump
      return identNode w (← spanFrom start)
    | .punct .leftBracket =>
      bump
      let innerStart ← position
      let first ← withIn r.assignment
      let e ←
        if (← isTypescript) && (← isPunct .comma) then
          let items ← iterate [first] fun items => do
            if ← eatPunct .comma then return .again ((← withIn r.assignment) :: items)
            else return .done items.reverse
          report (← spanFrom innerStart) .commaInComputedKey
          pure (Tree.node .sequence (← spanFrom innerStart) items)
        else pure first
      expectPunct .rightBracket
      return .node .computed (← spanFrom start) [e]
    | _ => unexpected "identifier, string literal, numeric literal or [ for the computed key"

/-- The annotation of a type after a colon, which is taken if `eatColon`. -/
def typeClause (r : Rules) (eatColon : Bool) (start : Nat) : Parse Tree :=
  inType do
    if eatColon then bump
    let t ← r.type_
    return .node .typeClause (← spanFrom start) [t]

/-- The annotation of a type, if a colon follows. -/
def typeClause? (r : Rules) : Parse Tree := do
  if ← isPunct .colon then typeClause r true (← position)
  else return .absent

/-! ## Modifiers -/

/-- A word that is no keyword and no literal. -/
def isPlainWord (w : String) : Bool := !Token.isKeyword w && !Token.literalWords.contains w

/-- The next token shows that a word before it was a modifier. -/
def canFollowModifier : Parse Bool := do
  bump
  if ← afterBreak then return false
  match ← current? with
  | some (.punct .leftBracket) | some (.punct .leftBrace) | some (.punct .ellipsis)
  | some (.punct .hash) | some (.binary "*") | some (.word _) | some (.string ..)
  | some (.number ..) | some (.bigint ..) => return true
  | _ => return false

/-- One of the modifiers, if the next token allows it to be one. -/
def modifier? (allowed : List String) (notStaticBlock : Bool) : Parse (Option String) := do
  if !(← isTypescript) then return none
  match ← required with
  | .word w =>
    if !(isPlainWord w || w = "in" || w = "const") then return none
    if !allowed.contains w then return none
    if ← pure (notStaticBlock && w == "static") <&&> aheadIs (.punct .leftBrace) then
      return none
    let found ← attempt do return if ← canFollowModifier then some () else none
    return found.map fun _ => w
  | _ => return none

/-- The modifiers that limit who sees or writes a member. -/
def accessAndReadonly : List String := ["public", "protected", "private", "readonly"]

/-- Passes a modifier where none may stand; says whether there was one. -/
def eatModifier : Parse Bool := do
  if !(← isTypescript) then return false
  match ← sound? with
  | some (.word w) =>
    if !accessAndReadonly.contains w then return false
    match ← ahead? with
    | some (.word _) | some (.punct .leftBrace) | some (.punct .leftBracket) =>
      let _ ← modifier? accessAndReadonly false
      return true
    | _ => return false
  | _ => return false

def accessModifier? : Parse (Option String) := modifier? ["public", "protected", "private"] false

end RouteManifest.Script.Grammar
