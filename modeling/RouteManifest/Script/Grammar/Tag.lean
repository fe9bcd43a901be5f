import RouteManifest.Script.Grammar.Listing

/-!
# Elements in tags

Elements, fragments, their attributes and what stands between their tags.
-/

namespace RouteManifest.Script.Grammar

/-- A name inside a tag. -/
def tagIdent : Parse Tree := do
  match ← required with
  | .tagName w =>
    bump
    return identNode w (← get).last
  | _ => if (← context).inForcedTag then identRef else unexpected "jsx identifier"

/-- A name inside a tag, possibly in a namespace. -/
def namespacedName : Parse Tree := do
  let ns ← tagIdent
  if !(← eatPunct .colon) then return ns
  let name ← tagIdent
  return .node .jsxNamespaced ⟨ns.span.lo, name.span.hi⟩ [ns, name]

/-- The name of an element. -/
def elementName : Parse Tree := do
  let first ← namespacedName
  iterate first fun object => do
    if !(← eatPunct .dot) then return .done object
    let property ← tagIdent
    if let .jsxNamespaced := object.shape then throw (.breakdown .namespacedObject)
    return .again (.node .jsxMember ⟨object.span.lo, property.span.hi⟩ [object, property])

/-- The text of an element's name. -/
def qualifiedName : Tree → String
  | .node (.ident w _ _) _ _ => w
  | .node .jsxMember _ [object, property] => qualifiedName object ++ "." ++ qualifiedName property
  | .node .jsxNamespaced _ [ns, name] => qualifiedName ns ++ ":" ++ qualifiedName name
  | _ => ""

/-- An expression in braces, or nothing in braces. -/
def container (r : Rules) : Parse Tree := do
  let start ← position
  bump
  let inner ←
    if ← isPunct .rightBrace then
      let e ← lastEnd
      pure (Tree.node .jsxEmpty ⟨e, e⟩ [])
    else
      if ← isPunct .ellipsis then bump
      expression r
  expectPunct .rightBrace
  return .node .jsxContainer (← spanFrom start) [inner]

def isEmptyContainer (t : Tree) : Bool :=
  match t.shape with
  | .jsxContainer => match (t.part 0).shape with | .jsxEmpty => true | _ => false
  | _ => false

def attributeValue (r : Rules) : Parse Tree := do
  let start ← position
  match ← required with
  | .punct .leftBrace =>
    let c ← container r
    if isEmptyContainer c then fail (← spanFrom start) .emptyTagAttribute
    return c
  | .string .. => literal
  | .tagStart => r.tagElement (← position)
  | _ => failHere .invalidTagValue

def tagAttribute (r : Rules) : Parse Tree := do
  let start ← position
  if ← eatPunct .leftBrace then
    let dotsStart ← position
    expectPunct .ellipsis
    let dots ← spanFrom dotsStart
    let e ← r.assignment
    expectPunct .rightBrace
    return .node (.spread dots) ⟨dots.lo, e.span.hi⟩ [e]
  let name ← namespacedName
  let value ←
    if ← eatAssign then
      within (fun c => { c with inConditional := false, expectsColon := false }) (attributeValue r)
    else pure .absent
  return .node .jsxAttribute (← spanFrom start) [name, value]

/-- An opening tag, from after its angle bracket. -/
def openingTag (r : Rules) (start : Nat) : Parse Tree := do
  if ← eat .tagEnd then return .node .jsxFragmentEdge (← spanFrom start) []
  let name ← within (fun c => { c with anglesAreOperators := false }) elementName
  let types ←
    if (← isTypescript) && (← isBinary "<") then
      Tree.ofOption <$> attempt (some <$> typeArguments r)
    else pure .absent
  let marks ← iterate ([] : List Tree) fun items => do
    match ← sound? with
    | none | some (.binary "/") | some .tagEnd => return .done items.reverse
    | some _ => return .again ((← tagAttribute r) :: items)
  let selfClosing ← eatBinary "/"
  if !(← eat .tagEnd) then
    let closed ← if (← context).inForcedTag then eatBinary ">" else pure false
    if !closed then unexpected "> (jsx closing tag)"
  return .node (.jsxOpening selfClosing) (← spanFrom start) [name, .list marks, types]

/-- A closing tag, from after its slash. -/
def closingTag (start : Nat) : Parse Tree := do
  if ← eat .tagEnd then return .node .jsxFragmentEdge (← spanFrom start) []
  let name ← elementName
  expect .tagEnd
  return .node .jsxClosing (← spanFrom start) [name]

/-- What stands between an opening tag and its closing tag, and that tag. -/
def tagContents (r : Rules) : Parse (List Tree × Tree) :=
  iterate ([] : List Tree) fun items => do
    match ← required with
    | .tagStart =>
      let start ← position
      if ← aheadIs (.binary "/") then
        bump
        let _ ← placed?
        bump
        return .done (items.reverse, ← closingTag start)
      return .again ((← r.tagElement start) :: items)
    | .tagText raw =>
      bump
      return .again (.node (.jsxText raw) (← get).last [] :: items)
    | .punct .leftBrace =>
      if ← aheadIs (.punct .ellipsis) then
        let start ← position
        bump
        bump
        let e ← expression r
        expectPunct .rightBrace
        return .again (.node .jsxSpreadChild (← spanFrom start) [e] :: items)
      return .again ((← container r) :: items)
    | _ => unexpected "< (jsx tag start), jsx text or \x7b"

def isFragmentEdge (t : Tree) : Bool := match t.shape with | .jsxFragmentEdge => true | _ => false

/-- An element or a fragment from its angle bracket on. -/
def tagElementAt (r : Rules) (start : Nat) : Parse Tree := do
  let forced ← isBinary "<"
  bump
  within (fun c => { c with inForcedTag := forced, anglesAreOperators := false }) do
    let opening ← openingTag r start
    let selfClosing := match opening.shape with | .jsxOpening true => true | _ => false
    if selfClosing then
      return .node .jsxElement (← spanFrom start) [opening, .list [], .absent]
    let (children, closing) ← tagContents r
    let span ← spanFrom start
    if isFragmentEdge opening then
      if !isFragmentEdge closing then fail closing.span .expectedClosingFragment
      return .node .jsxFragment span [opening, .list children, closing]
    else
      let name := qualifiedName (opening.part 0)
      if isFragmentEdge closing || qualifiedName (closing.part 0) ≠ name then
        fail closing.span (.expectedClosingTag name)
      return .node .jsxElement span [opening, .list children, closing]

end RouteManifest.Script.Grammar
