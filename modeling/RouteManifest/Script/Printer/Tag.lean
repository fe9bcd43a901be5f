import RouteManifest.Script.Printer.Function

/-!
# Writing elements in tags

Elements stand as they stood, blanks inside tags excepted: text between tags is written with its
line ends and without any others.
-/

namespace RouteManifest.Script.Printer

/-- Writes an attribute; one that spreads an object stands in braces. -/
def tagAttribute (sub : Writer) (t : Tree) : Print Unit := do
  if t.shape matches .spread _ then
    put "\x7b"
    sub t
    put "\x7d"
  else sub t

def tag (sub : Writer) (t : Tree) : Print Bool := do
  match t.shape with
  | .jsxElement =>
    sub (t.part 0)
    (t.part 1).parts.forM sub
    sub (t.part 2)
  | .jsxFragment =>
    put "<>"
    (t.part 1).parts.forM sub
    put "</>"
  | .jsxOpening selfClosing =>
    put "<"
    sub (t.part 0)
    sub (t.part 2)
    let attributes := (t.part 1).parts
    if !attributes.isEmpty then
      blank
      separated { spaced := true } (attributes.map (tagAttribute sub))
    put (if selfClosing then "/>" else ">")
  | .jsxClosing =>
    put "</"
    sub (t.part 0)
    put ">"
  | .jsxAttribute =>
    sub (t.part 0)
    after "=" sub (t.part 1)
  | .jsxContainer =>
    put "\x7b"
    if !((t.part 0).shape matches .jsxEmpty) then full sub (t.part 0)
    put "\x7d"
  | .jsxSpreadChild =>
    put "\x7b..."
    full sub (t.part 0)
    put "\x7d"
  | .jsxText raw => putLiteral t.span raw
  | .jsxMember =>
    sub (t.part 0)
    put "."
    sub (t.part 1)
  | .jsxNamespaced =>
    sub (t.part 0)
    put ":"
    sub (t.part 1)
  | _ => return false
  return true

end RouteManifest.Script.Printer
