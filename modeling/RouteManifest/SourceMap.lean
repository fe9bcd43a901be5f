import RouteManifest.Json.Writer
import RouteManifest.Text.Base64

/-!
# Source maps

A source map says of places in a written text where in the source they come from. Its segments
are written as differences to the segment before, each number in base 64 with the sign in the
lowest bit and five bits to a digit. The map stands in a comment at the end of the text.
-/

namespace RouteManifest.SourceMap

/-- A place of the text and the place of the source that it comes from, all from zero. -/
structure Segment where
  line : Nat
  column : Nat
  sourceLine : Nat
  sourceColumn : Nat
  deriving DecidableEq, Repr, Inhabited

def digits32 (n : Nat) : List Nat :=
  if n < 32 then [n] else (n % 32 + 32) :: digits32 (n / 32)
termination_by n
decreasing_by omega

/-- A number with its sign in the lowest bit. -/
def signed (i : Int) : Nat := if i < 0 then 2 * i.natAbs + 1 else 2 * i.natAbs

def number (i : Int) : List Char := (digits32 (signed i)).map Text.Base64.digit

/-- The characters of a segment behind another one; `previousColumn` is zero on a new line. -/
def difference (previousColumn : Nat) (previous s : Segment) : List Char :=
  number (s.column - previousColumn) ++ number 0 ++
    number (s.sourceLine - previous.sourceLine) ++ number (s.sourceColumn - previous.sourceColumn)

def mappingsAfter (previous : Segment) : List Segment → List Char
  | [] => []
  | s :: rest =>
    if s = previous then mappingsAfter previous rest
    else
      let breaks := List.replicate (s.line - previous.line) ';'
      let lead := if breaks.isEmpty then [','] else breaks
      let column := if breaks.isEmpty then previous.column else 0
      lead ++ difference column previous s ++ mappingsAfter s rest

def mappings : List Segment → List Char
  | [] => []
  | s :: rest =>
    List.replicate s.line ';' ++ difference 0 ⟨0, 0, 0, 0⟩ s ++ mappingsAfter s rest

/-- The text of a map for one source file, which is not named if nothing comes from it. -/
def json (file : String) (segments : List Segment) : String :=
  let sources := if segments.isEmpty then "" else Json.quoted file
  let written := String.ofList (mappings segments)
  "\x7b\"version\":3,\"sources\":[" ++ sources ++ "],\"names\":[],\"mappings\":\"" ++ written
    ++ "\"\x7d"

/-- A text with its map in a comment behind it. -/
def attach (text file : String) (segments : List Segment) : String :=
  let text := if text.endsWith "\n" then text else text ++ "\n"
  let encoded := Text.Base64.encode (json file segments).toUTF8.toList
  text ++ "//# sourceMappingURL=data:application/json;base64," ++ String.ofList encoded ++ "\n"

end RouteManifest.SourceMap
