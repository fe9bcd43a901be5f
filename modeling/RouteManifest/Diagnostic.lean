import RouteManifest.Errors
import RouteManifest.Json.Writer

/-!
# Diagnostics

What a bundler is told about an error: a text, perhaps more detail, and perhaps a location. Errors
of the user's code need no more detail than their cause; an internal error comes with everything
that led to it.
-/

namespace RouteManifest

structure Diagnostic where
  text : String
  detail? : Option String
  location? : Option Location
  deriving DecidableEq, Repr, Inhabited

/-- What a bundler receives for a file that it asked for: the text of the file, in which language
it is and where its imports start from, or what is wrong with it. -/
inductive LoadResult where
  | loaded (contents loader resolveDir : String)
  | failed (errors : List Diagnostic)
  deriving DecidableEq, Repr, Inhabited

namespace LoadResult

def isError (r : LoadResult) : Bool := r matches failed _

end LoadResult

namespace Diagnostic

/-- The lines of a cause; all lines but the first are indented to where the first begins. -/
def causeLines (lead : String) (cause : String) : String :=
  let indent := String.ofList (List.replicate lead.length ' ')
  lead ++ String.intercalate ("\n" ++ indent) (cause.splitOn "\n")

/-- A number on the right of five columns, with a colon. -/
def numbered (n : Nat) : String :=
  let digits := toString n
  String.ofList (List.replicate (5 - digits.length) ' ') ++ digits ++ ": "

def numberedCauses (n : Nat) : List String → String
  | [] => ""
  | cause :: rest => "\n" ++ causeLines (numbered n) cause ++ numberedCauses (n + 1) rest

/-- An error and its causes from the outside in, as a report of several lines. -/
def report (summary : String) : List String → String
  | [] => summary
  | [cause] => summary ++ "\n\nCaused by:\n" ++ causeLines "    " cause
  | causes => summary ++ "\n\nCaused by:" ++ numberedCauses 0 causes

/-- What is told about an error. -/
def ofError (e : CompileError) : Diagnostic :=
  if e.isKnown then ⟨e.message, e.cause?, e.location?⟩
  else ⟨e.message, some (report e.message e.causes), none⟩

/-- The record that a bundler receives; what is not known is not there. -/
def json (d : Diagnostic) : Json.Value :=
  let place (l : Location) : Json.Value :=
    .object [("file", .text l.file), ("line", .number l.line), ("column", .number l.column)]
  .object (("text", .text d.text) :: (d.detail?.toList.map fun s => ("detail", .text s))
    ++ d.location?.toList.map fun l => ("location", place l))

end Diagnostic

def LoadResult.json : LoadResult → Json.Value
  | .loaded contents loader resolveDir =>
    .object [("contents", .text contents), ("loader", .text loader),
      ("resolveDir", .text resolveDir)]
  | .failed errors => .object [("errors", .list (errors.map Diagnostic.json))]

end RouteManifest
