import RouteManifest.Path
import RouteManifest.SourceMap
import RouteManifest.Script.Printer.Module

/-!
# Printed modules

The text of a module, with its comments or without, and with a map of where its parts come from or
without. The map names the source file by its path below a directory.
-/

namespace RouteManifest.Script

/-- The name of a file in a source map: its path below the root if it is there. -/
def sourceName (file root : Path) : String :=
  let name := (file.below? root).getD file.text
  String.ofList (name.toList.map fun c => if c = '\\' then '/' else c)

/-- Where the marks of a written text come from. -/
def segments (source : List Char) (marks : Array Printer.Mark) : List SourceMap.Segment :=
  let table := Source.unitTable source
  marks.toList.filterMap fun m =>
    table[m.position - 1]?.map fun (line, column) => ⟨m.line, m.column, line, column⟩

namespace Module

def print (m : Module) (withComments : Bool) : String :=
  (Printer.pen false m (if withComments then m.comments else .empty)).text

/-- The text of a module with its map; `source` is the text that it was read from. -/
def printWithMap (m : Module) (withComments : Bool) (source : List Char) (file root : Path) :
    String :=
  let pen := Printer.pen true m (if withComments then m.comments else .empty)
  SourceMap.attach pen.text (sourceName file root) (segments source pen.marks)

end Module

end RouteManifest.Script
