import RouteManifest.Path
import RouteManifest.Script.Context

/-!
# Dialects of files

The extension of a file's name decides in which dialect the file is written. A file that is not
marked as typed may use tags in any case.
-/

namespace RouteManifest.Script

namespace Dialect

/-- Untyped modules with tags. -/
def plain : Dialect := ⟨false, true, false⟩

/-- Typed modules, with tags or without. -/
def typed (jsx : Bool) : Dialect := ⟨true, jsx, true⟩

def ofPath (p : Path) : Dialect :=
  match p.extension? with
  | some "ts" | some "mts" | some "cts" => typed false
  | some "tsx" => typed true
  | _ => plain

end Dialect

end RouteManifest.Script
