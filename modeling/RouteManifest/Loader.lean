import RouteManifest.Compile
import RouteManifest.Diagnostic

/-!
# The loader of the routes file

A bundler asks the loader for every file. It answers for the routes file only, with the compiled
text or with the one error that stands in the way.
-/

namespace RouteManifest

structure Loader where
  project : Project
  routes : Path
  withMap : Bool

namespace Loader

/-- A failure with a single diagnostic that has no location. -/
def unexpected (text detail : String) : LoadResult := .failed [⟨text, some detail, none⟩]

def transform (l : Loader) (file : Path) (text : String) : LoadResult × Journal :=
  let (answer, journal) := compile l.project (.ofText file text) l.withMap
  let journal := journal ++ [.loading file]
  match answer with
  | .ok contents =>
    let directory := (file.parent?.map (·.text)).getD ""
    (.loaded contents (file.extension?.getD "js") directory, journal)
  | .error (.error e) => (.failed [.ofError e], .failed e.message :: journal)
  | .error (.breakdown message) =>
    (unexpected "internal error while transforming routes" message, .brokeDown message :: journal)

/-- The answer for a file, if it is the routes file. -/
def load? (l : Loader) (file : Path) : Option (LoadResult × Journal) :=
  if file.same l.routes then
    match l.project.files.readText file with
    | .ok text => some (l.transform file text)
    | .error e =>
      let summary := s!"failed to read {file.text}"
      some (unexpected summary (Diagnostic.report summary [e.message]), [])
  else none

end Loader

end RouteManifest
