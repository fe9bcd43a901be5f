import RouteManifest.Path

/-!
# The journal

What the program did, for those who want to follow it. Nothing that it answers depends on the
journal.
-/

namespace RouteManifest

inductive Event where
  /-- it was settled which file holds the routes -/
  | routesChosen (routes : Path)
  | loading (file : Path)
  | moduleReferenced (specifier : String) (module : Path)
  | exportsRead (file : Path) (names : List String)
  /-- the exports of a module were known already -/
  | exportsReused (module : Path)
  | routesRead (file : Path) (count : Nat)
  /-- the file does not import the function that marks routes -/
  | noRoutes (file : Path)
  | compiled (file : Path) (calls modules : Nat)
  | failed (message : String)
  | brokeDown (message : String)
  deriving DecidableEq, Repr, Inhabited

/-- Events, the last one first. -/
abbrev Journal := List Event

end RouteManifest
