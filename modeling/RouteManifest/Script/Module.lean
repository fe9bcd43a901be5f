import RouteManifest.Script.Grammar.Module
import RouteManifest.Script.Comments

/-!
# Modules

A module is the tree of a text together with the comments of the text. A text that is no module
has a first fault; faults that were passed over count as well, unless reading stopped at another.
-/

namespace RouteManifest.Script

structure Module where
  tree : Tree
  comments : Comments
  deriving Inhabited

/-- The module that a text is, or why it is none. -/
def Module.ofText (dialect : Dialect) (text : List Char) : Except Stop Module :=
  let start := Grammar.State.start dialect text
  match (Grammar.moduleBody (Grammar.rulesFor text)).run start with
  | .error stop _ => .error stop
  | .ok tree s =>
    match s.scanner.failures[0]? with
    | some failure => .error (.failure failure)
    | none => .ok ⟨tree, .ofPlaced s.scanner.comments⟩

end RouteManifest.Script
