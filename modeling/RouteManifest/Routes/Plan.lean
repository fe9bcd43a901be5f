import RouteManifest.Routes.Shape
import RouteManifest.Script.Address

/-!
# Plans

What is to be done to the routes of a tree: which of them receive which export names. Nothing else
about a tree is ever changed, so that a plan is all that sets the result apart from the source.
-/

namespace RouteManifest.Routes

open Script

/-- The export names that the route at an address receives. -/
structure Addition where
  address : Address
  names : List String
  deriving DecidableEq, Repr, Inhabited

abbrev Plan := List Addition

namespace Plan

/-- The tree with everything added. -/
def carryOut (plan : Plan) (t : Tree) : Tree :=
  plan.foldl (fun t a => t.changeAt (withExports a.names) a.address) t

/-- The plan for a tree in which the planned one stands at an address. -/
def below (address : Address) (plan : Plan) : Plan :=
  plan.map fun a => { a with address := address ++ a.address }

end Plan

end RouteManifest.Routes
