import RouteManifest.Script.Tree

/-!
# Addresses

An address leads from a node down to one of the nodes below it: the numbers of the parts to go
into, from the top. It stays good when parts are added behind those that it counts.
-/

namespace RouteManifest.Script

abbrev Address := List Nat

namespace Tree

/-- The node that an address leads to. -/
def at? (t : Tree) : Address → Option Tree
  | [] => some t
  | i :: below => t.parts[i]?.bind fun p => p.at? below

/-- The tree with the node at an address changed; an address that leads nowhere changes nothing. -/
def changeAt (change : Tree → Tree) (t : Tree) : Address → Tree
  | [] => change t
  | i :: below => t.withParts (t.parts.modify i fun p => p.changeAt change below)

/-- The number of nodes of a tree. -/
def size : Tree → Nat
  | node _ _ ps => sizes ps + 1
where
  sizes : List Tree → Nat
    | [] => 0
    | p :: ps => size p + sizes ps

theorem size_pos (t : Tree) : 0 < t.size := by
  cases t
  simp [size]

theorem size_eq (t : Tree) : t.size = size.sizes t.parts + 1 := by
  cases t
  simp [size, parts]

end Tree

end RouteManifest.Script
