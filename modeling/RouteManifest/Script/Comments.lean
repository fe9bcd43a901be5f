import RouteManifest.Script.Lexer

/-!
# Comments of a text

Each comment belongs to a position: to the start of the token that it leads, or to the end of the
token that it trails. Whoever writes the tree again takes the comments of a position away as it
passes, so that none is written twice.
-/

namespace RouteManifest.Script

/-- Comments by position, those of one position in the order of the text. -/
abbrev CommentTable := List (Nat × List Comment)

namespace CommentTable

/-- Adds a comment behind those of the same position. -/
def insert (table : CommentTable) (position : Nat) (c : Comment) : CommentTable :=
  match table with
  | [] => [(position, [c])]
  | (p, cs) :: rest =>
    if p = position then (p, cs ++ [c]) :: rest else (p, cs) :: insert rest position c

/-- The comments of a position. -/
def at_ (table : CommentTable) (position : Nat) : List Comment :=
  (table.lookup position).getD []

/-- The table without the comments of a position. -/
def remove (table : CommentTable) (position : Nat) : CommentTable :=
  table.filter (·.1 ≠ position)

end CommentTable

/-- The comments of a text by the position of the token that they belong to. -/
structure Comments where
  leading : CommentTable
  trailing : CommentTable
  deriving Inhabited

namespace Comments

def empty : Comments := ⟨[], []⟩

def ofPlaced (placed : Array PlacedComment) : Comments :=
  placed.foldl (fun comments p =>
    if p.leading then { comments with leading := comments.leading.insert p.position p.comment }
    else { comments with trailing := comments.trailing.insert p.position p.comment }) empty

end Comments

end RouteManifest.Script
