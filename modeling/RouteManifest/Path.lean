/-!
# Paths

A path is the text that names it. Its components are what the text means: doubled separators,
a trailing separator and inner `.` steps are not components, a leading `.` is. Two paths name
the same place when their components agree, although their texts may differ.

`Path.resolve` gives the absolute form of a path against a base directory.
-/

namespace RouteManifest

inductive Component where
  | root
  | here
  | up
  | name (text : String)
  deriving DecidableEq, Repr, Inhabited

namespace Component

/-- The text that a component has inside a path; that of the root is the separator itself. -/
def text : Component → String
  | root => "/"
  | here => "."
  | up => ".."
  | name s => s

end Component

/-- A path as it is written. -/
structure Path where
  text : String
  deriving DecidableEq, Repr, Inhabited

namespace Path

/-- The pieces of a text between separators, empty ones included. -/
def pieces : List Char → List (List Char)
  | [] => [[]]
  | '/' :: cs => [] :: pieces cs
  | c :: cs =>
    match pieces cs with
    | [] => [[c]]
    | p :: ps => (c :: p) :: ps

def isAbsolute (p : Path) : Bool :=
  match p.text.toList with
  | '/' :: _ => true
  | _ => false

/-- The component that a piece stands for, if any; `leading` says that nothing precedes it. -/
def pieceComponent (leading : Bool) (piece : List Char) : Option Component :=
  if piece = [] then none
  else if piece = ['.'] then if leading then some .here else none
  else if piece = ['.', '.'] then some .up
  else some (.name (String.ofList piece))

/-- The components of the pieces of a path, each with the number of pieces up to its end. -/
def numberedComponents (p : Path) : List (Nat × Component) :=
  let rec go (i : Nat) (leading : Bool) : List (List Char) → List (Nat × Component)
    | [] => []
    | piece :: rest =>
      match pieceComponent leading piece with
      | some c => (i + 1, c) :: go (i + 1) false rest
      | none => go (i + 1) false rest
  go 0 (!p.isAbsolute) (pieces p.text.toList)

def components (p : Path) : List Component :=
  let steps := p.numberedComponents.map (·.2)
  if p.isAbsolute then .root :: steps else steps

/-- Two paths name the same place. -/
def same (p q : Path) : Bool := p.components = q.components

/-- The text of the pieces from number `lo` to number `hi`. -/
def slice (p : Path) (lo hi : Nat) : String :=
  let chosen := ((pieces p.text.toList).take hi).drop lo
  String.ofList (List.intercalate ['/'] chosen)

/-- The path without its last component; the root and the empty path have none to lose. -/
def parent? (p : Path) : Option Path :=
  match p.numberedComponents.reverse with
  | [] => none
  | [_] => some ⟨if p.isAbsolute then "/" else ""⟩
  | _ :: (hi, _) :: _ => some ⟨p.slice 0 hi⟩

def fileName? (p : Path) : Option String :=
  match p.numberedComponents.getLast? with
  | some (_, .name s) => some s
  | _ => none

/-- A file name at its last dot. A name that only begins with a dot is all stem. -/
def splitName (name : String) : String × Option String :=
  let back := name.toList.reverse
  let ext := back.takeWhile (· ≠ '.')
  match back.drop ext.length with
  | [] => (name, none)
  | _ :: stem =>
    if stem = [] then (name, none)
    else (String.ofList stem.reverse, some (String.ofList ext.reverse))

def extension? (p : Path) : Option String :=
  p.fileName?.bind fun name => (splitName name).2

/-- The path up to the end of the stem of its file name. -/
def withoutExtension (p : Path) : Path :=
  match p.numberedComponents.getLast? with
  | some (hi, .name s) =>
    let stem := (splitName s).1
    if hi ≤ 1 then ⟨stem⟩ else ⟨p.slice 0 (hi - 1) ++ "/" ++ stem⟩
  | _ => p

/-- `p.join q` is `q` seen from the directory `p`. -/
def join (p q : Path) : Path :=
  if q.isAbsolute then q
  else
    match p.text.toList.getLast? with
    | none => q
    | some '/' => ⟨p.text ++ q.text⟩
    | some _ => ⟨p.text ++ "/" ++ q.text⟩

/-- The path with more text after it, whatever it ends in. -/
def append (p : Path) (s : String) : Path := ⟨p.text ++ s⟩

/-- What is left of a list after a prefix that it begins with. -/
def dropStart? : List Component → List Component → Option (List Component)
  | cs, [] => some cs
  | [], _ :: _ => none
  | c :: cs, b :: bs => if c = b then dropStart? cs bs else none

/-- The text of `p` below the directory `base`, if `base` is a prefix of its components. -/
def below? (p base : Path) : Option String :=
  match dropStart? p.components base.components with
  | none => none
  | some rest =>
    let numbered := p.numberedComponents
    let last := (numbered.getLast?.map (·.1)).getD 0
    if base.components = [] then
      some (if last = 0 then (if p.isAbsolute then "/" else "") else p.slice 0 last)
    else
      match numbered.drop (numbered.length - rest.length) with
      | [] => some ""
      | (lo, _) :: _ => some (p.slice (lo - 1) last)

/-- One more step from a list of steps, last first: `.` stays, and `..` takes one step back but
not from the root. -/
def step (steps : List Component) : Component → List Component
  | .here => steps
  | .up =>
    match steps with
    | [] => []
    | [.root] => [.root]
    | _ :: rest => rest
  | c => c :: steps

def ofComponents? : List Component → Option Path
  | [] => none
  | .root :: rest => some ⟨"/" ++ String.intercalate "/" (rest.map Component.text)⟩
  | steps => some ⟨String.intercalate "/" (steps.map Component.text)⟩

/-- The form of a path that does not depend on the current directory. The steps of an absolute
path start at the root, those of any other at `base`, of which a leading `..` takes the last
component away before anything else happens. The empty path is `base` as written. There is no
answer where no step is left. -/
def resolve? (p base : Path) : Option Path :=
  let onward (start rest : List Component) : Option Path :=
    ofComponents? (rest.foldl step start.reverse).reverse
  match p.components with
  | [] => some base
  | .root :: rest => onward [.root] rest
  | .here :: rest => onward base.components rest
  | .up :: rest =>
    match base.parent? with
    | some dir => onward dir.components rest
    | none => onward (if base.components = [.root] then [.root] else []) rest
  | .name s :: rest => onward base.components (.name s :: rest)

end Path

end RouteManifest
