import RouteManifest.Path

/-!
# File trees

A file tree is a finite map from places to entries: files with their bytes or with the reason why
they cannot be read, directories, and symbolic links. A place is the list of names from the root. Looking a path up follows links, also
the last one, and fails as a file system fails; a path that is not absolute starts at the current
directory of the tree.
-/

namespace RouteManifest

inductive FileError where
  | notFound
  | notDirectory
  | isDirectory
  | tooManyLinks
  | nulByte
  | notText
  | unreadable (reason : String)
  deriving DecidableEq, Repr, Inhabited

/-- The wording of the operating system, or of the reader of text. -/
def FileError.message : FileError → String
  | notFound => "No such file or directory (os error 2)"
  | notDirectory => "Not a directory (os error 20)"
  | isDirectory => "Is a directory (os error 21)"
  | tooManyLinks => "Too many levels of symbolic links (os error 40)"
  | nulByte => "file name contained an unexpected NUL byte"
  | notText => "stream did not contain valid UTF-8"
  | unreadable reason => reason

inductive Entry where
  | file (bytes : ByteArray)
  /-- a file that is there and cannot be read, for a reason in the wording of the operating system -/
  | unreadable (reason : String)
  | directory
  | link (target : String)

/-- The names from the root to a place. -/
abbrev Place := List String

structure FileTree where
  entries : List (Place × Entry)
  current : Place

namespace FileTree

/-- A tree without files, whose directories are those on the way to `current`. -/
def empty (current : Place) : FileTree :=
  ⟨(prefixes current).tail.map fun place => (place, .directory), current⟩
where
  prefixes : List String → List (List String)
    | [] => [[]]
    | x :: xs => [] :: (prefixes xs).map (x :: ·)

/-- The entry at a place, links not followed. The root is a directory. -/
def entryAt? (t : FileTree) : Place → Option Entry
  | [] => some .directory
  | place => t.entries.lookup place

/-- The entry and the place that remain when the steps are taken one by one from a place. At a link
the way goes on where its target starts, with the steps of the target before the others. -/
def walkFrom (t : FileTree) (follow : Place → List String → Except FileError (Place × Entry))
    (place : Place) : List String → Except FileError (Place × Entry)
  | [] =>
    match t.entryAt? place with
    | some entry => .ok (place, entry)
    | none => .error .notFound
  | step :: rest =>
    match t.entryAt? place with
    | some .directory =>
      if step = "" ∨ step = "." then t.walkFrom follow place rest
      else if step = ".." then t.walkFrom follow place.dropLast rest
      else
        match t.entryAt? (place ++ [step]) with
        | none => .error .notFound
        | some (.link target) =>
          let start := if (Path.mk target).isAbsolute then [] else place
          follow start ((Path.pieces target.toList).map String.ofList ++ rest)
        | some _ => t.walkFrom follow (place ++ [step]) rest
    | some _ => .error .notDirectory
    | none => .error .notFound

/-- Where the steps lead from a place; `hops` bounds the links followed on the way. -/
def walk (t : FileTree) : Nat → Place → List String → Except FileError (Place × Entry)
  | 0 => t.walkFrom fun _ _ => .error .tooManyLinks
  | hops + 1 => t.walkFrom (t.walk hops)

def maxLinks : Nat := 40

def locate (t : FileTree) (p : Path) : Except FileError (Place × Entry) :=
  if p.text = "" then .error .notFound
  else if p.text.toList.contains '\x00' then .error .nulByte
  else
    let start := if p.isAbsolute then [] else t.current
    t.walk maxLinks start ((Path.pieces p.text.toList).map String.ofList)

def isFile (t : FileTree) (p : Path) : Bool :=
  match t.locate p with
  | .ok (_, .file _) | .ok (_, .unreadable _) => true
  | _ => false

def isDirectory (t : FileTree) (p : Path) : Bool :=
  match t.locate p with
  | .ok (_, .directory) => true
  | _ => false

/-- The text of a file, whose bytes must be valid UTF-8. -/
def readText (t : FileTree) (p : Path) : Except FileError String :=
  match t.locate p with
  | .ok (_, .file bytes) =>
    match String.fromUTF8? bytes with
    | some text => .ok text
    | none => .error .notText
  | .ok (_, .unreadable reason) => .error (.unreadable reason)
  | .ok _ => .error .isDirectory
  | .error e => .error e

def placePath (place : Place) : Path := ⟨"/" ++ String.intercalate "/" place⟩

def canonical (t : FileTree) (p : Path) : Except FileError Path :=
  (t.locate p).map fun found => placePath found.1

/-- The tree with an entry at a place, whatever was there. -/
def set (t : FileTree) (place : Place) (entry : Entry) : FileTree :=
  { t with entries := (place, entry) :: t.entries.filter (·.1 ≠ place) }

/-- The tree with directories at all those places up to `place` where there was nothing. -/
def makeDirectories (t : FileTree) (place : Place) : FileTree :=
  (FileTree.empty place).entries.foldl
    (fun t (p, entry) => if (t.entryAt? p).isSome then t else t.set p entry) t

/-- The tree after writing at a place below the current directory: missing directories on the way
are made, a directory that is there stays, and so does whatever stands in the way. -/
def write (t : FileTree) (relative : Path) (entry : Entry) : FileTree :=
  let steps := ((Path.pieces relative.text.toList).map String.ofList).filter (· ≠ "")
  let place := t.current ++ steps
  let t := t.makeDirectories place.dropLast
  match t.entryAt? place with
  | none => t.set place entry
  | some (.file _) =>
    match entry with
    | .file _ => t.set place entry
    | _ => t
  | some _ => t

/-- The tree without a place and all that lies below it. -/
def remove (t : FileTree) (relative : Path) : FileTree :=
  let steps := ((Path.pieces relative.text.toList).map String.ofList).filter (· ≠ "")
  let place := t.current ++ steps
  { t with entries := t.entries.filter fun e => !place.isPrefixOf e.1 }

end FileTree

end RouteManifest
