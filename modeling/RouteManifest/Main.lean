import RouteManifest.CommandLine.Program

/-!
# The command

The program answers from a tree of files. Here the part of the disk that it looks at is read into
such a tree, piece by piece, until the answer depends on nothing else.
-/

namespace RouteManifest.Disk

open CommandLine

/-- The names of a path, without empty ones. -/
def names (text : String) : List String := (text.splitOn "/").filter (· ≠ "")

/-- A failure as the operating system words it. -/
def wording : IO.Error → String
  | .permissionDenied _ code details | .hardwareFault code details | .otherError code details =>
    s!"{details} (os error {code})"
  | failure => failure.toString

/-- The tree with what the disk has at a place and on the way to it from `place`; `hops` bounds the
links that are followed. -/
def addFrom (hops : Nat) (t : FileTree) (place : Place) : List String → IO FileTree
  | [] => return t
  | "." :: rest => addFrom hops t place rest
  | ".." :: rest => addFrom hops t place.dropLast rest
  | name :: rest => do
    let next := place ++ [name]
    let here ← IO.currentDir
    let file := here / (FileTree.placePath next).text
    match ← file.metadata.toBaseIO with
    | .error _ => return t
    | .ok data =>
      if data.type == .dir then
        let real := names (← IO.FS.realPath file).toString
        if real = next then addFrom hops (t.set next .directory) next rest
        else
          match hops with
          | 0 => return t
          | fewer + 1 =>
            let linked := t.set next (.link (FileTree.placePath real).text)
            addFrom fewer linked [] (real ++ rest)
      else
        match ← (IO.FS.readBinFile file).toBaseIO with
        | .ok bytes => return t.set next (.file bytes)
        | .error failure => return t.set next (.unreadable (wording failure))
termination_by steps => (hops, steps.length)

def add (t : FileTree) (p : Path) : IO FileTree :=
  addFrom FileTree.maxLinks t (if p.isAbsolute then [] else t.current) (names p.text)

/-- The tree with all that a run looks at. -/
partial def complete (t : FileTree) (known : List Path) (o : Options) : IO FileTree := do
  let missing := (needed t o).filter fun p => !known.contains p
  if missing.isEmpty then return t
  complete (← missing.foldlM add t) (missing ++ known) o

/-- The part of the disk that a command line is about. -/
def files (words : List String) : IO FileTree := do
  let here := names (← IO.currentDir).toString
  let t := FileTree.empty here
  match request words with
  | .run o => complete t [] o
  | _ => return t

end RouteManifest.Disk

def main (words : List String) : IO UInt32 := do
  let files ← RouteManifest.Disk.files words
  let filter ← IO.getEnv "RUST_LOG"
  let outcome := RouteManifest.CommandLine.run files filter words
  for line in outcome.errors do IO.eprintln line
  IO.print outcome.output
  return outcome.exitCode.toUInt32
