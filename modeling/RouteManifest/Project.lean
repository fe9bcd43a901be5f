import RouteManifest.Errors
import RouteManifest.FileTree

/-!
# Projects and their module files

A project is a directory of a file tree. Paths that are not absolute are meant from there. Modules
are named without their extension, or with that of the text they are compiled to; the search for
the file of a module tries the name itself, the extensions, and the index of a directory.
-/

namespace RouteManifest

/-- A directory of a file tree. -/
structure Project where
  files : FileTree
  root : Path

namespace Project

/-- The extensions of modules in the order in which they are tried. -/
def moduleExtensions : List String := ["tsx", "ts", "jsx", "js", "mjs", "cjs"]

/-- The absolute form of a path. A path from which no step is left breaks the program down, which
happens only to paths below a directory that is not absolute itself. -/
def absolute {ε : Type} (root p : Path) : Except (Halt ε) Path :=
  match p.resolve? root with
  | some found => .ok found
  | none => .error (.breakdown "capacity overflow")

/-- The path that a module specifier means in a file, before its extension is known. -/
def routeModule {ε : Type} (root importer : Path) (specifier : String) : Except (Halt ε) Path :=
  absolute root (((importer.parent?).getD ⟨""⟩).join ⟨specifier⟩)

def extended (base : Path) (extensions : List String) : List Path :=
  extensions.map fun e => base.append ("." ++ e)

/-- The first file whose path is the given one with an extension behind it. -/
def withExtension? (files : FileTree) (base : Path) (extensions : List String) : Option Path :=
  (extended base extensions).find? files.isFile

/-- The typed sources that a compiled name stands for. -/
def typedSources (base : Path) : List Path :=
  match base.extension? with
  | some "js" | some "jsx" => extended base.withoutExtension ["ts", "tsx"]
  | _ => []

def indexFiles (base : Path) : List Path := extended (base.join ⟨"index"⟩) moduleExtensions

/-- The paths that the file of a module can have. No other file matters to the search. -/
def candidates (base : Path) : List Path :=
  base :: extended base moduleExtensions ++ typedSources base ++ indexFiles base

def fileAt? (files : FileTree) (base : Path) : Option Path :=
  let index := if files.isDirectory base then (indexFiles base).find? files.isFile else none
  if files.isFile base then some base
  else
    (withExtension? files base moduleExtensions).or
      (((typedSources base).find? files.isFile).or index)

/-- The file of a module, if there is one. -/
def moduleFile {ε : Type} (p : Project) (module : Path) : Except (Halt ε) (Option Path) :=
  (absolute p.root module).map (fileAt? p.files)

end Project

end RouteManifest
