import RouteManifest.Errors
import RouteManifest.Journal

/-!
# Sessions

A session remembers the exports of the modules that were read in it, so that each module is read
once however many routes refer to it. Work in a session may end early, with an error or with a
breakdown; the session stays as it was by then.
-/

namespace RouteManifest

/-- Export names by module. Two paths that name the same place are the same module. -/
structure Cache where
  entries : List (Path × List String)
  /-- how many modules were read -/
  extractions : Nat
  deriving DecidableEq, Repr, Inhabited

namespace Cache

def empty : Cache := ⟨[], 0⟩

def find? (c : Cache) (module : Path) : Option (List String) :=
  (c.entries.find? fun e => e.1.same module).map (·.2)

def store (c : Cache) (module : Path) (names : List String) : Cache :=
  ⟨(module, names) :: c.entries, c.extractions + 1⟩

end Cache

structure Session where
  cache : Cache
  journal : Journal
  deriving DecidableEq, Repr, Inhabited

def Session.fresh : Session := ⟨.empty, []⟩

/-- Work in a session. -/
abbrev Work (ε : Type) := ExceptT (Halt ε) (StateM Session)

namespace Work

/-- Work that ends with an error. -/
def fail {ε α : Type} (e : ε) : Work ε α := throw (.error e)

/-- The answer of a part of the program that needs no session. -/
def ofExcept {ε α : Type} : Except (Halt ε) α → Work ε α
  | .ok a => pure a
  | .error halt => throw halt

/-- Writes an event into the journal. -/
def record {ε : Type} (event : Event) : Work ε Unit :=
  modify fun s => { s with journal := event :: s.journal }

/-- The same work with its errors read as other errors. -/
def mapError {ε δ α : Type} (f : ε → δ) (work : Work ε α) : Work δ α := fun s =>
  match work s with
  | (.ok a, s) => (.ok a, s)
  | (.error (.error e), s) => (.error (.error (f e)), s)
  | (.error (.breakdown message), s) => (.error (.breakdown message), s)

end Work

end RouteManifest
