import RouteManifest.Path
import RouteManifest.CommandLine.Similar

/-!
# Options

What the words of a command line ask for. Options have a long name behind two dashes, some also a
letter behind one; a value follows in the same word or in the next one. Words are gone through from
left to right, and a value is looked at only when the next option is known, or at the end.
-/

namespace RouteManifest.CommandLine

/-- The options there are. -/
inductive Switch where
  | projectRoot
  | routes
  | sourceMap
  | logFormat
  | help
  | version
  deriving DecidableEq, Repr, Inhabited

namespace Switch

def all : List Switch := [projectRoot, routes, sourceMap, logFormat, help, version]

def longName : Switch → String
  | projectRoot => "project-root"
  | routes => "routes"
  | sourceMap => "source-map"
  | logFormat => "log-format"
  | help => "help"
  | version => "version"

def letter? : Switch → Option Char
  | projectRoot => some 'r'
  | help => some 'h'
  | version => some 'V'
  | _ => none

/-- What the value of an option is called, if it takes one. -/
def valueName? : Switch → Option String
  | projectRoot => some "DIR"
  | routes => some "FILE"
  | logFormat => some "LOG_FORMAT"
  | _ => none

def takesValue (s : Switch) : Bool := s.valueName?.isSome

/-- The option as it is shown. -/
def display (s : Switch) : String :=
  "--" ++ s.longName ++ ((s.valueName?.map fun v => " <" ++ v ++ ">").getD "")

def ofLongName? (name : String) : Option Switch := all.find? (·.longName = name)

def ofLetter? (c : Char) : Option Switch := all.find? (·.letter? = some c)

end Switch

/-- How the log is written. -/
inductive LogFormat where
  | pretty
  | json
  deriving DecidableEq, Repr, Inhabited

namespace LogFormat

def all : List LogFormat := [pretty, json]

def name : LogFormat → String
  | pretty => "pretty"
  | json => "json"

def ofName? (name : String) : Option LogFormat := all.find? (·.name = name)

end LogFormat

/-- What a run goes by. -/
structure Options where
  projectRoot : Path
  routes : Option Path
  withMap : Bool
  logFormat : LogFormat
  deriving DecidableEq, Repr, Inhabited

def Options.usual : Options := ⟨⟨"."⟩, none, false, .pretty⟩

/-- Why a command line is refused. -/
inductive Refusal where
  | unknown (word : String) (meant : Option Switch) (used : List Switch)
  | repeated (s : Switch)
  | valueMissing (s : Switch)
  | invalidValue (s : Switch) (value : String)
  | valueTaken (s : Switch) (value : String) (used : List Switch)
  deriving DecidableEq, Repr, Inhabited

/-- What a command line comes to. -/
inductive Request where
  | run (options : Options)
  | help (long : Bool)
  | version
  | refused (r : Refusal)
  deriving DecidableEq, Repr, Inhabited

/-- An option that was met last, with its value if there is one; it was not looked at yet. -/
structure Open where
  switch : Switch
  value : Option String
  deriving DecidableEq, Repr, Inhabited

/-- What the words so far have come to. -/
structure Progress where
  options : Options
  used : List Switch
  open_ : Option Open
  deriving DecidableEq, Repr, Inhabited

namespace Progress

/-- The options with the value of one more. -/
def withValue (options : Options) (s : Switch) (value : String) : Except Refusal Options :=
  match s with
  | .projectRoot =>
    if value = "" then .error (.valueMissing s) else .ok { options with projectRoot := ⟨value⟩ }
  | .routes =>
    if value = "" then .error (.valueMissing s) else .ok { options with routes := some ⟨value⟩ }
  | .logFormat =>
    match LogFormat.ofName? value with
    | some format => .ok { options with logFormat := format }
    | none =>
      if value = "" then .error (.valueMissing s) else .error (.invalidValue s value)
  | .sourceMap | .help | .version => .ok options

/-- Looks at the open option. The progress is told also where something is wrong. -/
def settle (p : Progress) : Progress × Option Refusal :=
  match p.open_ with
  | none => (p, none)
  | some ⟨s, none⟩ => ({ p with open_ := none }, some (.valueMissing s))
  | some ⟨s, some value⟩ =>
    if p.used.contains s then
      ({ p with used := p.used.filter (· ≠ s), open_ := none }, some (.repeated s))
    else
      let settled := { p with used := p.used ++ [s], open_ := none }
      match withValue p.options s value with
      | .ok options => ({ settled with options }, none)
      | .error r => (settled, some r)

/-- Goes on after the open option was looked at. -/
def afterSettling (p : Progress) (next : Progress → Except Request Progress) :
    Except Request Progress :=
  match p.settle with
  | (p, none) => next p
  | (_, some r) => .error (.refused r)

/-- An option without a value. -/
def flag (p : Progress) (s : Switch) (isLong : Bool) : Except Request Progress :=
  p.afterSettling fun p =>
    match s with
    | .help => .error (.help isLong)
    | .version => .error .version
    | _ =>
      if p.used.contains s then .error (.refused (.repeated s))
      else .ok { p with used := p.used ++ [s], options := { p.options with withMap := true } }

/-- An option that takes a value. One that comes in the same word is looked at at once. -/
def valued (p : Progress) (s : Switch) (value : Option String) : Except Request Progress :=
  p.afterSettling fun p =>
    let p := { p with open_ := some ⟨s, value⟩ }
    if value.isSome then p.afterSettling .ok else .ok p

/-- Options with one more, unless it is among them. -/
def including (s : Switch) (used : List Switch) : List Switch :=
  if used.contains s then used else used ++ [s]

/-- A word that is no option and no value. -/
def unknown (p : Progress) (word : String) (meant : Option Switch) (showUsed : Bool) :
    Except Request Progress :=
  let used := p.settle.1.used
  let used := (meant.map fun s => including s used).getD used
  .error (.refused (.unknown word meant (if showUsed then used else [])))

/-- A word behind two dashes. -/
def long (p : Progress) (word : String) : Except Request Progress :=
  let name := String.ofList (word.toList.takeWhile (· ≠ '='))
  let value :=
    if name.length = word.length then none
    else some (String.ofList (word.toList.drop (name.length + 1)))
  match Switch.ofLongName? name with
  | none =>
    let meant := (mostSimilar? name (Switch.all.map Switch.longName)).bind Switch.ofLongName?
    p.unknown ("--" ++ name) meant true
  | some s =>
    if s.takesValue then p.valued s value
    else
      match value with
      | some value => .error (.refused (.valueTaken s value (including s p.used)))
      | none => p.flag s true

/-- The letters behind one dash. -/
def letters (p : Progress) : List Char → Except Request Progress
  | [] => .ok p
  | c :: cs =>
    match Switch.ofLetter? c with
    | none => p.unknown ("-" ++ String.singleton c) none false
    | some s =>
      if s.takesValue then
        let value :=
          match cs with
          | [] => none
          | '=' :: rest => some (String.ofList rest)
          | _ => some (String.ofList cs)
        p.valued s value
      else
        match p.flag s false with
        | .ok p => p.letters cs
        | .error r => .error r

/-- One more word. -/
def word (p : Progress) (w : String) : Except Request Progress :=
  match w.toList with
  | '-' :: '-' :: rest => p.long (String.ofList rest)
  | '-' :: c :: rest => p.letters (c :: rest)
  | _ =>
    match p.open_ with
    | some ⟨s, none⟩ => .ok { p with open_ := some ⟨s, some w⟩ }
    | _ => p.unknown w none false

/-- All words; behind two dashes alone no word is an option. -/
def words (p : Progress) : List String → Except Request Progress
  | [] => .ok p
  | "--" :: [] => .ok p
  | "--" :: w :: _ => p.unknown w none false
  | w :: rest =>
    match p.word w with
    | .ok p => p.words rest
    | .error r => .error r

end Progress

/-- What the words of a command line ask for. -/
def request (words : List String) : Request :=
  match (Progress.mk .usual [] none).words words with
  | .error r => r
  | .ok p =>
    match p.settle with
    | (p, none) => .run p.options
    | (_, some r) => .refused r

end RouteManifest.CommandLine
