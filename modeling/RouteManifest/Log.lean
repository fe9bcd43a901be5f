import RouteManifest.Journal
import RouteManifest.Json.Writer
import RouteManifest.Text.Identifier

/-!
# Log lines

Each event of a journal can be told in a line of the log, for people or for programs. A filter
says which events are told: by their level, and by the part of the program that they come from.
-/

namespace RouteManifest.Log

/-- How much an event matters; the first level matters most. -/
inductive Level where
  | error
  | warn
  | info
  | debug
  | trace
  deriving DecidableEq, Repr, Inhabited

namespace Level

def all : List Level := [error, warn, info, debug, trace]

def name : Level → String
  | error => "ERROR"
  | warn => "WARN"
  | info => "INFO"
  | debug => "DEBUG"
  | trace => "TRACE"

/-- From one on, the more the less it matters. -/
def rank : Level → Nat
  | error => 1
  | warn => 2
  | info => 3
  | debug => 4
  | trace => 5

end Level

/-- The value of a field of a line: a text that was written by the program, one that was quoted, or
a number. -/
inductive Field where
  | plain (s : String)
  | quoted (s : String)
  | number (n : Nat)
  deriving DecidableEq, Repr, Inhabited

structure Line where
  level : Level
  target : String
  message : String
  fields : List (String × Field)
  deriving DecidableEq, Repr, Inhabited

def partName (part : String) : String := "route_manifest_compiler::" ++ part

/-- The name of the loader as bundlers know it. -/
def pluginName : String := "transform-routes"

def showNames (names : List String) : String :=
  "[" ++ ", ".intercalate (names.map Text.showText) ++ "]"

def Line.ofEvent : Event → Line
  | .routesChosen routes =>
    ⟨.debug, partName "config", "ルートファイルを決定", [("routes", .plain routes.text)]⟩
  | .loading file =>
    ⟨.debug, partName "plugin", "ルートファイルを変換",
      [("plugin", .quoted pluginName), ("file", .plain file.text)]⟩
  | .moduleReferenced specifier module =>
    ⟨.debug, partName "routes", "ルートモジュールを解析",
      [("module", .plain specifier), ("resolved", .plain module.text)]⟩
  | .exportsRead file names =>
    ⟨.debug, partName "exports", "エクスポート解析完了",
      [("module", .plain file.text), ("exports", .plain (showNames names))]⟩
  | .exportsReused module =>
    ⟨.debug, partName "exports", "キャッシュ済みのエクスポートを再利用",
      [("module", .plain module.text)]⟩
  | .routesRead file count =>
    ⟨.debug, partName "routes", "ルート変換完了",
      [("file", .plain file.text), ("routes", .number count)]⟩
  | .noRoutes file =>
    ⟨.debug, partName "compiler", "defineRoutes の import なし", [("file", .plain file.text)]⟩
  | .compiled file calls modules =>
    ⟨.info, partName "compiler", "ルートファイル変換完了",
      [("file", .plain file.text), ("calls", .number calls), ("modules", .number modules)]⟩
  | .failed message =>
    ⟨.error, partName "plugin", "ルートファイルの変換に失敗",
      [("plugin", .quoted pluginName), ("error", .plain message)]⟩
  | .brokeDown message =>
    ⟨.error, partName "plugin", "ルートファイルの変換中に panic",
      [("plugin", .quoted pluginName), ("panic", .plain message)]⟩

namespace Line

/-- The line for people. -/
def pretty (l : Line) : String :=
  let show_ (f : String × Field) : String :=
    " " ++ f.1 ++ "=" ++
      match f.2 with
      | .plain s => s
      | .quoted s => Text.showText s
      | .number n => toString n
  let level := String.ofList (List.replicate (5 - l.level.name.length) ' ') ++ l.level.name
  level ++ " " ++ l.message ++ String.join (l.fields.map show_)

/-- The line for programs. -/
def json (l : Line) : String :=
  let value : Field → Json.Value
    | .plain s | .quoted s => .text s
    | .number n => .number n
  let fields := ("message", .text l.message) :: l.fields.map fun f => (f.1, value f.2)
  (Json.Value.object [("level", .text l.level.name), ("fields", .object fields),
    ("target", .text l.target)]).compact

end Line

/-! ## Filters -/

/-- Tells events up to a rank, of a part of the program or of all. -/
structure Directive where
  part? : Option String
  rank : Nat
  deriving DecidableEq, Repr, Inhabited

abbrev Filter := List Directive

namespace Filter

/-- Warnings and errors. -/
def usual : Filter := [⟨none, Level.warn.rank⟩]

def rank? (word : String) : Option Nat :=
  let word := word.toLower
  let levels := Level.all.map fun l => (l.name.toLower, l.rank)
  let numbers := (List.range 6).map fun n => (toString n, n)
  (levels ++ [("off", 0)] ++ numbers).lookup word

/-- A character that can stand in the name of a part. -/
def isNamePart (c : Char) : Bool := c.isAlphanum || c = '_' || c = ':' || c = '-'

/-- What a directive says; spans cannot be told apart, so one that names a span says nothing. -/
def directive? (text : String) : Option (List Directive) :=
  let name := text.toList.takeWhile (· ≠ '=')
  let level := text.toList.drop (name.length + 1)
  if text.toList.contains '[' then some []
  else if name.isEmpty || !name.all isNamePart then none
  else if name.length = text.length then
    match rank? text with
    | some rank => some [⟨none, rank⟩]
    | none => some [⟨some text, Level.trace.rank⟩]
  else
    let rank? := if level.isEmpty then some Level.error.rank else rank? (String.ofList level)
    rank?.map fun rank => [⟨some (String.ofList name), rank⟩]

/-- The filter that a text describes; a text that describes none changes nothing. -/
def ofText (text : String) : Filter :=
  let parts := (text.splitOn ",").filter (· ≠ "")
  match parts.mapM directive? with
  | none => usual
  | some found => if parts.isEmpty then [⟨none, Level.error.rank⟩] else found.flatten

/-- The directive that decides about a part: the one with the longest name that the part begins
with, and of equals the last. -/
def deciding? (f : Filter) (part : String) : Option Directive :=
  let length (d : Directive) : Nat := (d.part?.map fun p => p.length + 1).getD 0
  (f.filter fun d => d.part?.all fun p => part.startsWith p).foldl (fun best d =>
    match best with
    | none => some d
    | some b => if length b ≤ length d then some d else best) none

def passes (f : Filter) (l : Line) : Bool :=
  match f.deciding? l.target with
  | some d => l.level.rank ≤ d.rank
  | none => false

end Filter

end RouteManifest.Log
