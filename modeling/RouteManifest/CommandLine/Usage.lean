import RouteManifest.CommandLine.Options

/-!
# Texts of the command line

What is printed to those who ask for help, and to those whose command line is refused.
-/

namespace RouteManifest.CommandLine

def programName : String := "route-manifest-compiler"

def versionText : String := programName ++ " 0.1.0\n"

/-- How the program is called with some options, or with any. -/
def usage (used : List Switch) : String :=
  let shown := if used.isEmpty then ["[OPTIONS]"] else used.map Switch.display
  "Usage: " ++ " ".intercalate (programName :: shown)

/-- What the program is for. -/
def purpose : String :=
  "ルート定義ファイルを変換し、バンドラのロードフックと同じ結果を JSON で出力する"

/-- What an option is for. -/
def explanation (long : Bool) : Switch → String
  | .projectRoot => "プロジェクトルート (package.json のあるディレクトリ)"
  | .routes =>
    "ルートファイル。省略時は package.json の `\"rr-bundler\".routes` か `app/routes.*`"
  | .sourceMap => "インライン source map を付ける"
  | .logFormat => "ログ形式"
  | .help =>
    if long then "Print help (see a summary with '-h')" else "Print help (see more with '--help')"
  | .version => "Print version"

/-- The value that an option has if it is not given. -/
def default? : Switch → Option String
  | .projectRoot => some "."
  | .logFormat => some LogFormat.pretty.name
  | _ => none

def formatExplanation : LogFormat → String
  | .pretty => "人間向け"
  | .json => "1 行 1 JSON"

/-- An option with its letter, in the column of options. -/
def optionColumn (s : Switch) : String :=
  let letter :=
    match s.letter? with
    | some c => "-" ++ String.singleton c ++ ", "
    | none => "    "
  "  " ++ letter ++ s.display

def blanks (n : Nat) : String := String.ofList (List.replicate n ' ')

def defaultNote (s : Switch) : Option String := (default? s).map fun d => "[default: " ++ d ++ "]"

def possibleFormats : String :=
  "[possible values: " ++ ", ".intercalate (LogFormat.all.map LogFormat.name) ++ "]"

/-- The lines of an option in the full help. -/
def longEntry (s : Switch) : List String :=
  let indented (text : String) : String := blanks 10 ++ text
  let width := (LogFormat.all.map fun f => f.name.length).foldl max 0
  let format (f : LogFormat) : String :=
    indented ("- " ++ f.name ++ ":" ++ blanks (width + 1 - f.name.length) ++ formatExplanation f)
  let formats :=
    if s = .logFormat then "" :: indented "Possible values:" :: LogFormat.all.map format else []
  let note := ((defaultNote s).map fun n => [indented "", indented n]).getD []
  [optionColumn s, indented (explanation true s)] ++ formats ++ note

/-- The line of an option in the summary. -/
def shortEntry (s : Switch) : String :=
  let width := (Switch.all.map fun s => (optionColumn s).length).foldl max 0
  let column := optionColumn s
  let notes := (defaultNote s).toList ++ if s = .logFormat then [possibleFormats] else []
  column ++ blanks (width + 2 - column.length) ++ " ".intercalate (explanation false s :: notes)

/-- The full help, or its summary. -/
def helpText (long : Bool) : String :=
  let entries :=
    if long then "\n\n".intercalate (Switch.all.map fun s => "\n".intercalate (longEntry s))
    else "\n".intercalate (Switch.all.map shortEntry)
  purpose ++ "\n\n" ++ usage [] ++ "\n\nOptions:\n" ++ entries ++ "\n"

/-- The lines that tell why a command line is refused. -/
def Refusal.lines (r : Refusal) : List String :=
  let formats (s : Switch) : List String :=
    if s = .logFormat then ["  " ++ possibleFormats] else []
  let own :=
    match r with
    | .unknown word meant used =>
      let tip :=
        (meant.map fun s => ["", s!"  tip: a similar argument exists: '--{s.longName}'"]).getD []
      [s!"error: unexpected argument '{word}' found"] ++ tip ++ ["", usage used]
    | .repeated s =>
      [s!"error: the argument '{s.display}' cannot be used multiple times", "", usage []]
    | .valueMissing s =>
      s!"error: a value is required for '{s.display}' but none was supplied" :: formats s
    | .invalidValue s value =>
      let tip :=
        ((mostSimilar? value (LogFormat.all.map LogFormat.name)).map fun name =>
          ["", s!"  tip: a similar value exists: '{name}'"]).getD []
      s!"error: invalid value '{value}' for '{s.display}'" :: formats s ++ tip
    | .valueTaken s value used =>
      [s!"error: unexpected value '{value}' for '--{s.longName}' found; no more were expected", "",
        usage used]
  own ++ ["", "For more information, try '--help'."]

end RouteManifest.CommandLine
