import RouteManifest.Text.Hexadecimal

/-!
# Written JSON

In a text only what must be escaped is escaped, everything else stands for itself. A value is
written on one line, or with a line for each of its parts.
-/

namespace RouteManifest.Json

/-- How a character stands between quotation marks. -/
def escapeChar (c : Char) : List Char :=
  if c = '"' then ['\\', '"']
  else if c = '\\' then ['\\', '\\']
  else if c = '\x08' then ['\\', 'b']
  else if c = '\t' then ['\\', 't']
  else if c = '\n' then ['\\', 'n']
  else if c = '\x0c' then ['\\', 'f']
  else if c = '\r' then ['\\', 'r']
  else if c.toNat < 0x20 then
    ['\\', 'u', '0', '0', Text.hexDigit (c.toNat / 16), Text.hexDigit (c.toNat % 16)]
  else [c]

def quoted (s : String) : String :=
  String.ofList ('"' :: s.toList.flatMap escapeChar ++ ['"'])

/-- A value, as far as values are written. -/
inductive Value where
  | text (s : String)
  | number (n : Nat)
  | list (items : List Value)
  | object (members : List (String × Value))
  deriving Inhabited

namespace Value

def compact : Value → String
  | text s => quoted s
  | number n => toString n
  | list items => "[" ++ ",".intercalate (ofItems items) ++ "]"
  | object members => "\x7b" ++ ",".intercalate (ofMembers members) ++ "\x7d"
where
  ofItems : List Value → List String
    | [] => []
    | v :: vs => compact v :: ofItems vs
  ofMembers : List (String × Value) → List String
    | [] => []
    | (key, v) :: rest => (quoted key ++ ":" ++ compact v) :: ofMembers rest

/-- Parts between two brackets, each on a line of its own. -/
def block (indent : Nat) (opening closing : String) (parts : List String) : String :=
  let line (n : Nat) : String := "\n" ++ String.ofList (List.replicate (2 * n) ' ')
  if parts.isEmpty then opening ++ closing
  else
    opening ++ line (indent + 1) ++ ("," ++ line (indent + 1)).intercalate parts ++ line indent
      ++ closing

/-- The value on as many lines as it has parts. -/
def pretty (indent : Nat) : Value → String
  | text s => quoted s
  | number n => toString n
  | list items => block indent "[" "]" (ofItems (indent + 1) items)
  | object members => block indent "\x7b" "\x7d" (ofMembers (indent + 1) members)
where
  ofItems (indent : Nat) : List Value → List String
    | [] => []
    | v :: vs => pretty indent v :: ofItems indent vs
  ofMembers (indent : Nat) : List (String × Value) → List String
    | [] => []
    | (key, v) :: rest => (quoted key ++ ": " ++ pretty indent v) :: ofMembers indent rest

end Value

end RouteManifest.Json
