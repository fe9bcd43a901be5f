import RouteManifest.Text.Hexadecimal

/-!
# Quoted text

The text of a string literal that was not in the source: the quotation mark that occurs less often
inside is put around, and what could not stand between the marks is escaped. Halves of surrogate
pairs are no characters, so that a text holds them as their escapes; the backslash of such an escape
stays alone.
-/

namespace RouteManifest.Script.Printer

open Text

/-- How a character stands inside quotation marks; `next` is the character after it. -/
def escapeChar (c : Char) (next : Option Char) : List Char :=
  if c = '\x00' then
    if (next.map Char.isDigit).getD false then ['\\', 'x', '0', '0'] else ['\\', '0']
  else if c = '\x08' then ['\\', 'b']
  else if c = '\x0c' then ['\\', 'f']
  else if c = '\n' then ['\\', 'n']
  else if c = '\r' then ['\\', 'r']
  else if c = '\x0b' then ['\\', 'v']
  else if c = '\t' then [c]
  else if c = '\u2028' then ['\\', 'u', '2', '0', '2', '8']
  else if c = '\u2029' then ['\\', 'u', '2', '0', '2', '9']
  else if c = '\uFEFF' then ['\\', 'u', 'F', 'E', 'F', 'F']
  else if c.toNat < 0x20 then ['\\', 'x', hexDigit (c.toNat / 16), hexDigit (c.toNat % 16)]
  else [c]

/-- Four digits of a number from `D800` to `DFFF`. -/
def isHalf (d x y z : Char) : Bool :=
  (d = 'D' || d = 'd') && (hexDigit? x).any (8 ≤ ·) && (hexDigit? y).isSome && (hexDigit? z).isSome

/-- Behind a backslash, the text goes on as the escape of half a surrogate pair does. A bracket
before the digits is enough, whether it is closed behind them or not. -/
def continuesHalf : List Char → Bool
  | 'u' :: '\x7b' :: d :: x :: y :: z :: _ => isHalf d x y z
  | 'u' :: d :: x :: y :: z :: _ => isHalf d x y z
  | _ => false

/-- A text with its characters escaped, quotation marks excepted. -/
def escaped : List Char → List Char
  | [] => []
  | c :: cs =>
    (if c = '\\' then if continuesHalf cs then ['\\'] else ['\\', '\\']
      else escapeChar c cs.head?) ++ escaped cs

def quoted (s : String) : String :=
  let cs := s.toList
  let body := escaped cs
  let mark := if cs.count '"' > cs.count '\'' then '\'' else '"'
  let inner := body.flatMap fun c => if c = mark then ['\\', c] else [c]
  String.ofList (mark :: inner ++ [mark])

end RouteManifest.Script.Printer
