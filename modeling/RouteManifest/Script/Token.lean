import RouteManifest.Script.Fault

/-!
# Tokens

The tokens of a module's text, how they are named in messages, and the classes of tokens that
decide what the next characters can be: after some tokens an expression can begin, after others
only an operator can follow.
-/

namespace RouteManifest.Script

/-- Marks that are neither binary nor assignment operators. -/
inductive Punct where
  | arrow
  | hash
  | atSign
  | dot
  | ellipsis
  | bang
  | leftParen
  | rightParen
  | leftBracket
  | rightBracket
  | leftBrace
  | rightBrace
  | semicolon
  | comma
  | backquote
  | colon
  | dollarBrace
  | question
  | plusPlus
  | minusMinus
  | tilde
  deriving DecidableEq, Repr, Inhabited

def Punct.text : Punct → String
  | arrow => "=>"
  | hash => "#"
  | atSign => "@"
  | dot => "."
  | ellipsis => "..."
  | bang => "!"
  | leftParen => "("
  | rightParen => ")"
  | leftBracket => "["
  | rightBracket => "]"
  | leftBrace => "\x7b"
  | rightBrace => "\x7d"
  | semicolon => ";"
  | comma => ","
  | backquote => "`"
  | colon => ":"
  | dollarBrace => "$\x7b"
  | question => "?"
  | plusPlus => "++"
  | minusMinus => "--"
  | tilde => "~"

inductive Token where
  /-- an identifier or a reserved word, escapes decoded -/
  | word (text : String)
  | punct (p : Punct)
  | binary (op : String)
  | assign (op : String)
  | string (value raw : String)
  | number (value raw : String)
  | bigint (value raw : String)
  | regex (body flags : String)
  /-- `bad` is a fault that only a tagged template may have -/
  | template (raw : String) (bad : Option Failure)
  | tagName (text : String)
  | tagText (raw : String)
  | tagStart
  | tagEnd
  | shebang (text : String)
  /-- characters that are no token -/
  | fault (failure : Failure)
  deriving DecidableEq, Repr, Inhabited

namespace Token

/-- The words that are tokens of their own. -/
def keywords : List String :=
  ["await", "break", "case", "catch", "continue", "debugger", "default", "do", "else", "finally",
   "for", "function", "if", "return", "switch", "throw", "try", "var", "let", "const", "while",
   "with", "new", "this", "super", "class", "extends", "export", "import", "yield", "in",
   "instanceof", "typeof", "void", "delete"]

def isKeyword (w : String) : Bool := keywords.contains w

/-- The words that are literals. -/
def literalWords : List String := ["null", "true", "false"]

/-- The words that cannot name a variable. Module code is always strict. -/
def reservedWords : List String :=
  keywords ++ literalWords ++
    ["enum", "implements", "package", "protected", "interface", "private", "public"]

def isReserved (w : String) : Bool := reservedWords.contains w

/-- The name of a token in a message. -/
def display : Token → String
  | word w => w
  | punct p => p.text
  | binary op => op
  | assign op => op
  | string value raw => s!"string literal ({value}, {raw})"
  | number value raw => s!"numeric literal ({value}, {raw})"
  | bigint value raw => s!"bigint literal ({value}, {raw})"
  | regex body flags => s!"regexp literal ({body}, {flags})"
  | template raw _ => s!"template token ({raw})"
  | tagName text => s!"jsx name ({text})"
  | tagText raw => s!"jsx text ({raw})"
  | tagStart => "< (jsx tag start)"
  | tagEnd => "> (jsx tag end)"
  | shebang _ => "#!"
  | fault _ => "<lexing error>"

/-- The keywords after which an expression begins. -/
def wordsBeforeExpr : List String :=
  ["await", "case", "default", "do", "else", "return", "throw", "new", "extends", "yield", "in",
   "instanceof", "typeof", "void", "delete"]

/-- After the token an expression can begin. -/
def beforeExpr : Token → Bool
  | word w => wordsBeforeExpr.contains w
  | binary _ | assign _ | tagText _ => true
  | punct p =>
    match p with
    | .arrow | .ellipsis | .bang | .leftParen | .leftBracket | .leftBrace | .semicolon | .comma
    | .colon | .dollarBrace | .question | .tilde => true
    | _ => false
  | _ => false

/-- The keywords that begin an expression. -/
def wordsStartingExpr : List String :=
  ["await", "function", "throw", "new", "this", "super", "class", "import", "yield", "typeof",
   "void", "delete"]

/-- An expression can begin with the token. -/
def startsExpr : Token → Bool
  | word w => !isKeyword w || wordsStartingExpr.contains w
  | binary op => op = "+" || op = "-" || op = "<" || op = "/"
  | punct p =>
    match p with
    | .bang | .leftParen | .leftBracket | .leftBrace | .backquote | .dollarBrace | .plusPlus
    | .minusMinus | .tilde => true
    | _ => false
  | string .. | number .. | bigint .. | regex .. | tagStart => true
  | _ => false

/-- What a token is to the characters after it. -/
inductive Role where
  | template
  | dot
  | colon
  | leftBrace
  | rightParen
  | semicolon
  | binary (op : String)
  | keyword (word : String)
  | tagName
  | tagText
  | tagStart
  | tagEnd
  | arrow
  | other (beforeExpr trailingComment : Bool)
  deriving DecidableEq, Repr, Inhabited

/-- A comment on the same line after the token belongs to it. -/
def takesComment : Token → Bool
  | number .. | string .. | regex .. | bigint .. | tagText _ => true
  | word w => !isKeyword w && !literalWords.contains w
  | punct .dollarBrace | punct .rightBrace => true
  | _ => false

def role (t : Token) : Role :=
  match t with
  | template .. => .template
  | punct .dot => .dot
  | punct .colon => .colon
  | punct .leftBrace => .leftBrace
  | punct .rightParen => .rightParen
  | punct .semicolon => .semicolon
  | punct .arrow => .arrow
  | tagEnd => .tagEnd
  | tagStart => .tagStart
  | tagText _ => .tagText
  | tagName _ => .tagName
  | binary op => .binary op
  | word w => if isKeyword w then .keyword w else .other t.beforeExpr t.takesComment
  | _ => .other t.beforeExpr t.takesComment

namespace Role

/-- A block comment on the line of the token belongs to the token. -/
def takesBlockComment : Role → Bool
  | semicolon | leftBrace => true
  | other _ trailing => trailing
  | _ => false

/-- A line comment on the line of the token belongs to the token. -/
def takesLineComment : Role → Bool
  | binary _ => false
  | _ => true

/-- After the token an expression can begin. -/
def beforeExpr : Role → Bool
  | colon | leftBrace | semicolon | arrow | binary _ | tagText => true
  | keyword w => wordsBeforeExpr.contains w
  | other before _ => before
  | _ => false

end Role

end Token

/-- A comment without its marks. -/
structure Comment where
  isLine : Bool
  span : Span
  text : String
  deriving Repr, Inhabited

end RouteManifest.Script
