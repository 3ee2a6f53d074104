import RoutePages.Number.Double
import RoutePages.Script.Span

/-!
# Tokens of a script

The kinds of token the grammar tells apart. Signs and words are kept as their
text; whether a word is reserved is a question for the grammar.
-/
namespace RoutePages.Script

inductive Lexeme where
  /-- the end of the source -/
  | done
  /-- an identifier or keyword, its escapes decoded -/
  | word (name : Text)
  /-- punctuation -/
  | sign (text : Text)
  | string (value : Text)
  | number (value : Double)
  | bigint
  | regex
  /-- a stretch of markup between tags and braces -/
  | markupText
  /-- characters that begin no token; `offset` is where the fault lies -/
  | fault (offset : Nat)
  deriving DecidableEq

/-- A token with the places where it starts and stops. -/
structure Token where
  lexeme : Lexeme
  start : Place
  stop : Place
  /-- a line ends between the token before and this one -/
  afterBreak : Bool
  /-- the first fault met here that does not keep the token from being read -/
  flaw : Option Nat

namespace Token

def span (t : Token) : Span := ⟨t.start.pos, t.stop.pos⟩

def isSign (t : Token) (s : Text) : Bool :=
  match t.lexeme with
  | .sign text => text == s
  | _ => false

def isWord (t : Token) (w : Text) : Bool :=
  match t.lexeme with
  | .word name => name == w
  | _ => false

def isAnyWord (t : Token) : Bool :=
  match t.lexeme with
  | .word _ => true
  | _ => false

def isString (t : Token) : Bool :=
  match t.lexeme with
  | .string _ => true
  | _ => false

def isNumber (t : Token) : Bool :=
  match t.lexeme with
  | .number _ => true
  | _ => false

def isBigint (t : Token) : Bool := t.lexeme = .bigint

def isDone (t : Token) : Bool := t.lexeme = .done

end Token

/-- Words that name no variable. -/
def keywords : List Text := Text.texts [
  "await", "break", "case", "catch", "class", "const", "continue", "debugger", "default",
  "delete", "do", "else", "export", "extends", "finally", "for", "function", "if", "import",
  "in", "instanceof", "let", "new", "return", "super", "switch", "this", "throw", "try",
  "typeof", "var", "void", "while", "with", "yield"]

/-- Words that become reserved in a module. -/
def moduleWords : List Text :=
  Text.texts ["implements", "interface", "package", "private", "protected", "public"]

/-- Is the word one that no identifier reference may use in a module? -/
def isReserved (name : Text) : Bool :=
  keywords.contains name || moduleWords.contains name ||
    (Text.texts ["null", "true", "false", "enum"]).contains name

/-- An identifier reference can begin with this token. -/
def Token.isReference (t : Token) : Bool :=
  match t.lexeme with
  | .word name => !isReserved name
  | _ => false

end RoutePages.Script
