import RoutePages.Script.Scan.Quoted

/-!
# Reading the next token

The grammar decides how a stretch of source is read. `Token.next` is the plain
reading; regular expressions, template pieces, tag names and markup text have their own.
A `>` is always read alone, and joined with its neighbours by the grammar of
operators.
-/
namespace RoutePages.Script

/-- The signs of more than one character, each before its own beginnings. -/
def longSigns : List Text := Text.texts [
  "...", "===", "!==", "**=", "<<=", "&&=", "||=", "??=",
  "=>", "==", "!=", "<=", "<<", "++", "+=", "--", "-=", "**", "*=", "/=", "%=", "&&", "&=",
  "||", "|=", "^=", "??"]

/-- The signs of one character. -/
def shortSigns : Text := "\x7b\x7d()[];,~:?.<=>!+-*/%&|^@#\x60"

def signAt (p : Place) : Option Text :=
  match longSigns.find? p.at? with
  | some s => some s
  | none =>
    match p.head? with
    | some c => if c ∈ shortSigns then some [c] else none
    | none => none

def lexemeAt (p : Place) : Read :=
  match p.rest with
  | [] => ⟨.done, p, none⟩
  | c :: s =>
    if Text.isIdentifierStart c || c = '\\' then word p
    else if isDigit 10 c || (c = '.' && s.head?.any (isDigit 10)) then numeral p
    else if c = '"' || c = '\'' then string c p
    else match signAt p with
      | some sign => ⟨.sign sign, p.skip sign.length, none⟩
      | none => ⟨.fault p.pos, p.next, none⟩

/-- A token from what was read at its start. -/
def Read.token (r : Read) (start : Place) (afterBreak : Bool) (flaw : Option Nat) : Token :=
  ⟨r.lexeme, start, r.stop, afterBreak, flaw.or r.flaw⟩

/-- The token behind a gap. -/
def Gap.token (g : Gap) (read : Place → Read) : Token :=
  match g.unclosed with
  | some start => ⟨.fault start, g.stop, g.stop, g.broken, g.flaw⟩
  | none => (read g.stop).token g.stop g.broken g.flaw

/-- The next token after a place. -/
def Token.next (p : Place) : Token := (gap p).token lexemeAt

/-- Reads a token again, in another way, from its start. -/
def Token.reread (t : Token) (read : Place → Read) : Token :=
  (read t.start).token t.start t.afterBreak t.flaw

/-- The token after the `=` of an attribute: a quoted value has no escapes. -/
def Token.attributeValue (p : Place) : Token :=
  (gap p).token fun p =>
    match p.head? with
    | some '"' => tagString '"' p
    | some '\'' => tagString '\'' p
    | _ => lexemeAt p

/-- The sign that ends the template piece at a place. -/
def Token.pieceEnd (sign : Text) (p : Place) : Token :=
  let stop := (templatePiece p).stop
  ⟨.sign sign, stop, stop.skip sign.length, false, none⟩

/-- The token after a tag or a closing brace inside markup. -/
def Token.markup (p : Place) : Token :=
  match p.rest with
  | [] => ⟨.done, p, p, false, none⟩
  | c :: _ =>
    if c = '<' ∨ c = '{' then ⟨.sign [c], p, p.next, false, none⟩
    else
      let (stop, flaw) := markupFrom p.pos none p.rest
      if stop.rest.isEmpty then ⟨.fault p.pos, p, stop, false, flaw⟩
      else ⟨.markupText, p, stop, false, flaw⟩

end RoutePages.Script
