import RoutePages.Script.Scan.Word

/-!
# Strings, template pieces, regular expressions and markup text

A string that its line does not close is a flaw at its quote. A malformed escape
is a fault in a string; in a template it matters only where the piece is used as
text.
-/
namespace RoutePages.Script

/-- Quoted text as far as it could be read. -/
structure QuotedRead where
  value : Text
  stop : Place
  malformed : Option Nat
  octal : Option Nat
  closed : Bool

/-- Reads on in a string; `skip` characters of an escape are still to be passed over. -/
def stringFrom (quote : Char) : (skip pos : Nat) → Text → QuotedRead
  | _, pos, [] => ⟨[], ⟨pos, []⟩, none, none, false⟩
  | skip + 1, pos, c :: s => stringFrom quote skip (pos + c.utf8Size) s
  | 0, pos, c :: s =>
    if c = quote then ⟨[], ⟨pos + c.utf8Size, s⟩, none, none, true⟩
    else if c = '\n' ∨ c = '\r' then ⟨[], ⟨pos, c :: s⟩, none, none, false⟩
    else if c = '\\' then
      match escape s with
      | .stands value length =>
        let tail := stringFrom quote (length - 1) (pos + 1) s
        { tail with value := value ++ tail.value }
      | .octal value length =>
        let tail := stringFrom quote (length - 1) (pos + 1) s
        { tail with value := value :: tail.value, octal := some pos }
      | .malformed => ⟨[], ⟨pos + 1, s⟩, some pos, none, true⟩
    else
      let tail := stringFrom quote 0 (pos + c.utf8Size) s
      { tail with value := c :: tail.value }

/-- The string whose opening quote stands at the place. -/
def string (quote : Char) (p : Place) : Read :=
  let q := stringFrom quote 0 p.next.pos p.next.rest
  match q.malformed with
  | some offset => ⟨.fault offset, q.stop, q.octal⟩
  | none => ⟨.string q.value, q.stop, q.octal.or (flawAt (!q.closed) p.pos)⟩

/-- Reads on in a template up to the next backtick or substitution. Line breaks become
line feeds. -/
def templateFrom : (skip pos : Nat) → Text → QuotedRead
  | _, pos, [] => ⟨[], ⟨pos, []⟩, none, none, false⟩
  | skip + 1, pos, c :: s => templateFrom skip (pos + c.utf8Size) s
  | 0, pos, c :: s =>
    if c = '\x60' || (c = '$' && s.head? = some '{') then ⟨[], ⟨pos, c :: s⟩, none, none, true⟩
    else if c = '\\' then
      match escape s with
      | .stands value length =>
        let tail := templateFrom (length - 1) (pos + 1) s
        { tail with value := value ++ tail.value }
      | _ =>
        let tail := templateFrom (min 1 s.length) (pos + 1) s
        { tail with malformed := tail.malformed.or (some pos) }
    else if c = '\r' then
      let tail := templateFrom (if s.head? = some '\n' then 1 else 0) (pos + 1) s
      { tail with value := '\n' :: tail.value }
    else
      let tail := templateFrom 0 (pos + c.utf8Size) s
      { tail with value := c :: tail.value }

/-- The template piece at a place. -/
def templatePiece (p : Place) : QuotedRead := templateFrom 0 p.pos p.rest

/-- The end of the body of a regular expression, behind its closing slash. -/
def regexBodyFrom : (inSet escaped : Bool) → (pos : Nat) → Text → Option Place
  | _, _, _, [] => none
  | inSet, escaped, pos, c :: s =>
    if isLineEnd c then none
    else if escaped then regexBodyFrom inSet false (pos + c.utf8Size) s
    else if c = '/' && !inSet then some ⟨pos + 1, s⟩
    else regexBodyFrom (c = '[' || (inSet && c ≠ ']')) (c = '\\') (pos + c.utf8Size) s

/-- The regular expression whose opening slash stands at the place, with its flags. -/
def regex (p : Place) : Read :=
  match regexBodyFrom false false p.next.pos p.next.rest with
  | none => ⟨.fault p.pos, p.next, none⟩
  | some stop =>
    if stop.head?.any Text.isIdentifierStart then
      let flags := stop.rest.takeWhile Text.isIdentifierPart
      ⟨.regex, stop.skip flags.length, none⟩
    else ⟨.regex, stop, none⟩

/-- The value of a tag's attribute between quotes, without escapes. -/
def tagString (quote : Char) (p : Place) : Read :=
  let value := p.next.rest.takeWhile (· ≠ quote)
  let stop := p.next.skip value.length
  if stop.rest.isEmpty then ⟨.fault p.pos, stop, none⟩ else ⟨.string value, stop.next, none⟩

/-- Text between tags up to the next tag or brace. A closing brace or bracket in it is a
flaw. -/
def markupFrom : (pos : Nat) → (flaw : Option Nat) → Text → Place × Option Nat
  | pos, flaw, [] => (⟨pos, []⟩, flaw)
  | pos, flaw, c :: s =>
    if c = '<' ∨ c = '{' then (⟨pos, c :: s⟩, flaw)
    else markupFrom (pos + c.utf8Size) (if c = '>' ∨ c = '}' then flaw.or (some pos) else flaw) s

end RoutePages.Script
