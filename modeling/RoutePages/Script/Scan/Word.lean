import RoutePages.Script.Scan.Numeral

/-!
# Words

Identifiers and keywords. An escape in a word must give a character that could
stand there unescaped; a reserved word must be written without escapes.
-/
namespace RoutePages.Script

/-- A word as far as it could be read; `malformed` is the position of an escape that
stopped it. -/
structure WordRead where
  name : Text
  stop : Place
  escaped : Bool
  malformed : Option Nat
  flaw : Option Nat

/-- Reads on in a word; `skip` characters of an escape are still to be passed over. -/
def wordFrom : (first : Bool) → (skip pos : Nat) → Text → WordRead
  | _, _, pos, [] => ⟨[], ⟨pos, []⟩, false, none, none⟩
  | first, skip + 1, pos, c :: s => wordFrom first skip (pos + c.utf8Size) s
  | first, 0, pos, c :: s =>
    let fits := if first then Text.isIdentifierStart else Text.isIdentifierPart
    if c = '\\' then
      match s with
      | 'u' :: more =>
        match unicodeEscape more with
        | .stands value length =>
          let tail := wordFrom false (length - 1) (pos + 1) s
          { tail with
            name := value ++ tail.name
            escaped := true
            flaw := if value.head?.any fits then tail.flaw else some pos }
        | _ => ⟨[], ⟨pos + 1, s⟩, true, some pos, none⟩
      | _ => ⟨[], ⟨pos + 1, s⟩, true, some pos, none⟩
    else if fits c then
      let tail := wordFrom false 0 (pos + c.utf8Size) s
      { tail with name := c :: tail.name }
    else ⟨[], ⟨pos, c :: s⟩, false, none, none⟩

/-- The word at a place where one begins. -/
def word (p : Place) : Read :=
  let w := wordFrom true 0 p.pos p.rest
  match w.malformed with
  | some offset => ⟨.fault offset, w.stop, w.flaw⟩
  | none =>
    if w.escaped && isReserved w.name then ⟨.fault p.pos, w.stop, w.flaw⟩
    else ⟨.word w.name, w.stop, w.flaw⟩

/-- A name inside a tag may hold hyphens. -/
def tagWord (p : Place) : Read :=
  let name := p.rest.takeWhile fun c => Text.isIdentifierPart c || c = '-'
  ⟨.word name, p.skip name.length, none⟩

end RoutePages.Script
