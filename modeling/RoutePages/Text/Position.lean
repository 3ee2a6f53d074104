import RoutePages.Text.Basic
import RoutePages.Text.Blank

/-!
# Lines and columns

A byte offset as a line and column, both counted from one, and the line itself.
Columns count characters.
-/
namespace RoutePages

structure Position where
  line : Nat
  column : Nat
  /-- the line, without the white space at its end -/
  snippet : Text
  deriving DecidableEq

/-- The position of an offset; an offset past the end counts as the end. There is none
inside a character. -/
def Text.position? (source : Text) (offset : Nat) : Option Position := do
  let offset := min offset source.size
  let before ← source.take? offset
  let after ← source.drop? offset
  let start := before.lastLine
  return {
    line := before.count '\n' + 1
    column := start.length + 1
    snippet := Text.trimEnd (start ++ after.beforeBreak) }

end RoutePages
