import RoutePages.Script.Span
import RoutePages.Text.Blank

/-!
# Blanks and comments between tokens

Skips white space, comments and the old markup comments. The latter are flaws, of
which the first is kept. Behind a comment without an end no token can be read.
-/
namespace RoutePages.Script

/-- Does the character end a line? -/
def isLineEnd (c : Char) : Bool :=
  c = '\n' || c = '\r' || c.toNat = 0x2028 || c.toNat = 0x2029

/-- Where in a gap the reader is. -/
inductive GapState where
  | blank
  | line
  /-- inside a comment that began at `start` -/
  | block (start : Nat)

/-- The end of a gap: where the next token starts, whether a line ended on the way, the first
flaw, and the start of the comment that nothing closes. -/
structure Gap where
  stop : Place
  broken : Bool
  flaw : Option Nat
  unclosed : Option Nat

/-- Reads a gap. Two characters that open or close a comment are read at once. -/
def gapFrom : GapState → (pos : Nat) → (broken : Bool) → (flaw : Option Nat) → Text → Gap
  | .block start, pos, broken, flaw, [] => ⟨⟨pos, []⟩, broken, flaw, some start⟩
  | _, pos, broken, flaw, [] => ⟨⟨pos, []⟩, broken, flaw, none⟩
  | .line, pos, broken, flaw, c :: s =>
    if isLineEnd c then gapFrom .blank (pos + c.utf8Size) true flaw s
    else gapFrom .line (pos + c.utf8Size) broken flaw s
  | .block _, pos, broken, flaw, '*' :: '/' :: s => gapFrom .blank (pos + 2) broken flaw s
  | .block start, pos, broken, flaw, c :: s =>
    gapFrom (.block start) (pos + c.utf8Size) (broken || isLineEnd c) flaw s
  | .blank, pos, broken, flaw, '/' :: '/' :: s => gapFrom .line (pos + 2) broken flaw s
  | .blank, pos, broken, flaw, '/' :: '*' :: s => gapFrom (.block pos) (pos + 2) broken flaw s
  | .blank, pos, broken, flaw, '<' :: '!' :: '-' :: '-' :: s =>
    gapFrom .line (pos + 4) broken (flaw.or (some pos)) s
  | .blank, pos, true, flaw, '-' :: '-' :: '>' :: s =>
    gapFrom .line (pos + 3) true (flaw.or (some pos)) s
  | .blank, pos, broken, flaw, c :: s =>
    if isLineEnd c then gapFrom .blank (pos + c.utf8Size) true flaw s
    else if Text.isBlank c || c.toNat = 0xFEFF then gapFrom .blank (pos + c.utf8Size) broken flaw s
    else ⟨⟨pos, c :: s⟩, broken, flaw, none⟩

/-- The gap that starts at a place. -/
def gap (p : Place) : Gap := gapFrom .blank p.pos false none p.rest

end RoutePages.Script
