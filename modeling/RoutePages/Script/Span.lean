import RoutePages.Text.Basic

/-!
# Spans and places

A span is a range of byte positions, its end not included. A place is a position
together with the text from there on.
-/
namespace RoutePages

/-- The bytes from `start` up to `stop`. -/
structure Span where
  start : Nat
  stop : Nat
  deriving DecidableEq, Repr, Inhabited

/-- A byte position in a source, with the text that follows it. -/
structure Place where
  pos : Nat
  rest : Text
  deriving Inhabited

namespace Place

def next (p : Place) : Place :=
  match p.rest with
  | [] => p
  | c :: s => ⟨p.pos + c.utf8Size, s⟩

def skip (p : Place) : Nat → Place
  | 0 => p
  | n + 1 => p.next.skip n

theorem pos_le_next (p : Place) : p.pos ≤ p.next.pos := by
  unfold next
  split <;> simp

theorem pos_le_skip (p : Place) (n : Nat) : p.pos ≤ (p.skip n).pos := by
  induction n generalizing p with
  | zero => exact Nat.le_refl _
  | succ n ih => exact Nat.le_trans p.pos_le_next (ih _)

/-- Does the text here begin with `start`? -/
def at? (p : Place) (start : Text) : Bool := start.isPrefixOf p.rest

def head? (p : Place) : Option Char := p.rest.head?

end Place
end RoutePages
