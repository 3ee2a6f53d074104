/-!
# Double-precision numbers

A double is kept as its sign and the other 63 bits read as one natural number.
That number grows with the absolute value, so rounding, overflow and the
subnormal range need no cases of their own. All arithmetic is exact rational
arithmetic followed by one rounding to nearest, ties to even.
-/
namespace RoutePages

/-- A double without the NaNs. -/
structure Double where
  negative : Bool
  magnitude : Nat
  deriving DecidableEq

namespace Double

/-- The magnitude of the infinities. -/
def infinite : Nat := 0x7FF * Nat.pow 2 52

def zero : Double := ⟨false, 0⟩

def neg (x : Double) : Double := { x with negative := !x.negative }

def isInfinite (x : Double) : Bool := infinite ≤ x.magnitude

def bits (x : Double) : Nat := (if x.negative then Nat.pow 2 63 else 0) + x.magnitude

/-- The quotient rounded to an integer, a half going to the even neighbour. -/
def roundDiv (num den : Nat) : Nat :=
  let q := num / den
  let twice := 2 * (num % den)
  if twice < den then q
  else if den < twice then q + 1
  else q + q % 2

/-- The significand of a magnitude, and its power of two counted from the smallest one. -/
def significand (magnitude : Nat) : Nat × Nat :=
  let field := magnitude / Nat.pow 2 52
  let fraction := magnitude % Nat.pow 2 52
  if field = 0 then (fraction, 0) else (Nat.pow 2 52 + fraction, field - 1)

/-- The power of two, counted from the smallest one, at which `num / den` has a significand
of 53 bits; zero when it has none. -/
def scale (num den : Nat) : Nat :=
  let guess := num.log2 + 1022 - den.log2
  if den * Nat.pow 2 (guess + 52) ≤ num * Nat.pow 2 1074 then guess else guess - 1

/-- The magnitude of the double nearest to `num / den`. -/
def nearest (num den : Nat) : Nat :=
  let power := scale num den
  let rounded := roundDiv (num * Nat.pow 2 1074) (den * Nat.pow 2 power) + power * Nat.pow 2 52
  if rounded < infinite then rounded else infinite

def ofRatio (negative : Bool) (num den : Nat) : Double := ⟨negative, nearest num den⟩

def ofNat (n : Nat) : Double := ofRatio false n 1

/-- The product, rounded. -/
def mul (x y : Double) : Double :=
  let (m, p) := significand x.magnitude
  let (n, q) := significand y.magnitude
  ofRatio (x.negative != y.negative) (m * n * Nat.pow 2 (p + q)) (Nat.pow 2 2148)

/-- The quotient by a nonzero number, rounded. -/
def div (x y : Double) : Double :=
  let (m, p) := significand x.magnitude
  let (n, q) := significand y.magnitude
  ofRatio (x.negative != y.negative) (m * Nat.pow 2 p) (n * Nat.pow 2 q)

end Double
end RoutePages
