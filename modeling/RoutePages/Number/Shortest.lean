import RoutePages.Number.Double
import RoutePages.Text.Basic

/-!
# The shortest decimal that reads back

A double is written with the fewest digits that are nearer to it than to any
other double, in positional notation. Of two such decimals the nearer is taken.
-/
namespace RoutePages.Double

/-- A positive number as a ratio, with the ratios at which rounding leaves it. All four
share the denominator. `closed` says that the two ends still round to the number. -/
structure Neighbourhood where
  low : Nat
  value : Nat
  high : Nat
  den : Nat
  closed : Bool

/-- The decimals that are read as this magnitude. -/
def neighbourhood (magnitude : Nat) : Neighbourhood :=
  let (m, p) := significand magnitude
  let unit := Nat.pow 2 p
  let below := if m = Nat.pow 2 52 ∧ 0 < p then unit else 2 * unit
  { low := 4 * m * unit - below
    value := 4 * m * unit
    high := 4 * m * unit + 2 * unit
    den := Nat.pow 2 1076
    closed := m % 2 = 0 }

def Neighbourhood.holds (n : Neighbourhood) (num den : Nat) : Bool :=
  if n.closed then n.low * den ≤ num * n.den && num * n.den ≤ n.high * den
  else n.low * den < num * n.den && num * n.den < n.high * den

/-- Number of digits of the integer part of `num / den`, or minus the number of zeros
between the point and the first digit. Counts up from `from` within the fuel. -/
def pointPlace (num den : Nat) : (fuel : Nat) → (start : Int) → Int
  | 0, start => start
  | fuel + 1, start =>
    let below := match start with
      | .ofNat up => decide (num < den * Nat.pow 10 up)
      | .negSucc less => decide (num * Nat.pow 10 (less + 1) < den)
    if below then start else pointPlace num den fuel (start + 1)

/-- The point on the grid of `10 ^ (place - digits)` that is read as the number, if there
is one: its multiple of the grid's unit. -/
def gridPoint (n : Neighbourhood) (place : Int) (digits : Nat) : Option Nat :=
  let (num, den) := match (digits : Int) - place with
    | .ofNat down => (Nat.pow 10 down, 1)
    | .negSucc less => (1, Nat.pow 10 (less + 1))
  let floor := n.value * num / (n.den * den)
  let low := n.holds (floor * den) num
  let high := n.holds ((floor + 1) * den) num
  let nearerLow := 2 * n.value * num ≤ (2 * floor + 1) * (n.den * den)
  if low && (!high || nearerLow) then some floor
  else if high then some (floor + 1)
  else none

/-- The shortest grid point, from `digits` digits on. -/
def shortestFrom (n : Neighbourhood) (place : Int) : (fuel digits : Nat) → Nat × Int
  | 0, _ => (n.value / n.den, 0)
  | fuel + 1, digits =>
    match gridPoint n place digits with
    | some point => (point, place - digits)
    | none => shortestFrom n place fuel (digits + 1)

/-- The shortest decimal `d · 10 ^ e` of a positive finite magnitude. -/
def shortest (magnitude : Nat) : Nat × Int :=
  let n := neighbourhood magnitude
  shortestFrom n (pointPlace n.value n.den 650 (-330)) 18 1

/-- `d · 10 ^ e` in positional notation. -/
def positional (d : Nat) (e : Int) : Text :=
  let digits := Text.ofNat d
  match e with
  | .ofNat up => digits ++ List.replicate up '0'
  | .negSucc less =>
    let down := less + 1
    let padded := List.replicate (down + 1 - digits.length) '0' ++ digits
    let whole := padded.take (padded.length - down)
    let fraction := Text.dropEndWhile (padded.drop (padded.length - down)) (· = '0')
    if fraction.isEmpty then whole else whole ++ '.' :: fraction

/-- The shortest positional text of a number. -/
def display (x : Double) : Text :=
  let sign : Text := if x.negative then "-" else ""
  if x.isInfinite then sign ++ "inf"
  else if x.magnitude = 0 then sign ++ "0"
  else
    let (d, e) := shortest x.magnitude
    sign ++ positional d e

end RoutePages.Double
