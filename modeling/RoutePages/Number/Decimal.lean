import RoutePages.Number.Double

/-!
# Decimal notation read as a double

A decimal `m · 10 ^ e` is rounded once. Exponents that leave no doubt are
answered without the power of ten.
-/
namespace RoutePages.Double

/-- The magnitude of the double nearest to `m · 10 ^ e`. -/
def nearestDecimal (m : Nat) (e : Int) : Nat :=
  if m = 0 then 0
  else match e with
    | .ofNat up => if 400 < up then infinite else nearest (m * Nat.pow 10 up) 1
    | .negSucc less =>
      let down := less + 1
      if m.log2 + 1082 < 3 * down then 0 else nearest m (Nat.pow 10 down)

def ofDecimal (m : Nat) (e : Int) : Double := ⟨false, nearestDecimal m e⟩

end RoutePages.Double
