/-!
# Sets of characters given by runs

A Unicode property is kept as the first and last code points of its runs, in
increasing order.
-/
namespace RoutePages.Text

/-- Is `n` in one of the increasing, disjoint runs? -/
def inRuns (n : Nat) : List (Nat × Nat) → Bool
  | [] => false
  | (first, last) :: runs => if n ≤ last then first ≤ n else inRuns n runs

end RoutePages.Text
