import RoutePages.Text.Runs

/-!
# Blank characters

The Unicode property White_Space.
-/
namespace RoutePages.Text

/-- The runs of White_Space. -/
def blankRuns : List (Nat × Nat) := [
  (9, 13), (32, 32), (133, 133), (160, 160), (5760, 5760), (8192, 8202), (8232, 8233), (8239,
  8239), (8287, 8287), (12288, 12288)]

def isBlank (c : Char) : Bool := inRuns c.toNat blankRuns

def trimEnd (s : List Char) : List Char := (s.reverse.dropWhile isBlank).reverse

def trim (s : List Char) : List Char := trimEnd (s.dropWhile isBlank)

end RoutePages.Text
