/-!
# Text and byte positions

A text is a list of characters. Positions in it are counted in UTF-8 bytes, so
a position names a place in the text only where a character ends. `take?`,
`drop?` and `slice?` fail on every other position.
-/
namespace RoutePages

abbrev Text := List Char

/-- A string literal stands for its characters. -/
instance : Coe String Text := ⟨String.toList⟩

namespace Text

/-- The texts of some string literals. -/
def texts (strings : List String) : List Text := strings.map String.toList

/-- The lines of a text, each ended by a line feed. -/
def lines (strings : List String) : Text := strings.flatMap fun s => s.toList ++ ['\n']

/-- Number of bytes of a text in UTF-8. -/
def size : Text → Nat
  | [] => 0
  | c :: s => c.utf8Size + size s

/-- What follows the first `n` bytes. -/
def drop? : Nat → Text → Option Text
  | 0, s => some s
  | _ + 1, [] => none
  | n + 1, c :: s => if c.utf8Size ≤ n + 1 then drop? (n + 1 - c.utf8Size) s else none

/-- The first `n` bytes. -/
def take? : Nat → Text → Option Text
  | 0, _ => some []
  | _ + 1, [] => none
  | n + 1, c :: s =>
    if c.utf8Size ≤ n + 1 then (take? (n + 1 - c.utf8Size) s).map (c :: ·) else none

def slice? (s : Text) (start stop : Nat) : Option Text :=
  if start ≤ stop then (s.drop? start).bind (Text.take? (stop - start)) else none

/-- Does a character end at byte `n`, or the text begin there? -/
def isBoundary (s : Text) (n : Nat) : Bool := (s.drop? n).isSome

def startsWith (s start : Text) : Bool := start.isPrefixOf s

def endsWith (s ending : Text) : Bool := ending.isSuffixOf s

/-- What follows `start`, where the text begins with it. -/
def after? : (start s : Text) → Option Text
  | [], s => some s
  | _ :: _, [] => none
  | p :: start, c :: s => if p = c then after? start s else none

/-- Does `part` occur somewhere in the other text? -/
def occursIn (part : Text) : Text → Bool
  | [] => part.isEmpty
  | c :: s => part.isPrefixOf (c :: s) || occursIn part s

/-- Replaces the occurrences of `old` from left to right; `skip` characters of an
occurrence already replaced are still to be passed over. -/
def replaceFrom (old new : Text) : (skip : Nat) → Text → Text
  | _, [] => []
  | skip + 1, _ :: s => replaceFrom old new skip s
  | 0, c :: s =>
    if old.isPrefixOf (c :: s) then new ++ replaceFrom old new (old.length - 1) s
    else c :: replaceFrom old new 0 s

def replace (s old new : Text) : Text := replaceFrom old new 0 s

/-- The parts between the separators, empty ones included. -/
def splitOn (separator : Char) : Text → List Text
  | [] => [[]]
  | c :: s =>
    if c = separator then [] :: splitOn separator s
    else match splitOn separator s with
      | [] => [[c]]
      | part :: parts => (c :: part) :: parts

/-- Drops the characters at the end that satisfy `p`. -/
def dropEndWhile (s : Text) (p : Char → Bool) : Text := (s.reverse.dropWhile p).reverse

/-- The part before the first line feed. -/
def beforeBreak (s : Text) : Text := s.takeWhile (· ≠ '\n')

/-- The part after the last line feed. -/
def lastLine (s : Text) : Text := (s.reverse.takeWhile (· ≠ '\n')).reverse

/-- The first line, without the line feed or the pair of carriage return and line
feed that ends it. -/
def firstLine (s : Text) : Text :=
  let line := s.beforeBreak
  if line.length < s.length then
    match line.getLast? with
    | some '\r' => line.dropLast
    | _ => line
  else line

/-- The number written in base ten. -/
def ofNat (n : Nat) : Text := Nat.toDigits 10 n

/-- Texts one after the other, with `separator` between them. -/
def join (separator : Text) : List Text → Text
  | [] => []
  | [s] => s
  | s :: t :: rest => s ++ separator ++ join separator (t :: rest)

/-- Order by code points, which is also the order of the UTF-8 bytes. -/
def precedes : Text → Text → Bool
  | _, [] => false
  | [], _ :: _ => true
  | a :: s, b :: t => a.val < b.val || (a = b && precedes s t)

end Text
end RoutePages
