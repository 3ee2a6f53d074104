import RoutePages.Json.Error
import RoutePages.Number.Decimal

/-!
# Numbers in JSON texts

A number keeps its first digits as far as they fit 64 bits. It is scaled by powers
of ten with one rounding each, so a float may miss the nearest one by a little.
-/
namespace RoutePages.Json

/-- A reader gives a value and the rest of the text. -/
abbrev Reader (α : Type) := Text → Except Error (α × Text)

/-- The largest number of 64 bits. -/
def largestWord : Nat := Nat.pow 2 64 - 1

def isDigit (c : Char) : Bool := '0' ≤ c && c ≤ '9'

def digitValue (c : Char) : Nat := c.toNat - '0'.toNat

/-- Appends digits to a number as long as it fits, and counts them. -/
def takeDigits (n count : Nat) : Text → Nat × Nat × Text
  | [] => (n, count, [])
  | c :: s =>
    if isDigit c && n * 10 + digitValue c ≤ largestWord then
      takeDigits (n * 10 + digitValue c) (count + 1) s
    else (n, count, c :: s)

def startsWithDigit (s : Text) : Bool :=
  match s with
  | [] => false
  | c :: _ => isDigit c

/-- `n · 10 ^ e`, scaled in steps of at most 308. Too large numbers are refused. -/
def scale (negative : Bool) : (fuel : Nat) → Double → Int → Except Error Double
  | 0, _, _ => .ok ⟨negative, 0⟩
  | fuel + 1, x, e =>
    if e.natAbs ≤ 308 then
      let power := Double.ofDecimal 1 e.natAbs
      if 0 ≤ e then
        let y := x.mul power
        if y.isInfinite then .error .numberTooLarge else .ok ⟨negative, y.magnitude⟩
      else .ok ⟨negative, (x.div power).magnitude⟩
    else if x.magnitude = 0 then .ok ⟨negative, 0⟩
    else if 0 ≤ e then .error .numberTooLarge
    else scale negative fuel (x.div (Double.ofDecimal 1 308)) (e + 308)

/-- The float of significand `n` and exponent `e`. -/
def float (negative : Bool) (n : Nat) (e : Int) : Except Error Found :=
  (scale negative 4 (Double.ofNat n) e).map .float

/-- The exponent behind its `e`. One that does not fit 32 bits counts as infinite. -/
def readExponent (negative : Bool) (n : Nat) (e : Int) : Reader Found := fun s =>
  let (down, s) := match s with
    | '+' :: s => (false, s)
    | '-' :: s => (true, s)
    | s => (false, s)
  match s with
  | [] => .error .endInValue
  | c :: _ =>
    if !isDigit c then .error .badNumber
    else
      let digits := s.takeWhile isDigit
      let value := digits.foldl (fun n c => n * 10 + digitValue c) 0
      let rest := s.dropWhile isDigit
      if Nat.pow 2 31 ≤ value then
        if n != 0 && !down then .error .numberTooLarge else .ok (.float ⟨negative, 0⟩, rest)
      else (float negative n (if down then e - value else e + value)).map (·, rest)

/-- What may follow all digits of a number: an exponent. -/
def readScale (negative : Bool) (n : Nat) (e : Int) : Reader Found
  | 'e' :: s | 'E' :: s => readExponent negative n e s
  | s => (float negative n e).map (·, s)

/-- The digits behind the point. Those that do not fit are passed over. -/
def readFraction (negative : Bool) (n : Nat) (e : Int) : Reader Found := fun s =>
  let (n, count, rest) := takeDigits n 0 s
  if count = 0 && !startsWithDigit rest then
    .error (if rest.isEmpty then .endInValue else .badNumber)
  else readScale negative n (e - count) (rest.dropWhile isDigit)

/-- What follows the integer part `n · 10 ^ e` of a float. -/
def readFloat (negative : Bool) (n : Nat) (e : Int) : Reader Found
  | '.' :: s => readFraction negative n e s
  | s => readScale negative n e s

/-- An integer, unless it is one that only a float can hold. -/
def integer (negative : Bool) (n : Nat) : Found :=
  if !negative then .integer n
  else if n = 0 || Nat.pow 2 63 < n then .float ⟨true, (Double.ofNat n).magnitude⟩
  else .integer (-n)

/-- A number behind its sign. -/
def readNumber (negative : Bool) : Reader Found
  | [] => .error .endInValue
  | c :: s =>
    if !isDigit c then .error .badNumber
    else if c = '0' && startsWithDigit s then .error .badNumber
    else
      let (n, _, rest) := takeDigits 0 0 (c :: s)
      let more := rest.takeWhile isDigit
      if more.isEmpty then
        match rest with
        | '.' :: _ | 'e' :: _ | 'E' :: _ => readFloat negative n 0 rest
        | _ => .ok (integer negative n, rest)
      else readFloat negative n more.length (rest.dropWhile isDigit)

def skipExponent (s : Text) : Except Error Text :=
  let s := match s with
    | '+' :: s | '-' :: s => s
    | s => s
  if startsWithDigit s then .ok (s.dropWhile isDigit) else .error .badNumber

def skipScale : Text → Except Error Text
  | 'e' :: s | 'E' :: s => skipExponent s
  | s => .ok s

def skipNumber : Text → Except Error Text
  | [] => .error .badNumber
  | c :: s =>
    if !isDigit c then .error .badNumber
    else if c = '0' && startsWithDigit s then .error .badNumber
    else
      match (if c = '0' then s else s.dropWhile isDigit) with
      | '.' :: s =>
        if startsWithDigit s then skipScale (s.dropWhile isDigit) else .error .badNumber
      | s => skipScale s

end RoutePages.Json
