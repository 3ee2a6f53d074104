import RoutePages.Number.Decimal
import RoutePages.Script.Scan.Escape
import RoutePages.Script.Token
import RoutePages.Text.Identifier

/-!
# Numerals

Decimal numerals with fraction and exponent, numerals with a radix, big
integers, and the separators allowed between digits. A leading zero is a flaw in
a module. Letters right after a numeral, and missing digits, are faults.
-/
namespace RoutePages.Script

/-- Digits with their separators removed, where they stop, and whether a separator stands
in a wrong place. -/
structure Digits where
  digits : Text
  stop : Place
  misplaced : Bool

def separatorClash (radix : Nat) (c : Char) : Bool :=
  if radix = 16 then c = '.' || c = 'x' || c = 'X' || c = '_'
  else c = '.' || c = '_' || c = 'b' || c = 'B' || c = 'e' || c = 'E' || c = 'o' || c = 'O'

/-- Reads digits; `before` is the digit read last. -/
def digitsFrom (radix : Nat) : (before : Option Char) → (pos : Nat) → Text → Digits
  | _, pos, [] => ⟨[], ⟨pos, []⟩, false⟩
  | before, pos, c :: s =>
    if c = '_' then
      let fits := s.head?.any (isDigit radix) && !(before.any (separatorClash radix)) &&
        !(s.head?.any (separatorClash radix))
      let more := digitsFrom radix before (pos + 1) s
      { more with misplaced := more.misplaced || !fits }
    else if isDigit radix c then
      let more := digitsFrom radix (some c) (pos + 1) s
      { more with digits := c :: more.digits }
    else ⟨[], ⟨pos, c :: s⟩, false⟩

def digits (radix : Nat) (p : Place) : Digits := digitsFrom radix none p.pos p.rest

/-- A lexeme with the place after it and its first flaw. -/
structure Read where
  lexeme : Lexeme
  stop : Place
  flaw : Option Nat

/-- A finished numeral: no identifier may begin right after it. -/
def ended (lexeme : Lexeme) (stop : Place) (flaw : Option Nat) : Read :=
  if stop.head?.any fun c => Text.isIdentifierStart c || c = '\\' then ⟨.fault stop.pos, stop, flaw⟩
  else ⟨lexeme, stop, flaw⟩

def flawAt (present : Bool) (pos : Nat) : Option Nat := if present then some pos else none

/-- A numeral in base 2, 8 or 16, read from behind its two-character mark. -/
def radixNumeral (radix : Nat) (p : Place) : Read :=
  let d := digits radix p
  let flaw := flawAt d.misplaced p.pos
  if d.digits.isEmpty then ⟨.fault p.pos, d.stop, flaw⟩
  else match d.stop.rest with
    | 'n' :: _ => ⟨.bigint, d.stop.next, flaw⟩
    | _ => ended (.number (Double.ofNat (valueOf radix d.digits))) d.stop flaw

/-- The exponent part, if there is one: its value, its digits and where they stop. -/
def exponent (p : Place) : Option (Int × Place × Digits) :=
  match p.rest with
  | c :: s =>
    if c = 'e' ∨ c = 'E' then
      let start := match s with
        | '+' :: _ => p.skip 2
        | '-' :: _ => p.skip 2
        | _ => p.next
      let d := digits 10 start
      let n : Int := valueOf 10 d.digits
      some (if s.head? = some '-' then -n else n, start, d)
    else none
  | [] => none

/-- The fraction and exponent after the integer part `whole`, which started at `start`. -/
def decimalRest (whole : Text) (p : Place) (flaw : Option Nat) : Read :=
  let (fraction, p, flaw) : Text × Place × Option Nat := match p.rest with
    | '.' :: _ =>
      let d := digits 10 p.next
      (d.digits, d.stop, flaw.or (flawAt d.misplaced (p.pos + 1)))
    | _ => ([], p, flaw)
  let m := valueOf 10 (whole ++ fraction)
  match exponent p with
  | none => ended (.number (Double.ofDecimal m (-(fraction.length : Int)))) p flaw
  | some (e, start, d) =>
    if d.digits.isEmpty then ⟨.fault d.stop.pos, d.stop, flaw⟩
    else ended (.number (Double.ofDecimal m (e - fraction.length))) d.stop
      (flaw.or (flawAt d.misplaced start.pos))

/-- A numeral that begins with a decimal digit and has no radix mark. -/
def decimalNumeral (p : Place) : Read :=
  let d := digits 10 p
  let flaw := flawAt d.misplaced p.pos
  match d.stop.rest with
  | 'n' :: _ => ⟨.bigint, d.stop.next, flaw⟩
  | _ =>
    if p.head? = some '0' ∧ 1 < d.stop.pos - p.pos then
      if d.digits.any fun c => c = '8' || c = '9' then
        decimalRest d.digits d.stop (flaw.or (some p.pos))
      else
        ended (.number (Double.ofNat (valueOf 8 d.digits))) d.stop (flaw.or (some p.pos))
    else decimalRest d.digits d.stop flaw

/-- The numeral at a place where a digit, or a point before a digit, stands. -/
def numeral (p : Place) : Read :=
  match p.rest with
  | '0' :: c :: _ =>
    if c = 'x' ∨ c = 'X' then radixNumeral 16 (p.skip 2)
    else if c = 'o' ∨ c = 'O' then radixNumeral 8 (p.skip 2)
    else if c = 'b' ∨ c = 'B' then radixNumeral 2 (p.skip 2)
    else decimalNumeral p
  | '.' :: _ => decimalRest [] p none
  | _ => decimalNumeral p

end RoutePages.Script
