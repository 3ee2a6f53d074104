import RoutePages.Script.Scan.Gap

/-!
# Escapes after a backslash

An escape stands for some characters, for none, or is malformed. A surrogate is
no character, so the escape of one stands for its own text.
-/
namespace RoutePages.Script

/-- The value of a digit up to base 36. -/
def digitValue (c : Char) : Nat :=
  if '0' ≤ c ∧ c ≤ '9' then c.toNat - '0'.toNat
  else if 'a' ≤ c ∧ c ≤ 'z' then c.toNat - 'a'.toNat + 10
  else if 'A' ≤ c ∧ c ≤ 'Z' then c.toNat - 'A'.toNat + 10
  else 36

def isDigit (radix : Nat) (c : Char) : Bool := digitValue c < radix

/-- The number written by digits. -/
def valueOf (radix : Nat) (digits : Text) : Nat :=
  digits.foldl (fun n c => n * radix + digitValue c) 0

/-- What was read after a backslash. -/
inductive Escape where
  /-- the characters it stands for and how many of the source it took, backslash included -/
  | stands (value : Text) (length : Nat)
  /-- an octal escape, which a module must not hold -/
  | octal (value : Char) (length : Nat)
  | malformed

/-- The characters of a code point; `source` is the escape as written. -/
def codePoint (n : Nat) (source : Text) : Option Text :=
  if 0xD800 ≤ n ∧ n ≤ 0xDFFF then some source
  else if n ≤ 0x10FFFF then some [Char.ofNat n]
  else none

/-- The escape `\u`, given what follows it. -/
def unicodeEscape (s : Text) : Escape :=
  match s with
  | '{' :: more =>
    let digits := more.takeWhile (isDigit 16)
    match more.drop digits.length with
    | '}' :: _ =>
      if digits.isEmpty then .malformed
      else
        let length := digits.length + 4
        match codePoint (valueOf 16 digits) ('\\' :: 'u' :: s.take (length - 2)) with
        | some value => .stands value length
        | none => .malformed
    | _ => .malformed
  | _ =>
    let digits := s.take 4
    if digits.length = 4 ∧ digits.all (isDigit 16) then
      match codePoint (valueOf 16 digits) ('\\' :: 'u' :: digits) with
      | some value => .stands value 6
      | none => .malformed
    else .malformed

/-- The escape whose backslash has been passed. -/
def escape (s : Text) : Escape :=
  match s with
  | [] => .malformed
  | 'n' :: _ => .stands ['\n'] 2
  | 'r' :: _ => .stands ['\r'] 2
  | 't' :: _ => .stands ['\t'] 2
  | 'b' :: _ => .stands ['\x08'] 2
  | 'v' :: _ => .stands ['\x0b'] 2
  | 'f' :: _ => .stands ['\x0c'] 2
  | '\r' :: '\n' :: _ => .stands [] 3
  | 'x' :: more =>
    let digits := more.take 2
    if digits.length = 2 ∧ digits.all (isDigit 16) then .stands [Char.ofNat (valueOf 16 digits)] 4
    else .malformed
  | 'u' :: more => unicodeEscape more
  | c :: more =>
    if isLineEnd c then .stands [] 2
    else if c = '0' ∧ !(more.head?.any (isDigit 8)) then .stands ['\x00'] 2
    else if isDigit 8 c then
      let digits := (s.take (if c ≤ '3' then 3 else 2)).takeWhile (isDigit 8)
      .octal (Char.ofNat (valueOf 8 digits)) (digits.length + 1)
    else .stands [c] 2

end RoutePages.Script
