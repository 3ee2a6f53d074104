import RoutePages.Json.Number

/-!
# Strings in JSON texts

A string is read behind its opening quote. An escape may stand for half of a
character beyond the first 65536, the other half following at once.
-/
namespace RoutePages.Json

def isBlank (c : Char) : Bool := c = ' ' || c = '\n' || c = '\t' || c = '\r'

def skipBlanks (s : Text) : Text := s.dropWhile isBlank

def hexValue? (c : Char) : Option Nat :=
  if isDigit c then some (digitValue c)
  else if 'a' ≤ c && c ≤ 'f' then some (c.toNat - 'a'.toNat + 10)
  else if 'A' ≤ c && c ≤ 'F' then some (c.toNat - 'A'.toNat + 10)
  else none

/-- The four digits of an escaped code unit. -/
def readUnit (s : Text) : Except Error (Nat × Text) :=
  if Text.size s < 4 then .error .endInString
  else match s with
    | a :: b :: c :: d :: rest =>
      match hexValue? a, hexValue? b, hexValue? c, hexValue? d with
      | some a, some b, some c, some d => .ok (((a * 16 + b) * 16 + c) * 16 + d, rest)
      | _, _, _, _ => .error .badEscape
    | _ => .error .badEscape

/-- The second half of a character, behind its first half. -/
def readSecondHalf (first : Nat) : Reader Char
  | [] => .error .endInString
  | '\\' :: [] => .error .endInString
  | '\\' :: 'u' :: s => do
    let (second, rest) ← readUnit s
    if second < 0xDC00 || 0xDFFF < second then throw .loneSurrogate
    return (Char.ofNat ((first - 0xD800) * 1024 + (second - 0xDC00) + 65536), rest)
  | _ => .error .cutSurrogate

/-- The character of an escape by number. -/
def readNumbered (s : Text) : Except Error (Char × Text) := do
  let (unit, rest) ← readUnit s
  if unit < 0xD800 || 0xDFFF < unit then return (Char.ofNat unit, rest)
  else if 0xDC00 ≤ unit then throw .loneSurrogate
  else readSecondHalf unit rest

/-- The character that a letter stands for behind a backslash. -/
def escaped? (c : Char) : Option Char :=
  if c = '"' || c = '\\' || c = '/' then some c
  else if c = 'b' then some '\x08'
  else if c = 'f' then some '\x0c'
  else if c = 'n' then some '\n'
  else if c = 'r' then some '\r'
  else if c = 't' then some '\t'
  else none

/-- The character of an escape, behind the backslash. -/
def readEscape : Reader Char
  | [] => .error .endInString
  | c :: s =>
    if c = 'u' then readNumbered s
    else match escaped? c with
      | some c => .ok (c, s)
      | none => .error .badEscape

/-- The string up to its closing quote. -/
def readStringFrom : (fuel : Nat) → Reader Text
  | 0, _ => .error .endInString
  | _ + 1, [] => .error .endInString
  | fuel + 1, c :: s =>
    if c = '"' then .ok ([], s)
    else if c.toNat < 32 then .error .controlCharacter
    else do
      let (c, s) ← if c = '\\' then readEscape s else .ok (c, s)
      let (text, rest) ← readStringFrom fuel s
      return (c :: text, rest)

def readString (s : Text) : Except Error (Text × Text) := readStringFrom s.length s

/-- Passes over an escape behind its backslash. Halves of characters are not looked at. -/
def skipEscape : Text → Except Error Text
  | [] => .error .endInString
  | c :: s =>
    if c = 'u' then (readUnit s).map (·.2)
    else if (escaped? c).isSome then .ok s
    else .error .badEscape

def skipStringFrom : (fuel : Nat) → Text → Except Error Text
  | 0, _ => .error .endInString
  | _ + 1, [] => .error .endInString
  | fuel + 1, c :: s =>
    if c = '"' then .ok s
    else if c.toNat < 32 then .error .controlCharacter
    else if c = '\\' then (skipEscape s).bind (skipStringFrom fuel)
    else skipStringFrom fuel s

/-- Passes over a string behind its opening quote. -/
def skipString (s : Text) : Except Error Text := skipStringFrom s.length s

/-- Passes over the rest of a word whose first letter was read. -/
def skipWord : (word : Text) → Text → Except Error Text
  | [], s => .ok s
  | _ :: _, [] => .error .endInValue
  | w :: word, c :: s => if w = c then skipWord word s else .error .badWord

end RoutePages.Json
