import RoutePages.Json.String

/-!
# Values in JSON texts

A value that nobody asks for is passed over, but it has to be well formed. A value
that was to be something else is read as far as a message describes it.
-/
namespace RoutePages.Json

/-- The brackets that are still open around a place. -/
inductive Bracket where
  | list
  | object
  deriving DecidableEq

namespace Bracket

def closer : Bracket → Char
  | list => ']'
  | object => '\x7d'

/-- The text ended inside the brackets. -/
def cut : Bracket → Error
  | list => .endInList
  | object => .endInObject

/-- Neither a comma nor the closing bracket came. -/
def noSeparator : Bracket → Error
  | list => .noListSeparator
  | object => .noObjectSeparator

end Bracket

/-- Passes over a key and its colon. -/
def skipKey (s : Text) : Except Error Text :=
  match skipBlanks s with
  | [] => .error .endInObject
  | c :: s =>
    if c != '"' then .error .keyNotString
    else do
      match skipBlanks (← skipString s) with
      | [] => throw .endInObject
      | c :: s => if c = ':' then return s else throw .noColon

/-- What comes after a value or an opening bracket. -/
inductive Next where
  /-- nothing is open any more -/
  | finished (rest : Text)
  /-- another value, inside these brackets -/
  | value (opened : List Bracket) (rest : Text)

/-- Goes to the place of a value inside a bracket. In an object, a key stands before it. -/
def enter (b : Bracket) (opened : List Bracket) (s : Text) : Except Error Next :=
  match b with
  | .list => .ok (.value (b :: opened) s)
  | .object => (skipKey s).map (.value (b :: opened))

/-- Passes over closing brackets up to the place of the next value. Behind a value, a comma
comes before the next. -/
def toNext : (opened : List Bracket) → (behindValue : Bool) → Text → Except Error Next
  | [], _, s => .ok (.finished s)
  | b :: opened, behindValue, s =>
    match skipBlanks s with
    | [] => .error b.cut
    | c :: rest =>
      if c = ',' && behindValue then enter b opened rest
      else if c = b.closer then toNext opened true rest
      else if behindValue then .error b.noSeparator
      else enter b opened (c :: rest)

/-- Passes over one value without brackets, or an opening bracket. -/
def skipFirst (s : Text) : Except Error (Option Bracket × Text) :=
  match skipBlanks s with
  | [] => .error .endInValue
  | c :: s =>
    if c = 'n' then (skipWord "ull" s).map (none, ·)
    else if c = 't' then (skipWord "rue" s).map (none, ·)
    else if c = 'f' then (skipWord "alse" s).map (none, ·)
    else if c = '-' then (skipNumber s).map (none, ·)
    else if isDigit c then (skipNumber (c :: s)).map (none, ·)
    else if c = '"' then (skipString s).map (none, ·)
    else if c = '[' then .ok (some .list, s)
    else if c = '\x7b' then .ok (some .object, s)
    else .error .noValue

/-- Passes over a value inside the opened brackets, and over all up to the last of these. -/
def skipFrom : (fuel : Nat) → (opened : List Bracket) → Text → Except Error Text
  | 0, _, _ => .error .endInValue
  | fuel + 1, opened, s => do
    let (bracket, rest) ← skipFirst s
    let next ← match bracket with
      | none => toNext opened true rest
      | some b => toNext (b :: opened) false rest
    match next with
    | .finished rest => return rest
    | .value opened rest => skipFrom fuel opened rest

def skipValue (s : Text) : Except Error Text := skipFrom (s.length + 1) [] s

/-- Says what stands in place of a value of the expected type. -/
def refuse (expected : Text) (s : Text) : Error :=
  let told (found : Except Error Found) : Error :=
    match found with
    | .ok found => .badType found expected
    | .error e => e
  match s with
  | [] => .noValue
  | c :: s =>
    if c = 'n' then told ((skipWord "ull" s).map fun _ => .null)
    else if c = 't' then told ((skipWord "rue" s).map fun _ => .boolean true)
    else if c = 'f' then told ((skipWord "alse" s).map fun _ => .boolean false)
    else if c = '-' then told ((readNumber true s).map (·.1))
    else if isDigit c then told ((readNumber false (c :: s)).map (·.1))
    else if c = '"' then told ((readString s).map (.string ·.1))
    else if c = '[' then .badType .sequence expected
    else if c = '\x7b' then .badType .map expected
    else .noValue

/-- A string, or nothing in place of `null`. -/
def readOptionalString (s : Text) : Except Error (Option Text × Text) :=
  match skipBlanks s with
  | [] => .error .endInValue
  | c :: s =>
    if c = 'n' then (skipWord "ull" s).map (none, ·)
    else if c = '"' then (readString s).map fun (text, rest) => (some text, rest)
    else .error (refuse "a string" (c :: s))

end RoutePages.Json
