import RoutePages.Number.Shortest
import RoutePages.Text.Quoted

/-!
# Errors in JSON texts
-/
namespace RoutePages.Json

/-- A value as far as a message describes it. -/
inductive Found where
  | null
  | boolean (value : Bool)
  | integer (value : Int)
  | float (value : Double)
  | string (value : Text)
  | sequence
  | map

/-- A number with a point or an exponent, however short. Within 16 digits of the point it is
written without an exponent. -/
def floatText (x : Double) : Text :=
  let sign : Text := if x.negative then "-" else ""
  if x.magnitude = 0 then sign ++ "0.0"
  else
    let (d, e) := Double.shortest x.magnitude
    let digits := Text.ofNat d
    let point : Int := e + digits.length
    if 0 ≤ e ∧ point ≤ 16 then sign ++ Double.positional d e ++ ".0"
    else if -5 < point ∧ point ≤ 16 then sign ++ Double.positional d e
    else
      let mantissa := match digits with
        | [] => []
        | [c] => [c]
        | c :: rest => c :: '.' :: rest
      let exponent := point - 1
      sign ++ mantissa ++ "e" ++ (if exponent < 0 then "-" else "") ++ Text.ofNat exponent.natAbs

def Found.message : Found → Text
  | null => "null"
  | boolean value => "boolean `" ++ (if value then "true" else "false" : String) ++ "`"
  | integer value =>
    "integer `" ++ (if value < 0 then "-" else "") ++ Text.ofNat value.natAbs ++ "`"
  | float value => "floating point `" ++ floatText value ++ "`"
  | string value => "string " ++ value.quoted
  | sequence => "sequence"
  | map => "map"

/-- Why a text is not the JSON that was asked for. -/
inductive Error where
  | endInValue
  | endInObject
  | endInList
  | endInString
  | keyNotString
  | trailingComma
  | trailingCharacters
  | noColon
  | noListSeparator
  | noObjectSeparator
  | noValue
  | badWord
  | badNumber
  | numberTooLarge
  | badEscape
  | cutSurrogate
  | loneSurrogate
  | controlCharacter
  | duplicateField (name : Text)
  /-- a list of the wrong length -/
  | badLength (length : Nat) (expected : Text)
  /-- a value of the wrong type -/
  | badType (found : Found) (expected : Text)

def Error.message : Error → Text
  | endInValue => "EOF while parsing a value"
  | endInObject => "EOF while parsing an object"
  | endInList => "EOF while parsing a list"
  | endInString => "EOF while parsing a string"
  | keyNotString => "key must be a string"
  | trailingComma => "trailing comma"
  | trailingCharacters => "trailing characters"
  | noColon => "expected `:`"
  | noListSeparator => "expected `,` or `]`"
  | noObjectSeparator => "expected `,` or `\x7d`"
  | noValue => "expected value"
  | badWord => "expected ident"
  | badNumber => "invalid number"
  | numberTooLarge => "number out of range"
  | badEscape => "invalid escape"
  | cutSurrogate => "unexpected end of hex escape"
  | loneSurrogate => "lone leading surrogate in hex escape"
  | controlCharacter => "control character (\\u0000-\\u001F) found while parsing a string"
  | duplicateField name => "duplicate field `" ++ name ++ "`"
  | badLength length expected =>
    "invalid length " ++ Text.ofNat length ++ ", expected " ++ expected
  | badType found expected => "invalid type: " ++ found.message ++ ", expected " ++ expected

end RoutePages.Json
