import RoutePages.Text.Basic

/-!
# Writing JSON

A tree of values, written over indented lines.
-/
namespace RoutePages

/-- A JSON value. Fields keep their order. -/
inductive Json where
  | null
  | bool (value : Bool)
  | nat (value : Nat)
  | string (value : Text)
  | list (items : List Json)
  | object (fields : List (Text × Json))

namespace Json

def ofOption {α : Type} (f : α → Json) : Option α → Json
  | none => null
  | some a => f a

def escape (c : Char) : Text :=
  if c = '"' then "\\\""
  else if c = '\\' then "\\\\"
  else if c = '\n' then "\\n"
  else if c = '\r' then "\\r"
  else if c = '\t' then "\\t"
  else if c = '\x08' then "\\b"
  else if c = '\x0c' then "\\f"
  else if c.toNat < 32 then "\\u00" ++ (if c.toNat < 16 then "0" else "") ++ Nat.toDigits 16 c.toNat
  else [c]

def quote (s : Text) : Text := '"' :: s.flatMap escape ++ ['"']

/-- The beginning of a line inside `depth` brackets. -/
def lineStart (depth : Nat) : Text := '\n' :: List.replicate (2 * depth) ' '

mutual

/-- The value inside `depth` brackets. -/
def write (depth : Nat) : Json → Text
  | null => "null"
  | bool value => if value then "true" else "false"
  | nat value => Text.ofNat value
  | string value => quote value
  | list [] => "[]"
  | list (item :: items) =>
    '[' :: lineStart (depth + 1) ++ write (depth + 1) item ++ writeItems (depth + 1) items ++
      lineStart depth ++ "]"
  | object [] => "\x7b\x7d"
  | object ((key, value) :: fields) =>
    '\x7b' :: lineStart (depth + 1) ++ quote key ++ ": " ++ write (depth + 1) value ++
      writeFields (depth + 1) fields ++ lineStart depth ++ "\x7d"

def writeItems (depth : Nat) : List Json → Text
  | [] => []
  | item :: items => ',' :: lineStart depth ++ write depth item ++ writeItems depth items

def writeFields (depth : Nat) : List (Text × Json) → Text
  | [] => []
  | (key, value) :: fields =>
    ',' :: lineStart depth ++ quote key ++ ": " ++ write depth value ++ writeFields depth fields

end

/-- The value over as many lines as it needs. -/
def pretty (value : Json) : Text := value.write 0

end Json
end RoutePages
