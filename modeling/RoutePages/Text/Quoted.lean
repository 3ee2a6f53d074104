import RoutePages.Text.Basic
import RoutePages.Text.Mark
import RoutePages.Text.Printable

/-!
# Quoted text

Messages show a text between double quotes. A quote, a backslash, the usual
control characters and whatever cannot be seen on its own are escaped.
-/
namespace RoutePages.Text

/-- One character inside the quotes. -/
def escaped (c : Char) : Text :=
  if c = '"' then "\\\""
  else if c = '\\' then "\\\\"
  else if c = '\n' then "\\n"
  else if c = '\r' then "\\r"
  else if c = '\t' then "\\t"
  else if c.toNat = 0 then "\\0"
  else if isMark c || !isPrintable c then
    "\\u\x7b" ++ Nat.toDigits 16 c.toNat ++ "\x7d"
  else [c]

/-- The text between double quotes. -/
def quoted (s : Text) : Text := '"' :: s.flatMap escaped ++ ['"']

end RoutePages.Text
