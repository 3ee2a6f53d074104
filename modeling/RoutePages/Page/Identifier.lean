import RoutePages.Page.Path
import RoutePages.Text.Letter
import RoutePages.Text.Numeral
import RoutePages.Text.Uppercase

/-!
# Names made from paths

The segments of a path, each with its first character in upper case, one after the
other.
-/
namespace RoutePages

def isIdentifier (s : Text) : Bool :=
  match s with
  | [] => false
  | c :: rest =>
    (Text.isLetter c || c = '_' || c = '$') &&
      rest.all fun c => Text.isLetter c || Text.isNumeral c || c = '_' || c = '$'

/-- The name that a path gives, whether or not it can be an identifier. -/
def deriveIdentifier (path : Text) : Except InvalidPath Text :=
  let name := ((PagePath.pieces path).filter (· ≠ [])).flatMap Text.upperFirst
  if name = [] then .error ⟨path, .noIdentifier⟩ else .ok name

/-- The name under which the page of a path is imported. -/
def deriveBinding (path : Text) : Except InvalidPath Text := do
  let name ← deriveIdentifier path
  if isIdentifier name then .ok name else .error ⟨path, .notIdentifier⟩

end RoutePages
