import RoutePages.Number.Double
import RoutePages.Script.Span

/-!
# The tree of a script

The tree keeps what can be data (literals, identifiers, arrays, objects and their
wrappers) in full. Of everything else it keeps the form, the span and the parts in
source order: enough to find declarations and to know which of them stand inside
a function or a class.
-/
namespace RoutePages.Script

/-- The forms of expression that are never data. -/
inductive Form where
  | call
  | new
  | arrow
  | function
  | classBody
  | markup
  | member
  /-- a member access or call behind `?.` -/
  | chain
  /-- a chain marked as not null -/
  | assertedChain
  | binary
  | assignment
  | update
  | conditional
  | taggedTemplate
  | awaiting
  | sequence
  | prefixed
  | other
  deriving DecidableEq

mutual

inductive Expr where
  | null (span : Span)
  | bool (value : Bool) (span : Span)
  | number (value : Double) (span : Span)
  | bigint (span : Span)
  | string (value : Text) (span : Span)
  | regex (span : Span)
  | ident (name : Text) (span : Span)
  /-- a template: the texts between its substitutions, one more than those -/
  | template (pieces : List Text) (holes : List Expr) (span : Span)
  | paren (inner : Expr) (span : Span)
  /-- `inner as T` -/
  | asType (inner : Expr) (span : Span)
  /-- `inner as const` -/
  | asConst (inner : Expr) (span : Span)
  /-- `-operand` -/
  | minus (operand : Expr) (span : Span)
  | array (elements : List Element) (span : Span)
  | object (props : List Property) (span : Span)
  | compound (form : Form) (parts : List Part) (span : Span)

inductive Element where
  | hole
  | item (value : Expr)
  | spread (value : Expr)

inductive Property where
  | field (key : Key) (value : Expr)
  | shorthand (name : Text) (span : Span)
  | spread (value : Expr)
  /-- `name = value`, which is meant to become a pattern -/
  | default (name : Text) (value : Expr) (span : Span)
  /-- a method, getter or setter -/
  | method (parts : List Part) (span : Span)

inductive Key where
  | name (value : Text) (span : Span)
  | string (value : Text) (span : Span)
  | number (value : Double) (span : Span)
  | bigint (span : Span)
  | computed (parts : List Part) (span : Span)

/-- What can be met below a statement or a compound expression. -/
inductive Part where
  | expr (value : Expr)
  /-- one `var`, `let` or `const` declaration -/
  | declaration (declarators : List Declarator)
  | imports (locals : List Text) (source : Text) (span : Span)
  /-- what stands inside a function or a class -/
  | scope (parts : List Part)

/-- A declarator: the name it binds if it is no pattern, whether it is annotated with an
array type, the expressions in its pattern, and its initialiser. -/
inductive Declarator where
  | mk (name : Option Text) (isArray : Bool) (inPattern : List Part) (init : Option Expr)

end

instance : Inhabited Expr := ⟨.null ⟨0, 0⟩⟩

namespace Expr

def span : Expr → Span
  | null s | bool _ s | number _ s | bigint s | string _ s | regex s | ident _ s
  | template _ _ s | paren _ s | asType _ s | asConst _ s | minus _ s | array _ s
  | object _ s | compound _ _ s => s

def start (e : Expr) : Nat := e.span.start

def stop (e : Expr) : Nat := e.span.stop

/-- The form of a compound expression. -/
def form? : Expr → Option Form
  | compound f _ _ => some f
  | _ => none

def isArrow (e : Expr) : Bool := e.form? = some .arrow

def name? : Expr → Option Text
  | ident name _ => some name
  | _ => none

end Expr

namespace Key

def span : Key → Span
  | name _ s | string _ s | number _ s | bigint s | computed _ s => s

def parts : Key → List Part
  | computed parts _ => parts
  | _ => []

end Key

mutual

/-- The position of the first method of an object that is used as a pattern. -/
def Expr.clash? : Expr → Option Nat
  | .object props _ => Property.clash? props
  | .array elements _ => Element.clash? elements
  | _ => none

def Property.clash? : List Property → Option Nat
  | [] => none
  | .method _ span :: _ => some span.start
  | .field _ value :: props => value.clash?.or (Property.clash? props)
  | .spread value :: props => value.clash?.or (Property.clash? props)
  | _ :: props => Property.clash? props

def Element.clash? : List Element → Option Nat
  | [] => none
  | .item value :: elements => value.clash?.or (Element.clash? elements)
  | _ :: elements => Element.clash? elements

end

end RoutePages.Script
