import RoutePages.Script.Grammar.Operator

/-!
# Array, object and template literals
-/
namespace RoutePages.Script

open Script.Parser

namespace Rules

variable (r : Rules)

def arrayLiteral : Parser Expr := do
  let start ← here
  advance
  let elements ← r.many do
    if (← isDone) || (← isSign "]") then return none
    if ← eat "," then return some Element.hole
    let element ← if ← eat "..." then pure (Element.spread (← r.fullAssignment))
      else pure (Element.item (← r.fullAssignment))
    commaUnless "]"
    return some element
  expect "]"
  return .array elements (← spanFrom start)

/-- A method or accessor behind its key. Only the parameters and body of a method are a
scope. -/
def objectMethod (start : Nat) (key : Key) (isScope inAsync inGenerator : Bool) :
    Parser Property := do
  let inside ← r.functionRest inAsync inGenerator
  let parts := if isScope then [.scope inside] else inside
  return .method (key.parts ++ parts) (← spanFrom start)

def atAfterKey (key : Key) : Parser Bool := do
  let t ← token
  if t.isAnyWord || t.isString || t.isNumber then return true
  if ← isOneOf ["(", "[", ":", ",", "?", "=", "*", "<"] then return true
  match key with
  | .name _ _ => return t.isSign "\x7d"
  | _ => return false

/-- A property behind a plain name that no colon or parenthesis follows. -/
def namedProperty (start : Nat) (name : Text) (span : Span) : Parser Property := do
  let _ ← eat "?"
  if ← eat "=" then
    let value ← r.fullAssignment
    return .default name value ⟨span.start, value.stop⟩
  if ← isOneOf [",", "\x7d"] then return .shorthand name span
  if name == "get" || name == "set" then
    let inner ← r.propertyKey
    r.objectMethod start inner false false false
  else if name == "async" then
    let generator ← eat "*"
    let inner ← r.propertyKey
    r.objectMethod start inner true true generator
  else fail

def objectProperty : Parser Property := do
  let start ← here
  if ← eat "..." then return .spread (← r.fullAssignment)
  if ← eat "*" then
    let key ← r.propertyKey
    return ← r.objectMethod start key true false true
  let _ ← eatAccessModifier
  let key ← r.propertyKey
  if !(← atAfterKey key) then
    return .field key (.compound .other [] (← spanFrom start))
  if ← eat ":" then return .field key (← r.fullAssignment)
  if ← isOneOf ["(", "<"] then return ← r.objectMethod start key true false false
  match key with
  | .name name span => r.namedProperty start name span
  | _ => fail

def objectLiteral : Parser Expr := within (fun m => { m with colonEnds := false }) do
  let start ← here
  advance
  let props ← r.many do
    if ← isSign "\x7d" then return none
    let property ← r.objectProperty
    commaUnless "\x7d"
    return some property
  expect "\x7d"
  return .object props (← spanFrom start)

def templateRest (raw : Bool) : Parser (List Text × List Expr) :=
  within (fun m => { m with colonEnds := false }) (r.templateParts raw r.fullExpression)

def templateLiteral : Parser Expr := do
  let start ← here
  let (pieces, holes) ← r.templateRest false
  return .template pieces holes (← spanFrom start)

end Rules
end RoutePages.Script
