import RoutePages.Script.Grammar.Type

/-!
# Property names and binding patterns
-/
namespace RoutePages.Script

open Script.Parser

namespace Rules

variable (r : Rules)

/-- The name of a property. A computed one may hold a comma. -/
def propertyKey : Parser Key := do
  let t ← token
  match t.lexeme with
  | .word name => advance; return .name name t.span
  | .string value => advance; return .string value t.span
  | .number value => advance; return .number value t.span
  | .bigint => advance; return .bigint t.span
  | .sign s =>
    if s == "[" then
      advance
      let value ← r.fullAssignment
      let more ← r.many do
        if ← eat "," then return some (← r.fullAssignment) else return none
      expect "]"
      return .computed ((value :: more).map .expr) (← spanFrom t.start.pos)
    else fail
  | _ => fail

def arrayPattern : Parser (List Part) := do
  expect "["
  let parts ← r.many do
    if (← isDone) || (← isSign "]") then return none
    if ← eat "," then return some []
    let inside ← if ← eat "..." then pure (← r.target).inside
      else pure (← r.bindingElement).1.inside
    commaUnless "]"
    return some inside
  expect "]"
  let _ ← eat "?"
  return parts.flatten

def patternProperty : Parser (List Part) := do
  if ← eat "..." then return (← r.target).inside
  let key ← r.propertyKey
  if ← eat ":" then
    return key.parts ++ (← r.bindingElement).1.inside
  match key with
  | .name _ _ =>
    match ← r.initialiser? with
    | some value => return [.expr value]
    | none => return []
  | _ => fail

def objectPattern : Parser (List Part) := do
  expect "\x7b"
  let parts ← r.many do
    if ← isSign "\x7d" then return none
    let inside ← r.patternProperty
    commaUnless "\x7d"
    return some inside
  expect "\x7d"
  let _ ← eat "?"
  return parts.flatten

def targetRule : Parser Target := do
  let t ← token
  if t.isAnyWord then return ⟨some (← bindingIdentifier), []⟩
  else if t.isSign "[" then return ⟨none, ← r.arrayPattern⟩
  else if t.isSign "\x7b" then return ⟨none, ← r.objectPattern⟩
  else fail

end Rules
end RoutePages.Script
