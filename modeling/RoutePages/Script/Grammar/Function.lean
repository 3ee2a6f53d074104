import RoutePages.Script.Grammar.Pattern

/-!
# Functions, blocks and decorators
-/
namespace RoutePages.Script

open Script.Parser

/-- The mode inside the body of a function. -/
def Mode.inFunction (inAsync inGenerator : Bool) (m : Mode) : Mode :=
  { m with inAsync, inGenerator }

namespace Rules

variable (r : Rules)

def arguments : Parser (List Part) := within (fun m => { m with colonEnds := false }) do
  expect "("
  let parts ← r.many do
    if (← isDone) || (← isSign ")") then return none
    let _ ← eat "..."
    let value ← r.fullAssignment
    commaUnless ")"
    return some (Part.expr value)
  expect ")"
  return parts

/-- What is applied to a class or a parameter: a name or an expression, perhaps called. -/
def decorator : Parser (List Part) := do
  advance
  let head : List Part ← if ← eat "(" then do
      let value ← r.expression
      expect ")"
      pure [.expr value]
    else do
      let _ ← identifier
      let _ ← r.many do
        if ← eat "." then
          let _ ← eat "#"
          let _ ← anyWord
          return some ()
        else return none
      pure []
  let typed ← isSign "<"
  if typed then r.typeArguments
  if typed || (← isSign "(") then return head ++ (← r.arguments)
  return head

/-- The decorators here. An `export` may follow them only where exports are allowed. -/
def decorators (exports : Bool) : Parser (List Part) := do
  let all ← r.many do
    if ← isSign "@" then return some (← r.decorator) else return none
  if !all.isEmpty && !exports && (← isWord "export") then fail
  return all.flatten

/-- Statements up to the closing brace, which is passed. The end of the source closes a
block too. -/
def blockRest (top : Bool) : Parser (List Part) := do
  let parts ← r.many do
    refuseFault
    if (← isDone) || (← isSign "\x7d") then return none
    return some (← r.item top)
  let _ ← eat "\x7d"
  return parts.flatten

def block : Parser (List Part) := do
  expect "\x7b"
  r.blockRest false

def functionBody (inAsync inGenerator : Bool) : Parser (List Part) :=
  within (Mode.inFunction inAsync inGenerator) do
    if !(← isSign "\x7b") then
      if ← eatSemicolon then return []
    within (fun m => { m with allowIn := true }) r.block

def functionRest (inAsync inGenerator : Bool) : Parser (List Part) := do
  r.typeParameters?
  expect "("
  let (inParameters, _) ← within (Mode.inFunction inAsync inGenerator)
    (r.parameters (r.decorators false))
  expect ")"
  if ← isSign ":" then r.returnType ":"
  let body ← r.functionBody inAsync inGenerator
  return inParameters ++ body

def constructorRest : Parser (List Part) := do
  r.typeParameters?
  expect "("
  let (inParameters, _) ← r.constructorParameters (r.decorators false)
  expect ")"
  let _ ← r.annotation?
  return inParameters ++ (← r.functionBody false false)

def function (inAsync named : Bool) : Parser Part := do
  expectWord "function"
  let generator ← eat "*"
  let t ← token
  if named || t.isReference || t.isWord "this" then
    let _ ← bindingIdentifier
  return .scope (← r.functionRest inAsync generator)

def arrowBody (inAsync : Bool) : Parser (List Part × Bool) :=
  within (Mode.inFunction inAsync false) do
    if ← isSign "\x7b" then return (← within (fun m => { m with allowIn := true }) r.block, true)
    else return ([.expr (← r.assignment)], false)

end Rules
end RoutePages.Script
