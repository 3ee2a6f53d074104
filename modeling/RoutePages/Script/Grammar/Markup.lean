import RoutePages.Script.Grammar.Primary

/-!
# Markup

Tags, attributes and children. An element ends at its last `>`, which is not
passed: what follows is read as children or as script, as the place demands.
-/
namespace RoutePages.Script

open Script.Parser

def tagWordHere : Parser Text := do
  if (← token).isAnyWord then
    reread tagWord tagWord_le
    anyWord
  else fail

def attributeName : Parser Text := do
  let first ← tagWordHere
  if ← eat ":" then return first ++ ':' :: (← tagWordHere) else return first

namespace Rules

variable (r : Rules)

/-- The name of an element: a word, a name with a namespace, or members. -/
def elementName : Parser Text := do
  let first ← attributeName
  let more ← r.many do
    if ← eat "." then return some ('.' :: (← tagWordHere)) else return none
  return first ++ more.flatten

def container : Parser (Option Expr) := do
  advance
  if ← isSign "\x7d" then return none
  let _ ← eat "..."
  let value ← r.fullExpression
  if ← isSign "\x7d" then return some value else fail

def attributeValue : Parser (List Part) := do
  moveTo Token.attributeValue Token.attributeValue_behind
  let t ← token
  if t.isString then
    advance
    return []
  else if t.isSign "\x7b" then
    match ← r.container with
    | none => failAt t.start.pos
    | some value =>
      advance
      return [.expr value]
  else if t.isSign "<" then
    let inside ← r.markup
    advance
    return [.expr (.compound .markup inside ⟨t.start.pos, t.stop.pos⟩)]
  else fail

def tagAttribute : Parser (List Part) := do
  if ← eat "\x7b" then
    expect "..."
    let value ← r.assignment
    expect "\x7d"
    return [.expr value]
  let _ ← attributeName
  if ← isSign "=" then r.attributeValue else return []

def attributes : Parser (List Part) := do
  let all ← r.many do
    refuseFault
    if (← isDone) || (← isOneOf ["/", ">"]) then return none
    return some (← r.tagAttribute)
  return all.flatten

/-- A child that is no text, and whether it was the closing tag. -/
def child (name : Text) : Parser (List Part × Bool) := do
  let t ← token
  if t.isSign "\x7b" then
    return ((← r.container).toList.map .expr, true)
  else if t.isSign "<" then
    if (← ahead).isSign "/" then
      advance
      advance
      let closing ← if ← isSign ">" then pure [] else r.elementName
      if !(← isSign ">") then fail
      if closing == name then return ([], false) else failAt t.start.pos
    else return (← r.markup, true)
  else fail

/-- The children behind an opening tag, up to its closing tag. -/
def children (name : Text) : Parser (List Part) :=
  r.iterate (fun parts => do
    moveTo Token.markup Token.markup_behind
    if (← token).lexeme = .markupText then return (parts, true)
    let (more, goesOn) ← r.child name
    return (parts ++ more, goesOn)) []

def markupRule : Parser (List Part) :=
  within (fun m => { m with inConditional := false, colonEnds := false }) do
    advance
    if ← isSign ">" then r.children []
    else
      let name ← r.elementName
      if ← isSign "<" then
        let _ ← attempt r.typeArguments
      let parts ← r.attributes
      if ← eat "/" then
        if ← isSign ">" then return parts else fail
      else if ← isSign ">" then return parts ++ (← r.children name)
      else fail

end Rules
end RoutePages.Script
