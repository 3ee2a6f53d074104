import RoutePages.Script.Grammar.Function

/-!
# Classes

Everything in a class stands in its scope. The member grammar settles, one word at
a time, whether `declare`, `static`, `get` and the like are modifiers or names.
-/
namespace RoutePages.Script

open Script.Parser

def atMethod : Parser Bool := isOneOf ["(", "<"]

/-- What has been read is the name of a property; `lenient` allows a line break to end it. -/
def atProperty (lenient : Bool) : Parser Bool := do
  if ← isOneOf ["!", ":", "=", "\x7d"] then return true
  if lenient then
    if ← isSign ";" then return true else atEnd
  else isSign ";"

/-- Is the key the plain or quoted word `constructor`? -/
def Key.isConstructor : Key → Bool
  | .name value _ => value == "constructor"
  | .string value _ => value == "constructor"
  | _ => false

namespace Rules

variable (r : Rules)

/-- The name of a class member, which may be private. -/
def memberKey : Parser (Key × Bool) := do
  let start ← here
  if ← eat "#" then
    let name ← anyWord
    return (.name name (← spanFrom start), true)
  else return (← r.propertyKey, false)

/-- A property from behind its name. A missing semicolon is let pass. -/
def classProperty (key : Key) (isPrivate optional : Bool) : Parser (List Part) := do
  if key.isConstructor && !isPrivate then failAt key.span.start
  if !optional then
    let _ ← eat "!"
  let _ ← r.annotation?
  let value ← r.initialiser?
  let _ ← eatSemicolon
  return key.parts ++ value.toList.map .expr

def classMethod (key : Key) (inAsync inGenerator : Bool) : Parser (List Part) := do
  return key.parts ++ (← r.functionRest inAsync inGenerator)

/-- A name that looked like a modifier, if it is a member after all. -/
def modifierMember? (name : Text) (lenient : Bool) : Parser (Option (List Part)) := do
  let key := Key.name name ⟨0, 0⟩
  if ← atMethod then return some (← r.classMethod key false false)
  if (← atProperty lenient) || (← isSign "?") then
    let optional ← eat "?"
    if ← atMethod then return some (← r.classMethod key false false)
    return some (← r.classProperty key false optional)
  return none

/-- A class member behind its accessibility and `static`. -/
def plainMember (isStatic : Bool) : Parser (List Part) := do
  let modifiers ← r.many do
    let t ← token
    let next ← ahead
    if t.isWord "static" && next.isSign "\x7b" then return none
    if ← eatModifier ["abstract", "readonly", "override", "static"] then
      return some (t.isWord "readonly")
    else return none
  if ← eatWord "accessor" then
    if let some parts ← r.modifierMember? "accessor" true then return parts
  if (isStatic && (← isSign "\x7b")) then return ← r.block
  if (← isWord "static") && (← ahead).isSign "\x7b" then
    advance
    return ← r.block
  if ← r.indexSignature? then return []
  if ← eat "*" then
    let (key, _) ← r.memberKey
    return ← r.classMethod key false true
  let (key, isPrivate) ← if modifiers.any id && (← isOneOf ["!", ":"]) then
      pure (Key.name "readonly" ⟨0, 0⟩, false)
    else r.memberKey
  let optional ← eat "?"
  if ← atMethod then
    if key.isConstructor && !isPrivate then return ← r.constructorRest
    return ← r.classMethod key false false
  let t ← token
  let word : Text := match key with
    | .name value _ => if isPrivate then "" else value
    | _ => ""
  let accessor := (word == "get" || word == "set") && !(t.afterBreak && t.isSign "*")
  if ← atProperty (!accessor) then return ← r.classProperty key isPrivate optional
  if word == "async" && !t.afterBreak then
    let _ ← eatModifier ["override"]
    let generator ← eat "*"
    let (key, isPrivate) ← r.memberKey
    if key.isConstructor && !isPrivate then failAt key.span.start
    let _ ← eat "?"
    return ← r.classMethod key true generator
  if accessor then
    let (key, _) ← r.memberKey
    return ← r.classMethod key false false
  fail

def classMember : Parser (List Part) := do
  let before ← r.decorators false
  if ← eatWord "declare" then
    if let some parts ← r.modifierMember? "declare" true then return before ++ parts
  let _ ← eatModifier ["public", "protected", "private", "in", "out"]
  let _ ← eatWord "declare"
  let isStatic ← eatWord "static"
  if isStatic then
    if let some parts ← r.modifierMember? "static" false then return before ++ parts
  return before ++ (← r.plainMember isStatic)

def heritage : Parser Unit := do
  let closes : Parser Bool := do
    return (← isSign "\x7b") || (← isWord "implements") || (← isWord "extends")
  let _ ← r.separated closes do
    r.entityName
    if ← atOpenAngle then r.typeArguments

/-- What stands in a class, from the word `class` on. Without a name only where `named` does not
ask for one. The end of the source closes it too. -/
def classParts (named : Bool) : Parser (List Part) := do
  expectWord "class"
  let t ← token
  if named || t.isReference then
    let _ ← bindingIdentifier
  r.typeParameters?
  let superclass : Parser (List Part) := do
    let value ← r.operand
    if ← atOpenAngle then r.typeArguments
    return [.expr value]
  let above : List Part ← if ← eatWord "extends" then do
      let parts ← superclass
      if ← eat "," then r.heritage
      pure parts
    else pure []
  if ← eatWord "extends" then
    let _ ← superclass
  if ← eatWord "implements" then r.heritage
  if ← eatWord "implements" then r.heritage
  if ← eatWord "extends" then
    let _ ← superclass
  expect "\x7b"
  let body ← r.many do
    refuseFault
    if (← isDone) || (← isSign "\x7d") then return none
    if ← eat ";" then return some []
    return some (← within (fun m => { m with allowIn := true }) r.classMember)
  let _ ← eat "\x7d"
  return body.flatten ++ above

def classRest (named : Bool) : Parser Part := return .scope (← r.classParts named)

end Rules
end RoutePages.Script
