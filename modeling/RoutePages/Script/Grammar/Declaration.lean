import RoutePages.Script.Grammar.Class
import RoutePages.Script.Grammar.Operator

/-!
# Declarations

Variables, and the declarations that belong to types: enumerations, interfaces,
aliases and namespaces.
-/
namespace RoutePages.Script

open Script.Parser

namespace Rules

variable (r : Rules)

/-- One declarator. In the head of a loop the value comes from the loop. A pattern needs an
initialiser, except in a constant or ambient declaration. -/
def declarator (inLoop constant : Bool) : Parser Declarator := do
  let start ← here
  let target ← r.target
  if target.name.isSome then
    let _ ← eat "!"
  let shape ← r.annotation?
  let isArray := shape = some .array
  if inLoop && ((← isWord "in") || (← isWord "of")) then
    return .mk target.name isArray target.inside none
  if ← eat "=" then
    let value ← r.assignment
    return .mk target.name isArray target.inside (some value)
  if target.name.isNone && !constant && !(← mode).ambient then failAt start
  return .mk target.name isArray target.inside none

def declaratorOrEnd (inLoop constant : Bool) : Parser (Option Declarator) := do
  if (← isSign ";") || (← isDone) then return none
  return some (← r.declarator inLoop constant)

/-- The declarators of one declaration; a comma at the end is let pass. -/
def declarators (inLoop constant : Bool) : Parser (List Declarator) := do
  match ← r.declaratorOrEnd inLoop constant with
  | none => return []
  | some d =>
    let more ← r.many do
      if ← eat "," then r.declaratorOrEnd inLoop constant else return none
    return d :: more

/-- Passes everything up to where a statement can end. -/
def skipStatement : Parser Unit := do
  let _ ← r.many do
    if ← eatSemicolon then return none
    advance
    match (← token).lexeme with
    | .fault _ => return none
    | _ => return some ()

/-- A declaration of variables. What follows it on the line by mistake is passed over. -/
def variableDeclaration : Parser (List Part) := do
  let constant ← isWord "const"
  advance
  let all ← within (fun m => { m with allowIn := true }) (r.declarators false constant)
  if !(← eatSemicolon) then
    let _ ← recover r.expression
    r.skipStatement
  return [.declaration all]

def loopVariables : Parser (List Part) := do
  let constant ← isWord "const"
  let plain ← isWord "var"
  advance
  let all ← within (fun m => { m with allowIn := !plain }) (r.declarators true constant)
  return [.declaration all]

def enumName : Parser (List Part) := do
  let t ← token
  if t.isString || t.isNumber || t.isBigint then
    advance
    return []
  else if ← eat "[" then
    let value ← r.expression
    expect "]"
    return [.expr value]
  else
    let _ ← anyWord
    return []

def enumMember : Parser (List Part × Bool) := do
  let inName ← r.enumName
  if ← eat "=" then
    let value ← r.assignment
    return (inName ++ [.expr value], true)
  return (inName, false)

/-- An enumeration behind its word. A missing comma is let pass; behind a member without
value one token is passed in its place. -/
def enumeration : Parser (List Part) := do
  let _ ← anyWord
  expect "\x7b"
  let members ← r.many do
    if ← isSign "\x7d" then return none
    let (parts, valued) ← r.enumMember
    if !(← eat ",") && !(← isSign "\x7d") && !valued then
      if ← isDone then fail
      advance
    return some parts
  expect "\x7d"
  return members.flatten

def interface : Parser (List Part) := do
  let _ ← anyWord
  r.typeParameters?
  if ← eatWord "extends" then r.heritage
  if ← isWord "extends" then
    let _ ← r.many do
      if (← isDone) || (← isSign "\x7b") then return none
      advance
      return some ()
  r.objectType
  return []

def typeAlias : Parser (List Part) := do
  let _ ← anyWord
  r.typeParameters?
  expect "="
  let _ ← r.typeExpr
  expectSemicolon
  return []

def moduleBlock : Parser (List Part) := do
  expect "\x7b"
  r.blockRest true

def namespaceRest : Parser (List Part) := do
  let _ ← anyWord
  let _ ← r.many do
    if ← eat "." then
      let _ ← anyWord
      return some ()
    else return none
  r.moduleBlock

def ambientModule : Parser (List Part) := do
  advance
  if ← isSign "\x7b" then r.moduleBlock
  else
    expectSemicolon
    return []

/-- Words that begin a declaration only in the right company. -/
def declarationWords : List Text :=
  Text.texts ["abstract", "enum", "interface", "module", "namespace", "type"]

/-- The declaration behind one of these words, which has been passed. Unless it is `sure`
that one follows, what stands here decides. -/
def wordDeclaration? (name : Text) (sure : Bool) : Parser (Option (List Part)) := do
  let t ← token
  if name == "abstract" then
    if sure || (t.isWord "class" && !t.afterBreak) then return some [← r.classRest true]
    else return none
  else if name == "enum" then
    if sure || t.isReference then return some (← r.enumeration) else return none
  else if name == "interface" then
    if sure || t.isReference then return some (← r.interface) else return none
  else if name == "module" && t.isString then return some (← r.ambientModule)
  else if name == "module" || name == "namespace" then
    if sure || t.isReference then return some (← r.namespaceRest) else return none
  else if name == "type" then
    if sure || (!t.afterBreak && t.isReference) then return some (← r.typeAlias) else return none
  else return none

def declarationHere? : Parser (Option (List Part)) := do
  match (← token).lexeme with
  | .word name =>
    if declarationWords.contains name then
      advance
      r.wordDeclaration? name true
    else return none
  | _ => return none

def declared? : Parser (Option (List Part)) := within (fun m => { m with ambient := true }) do
  let t ← token
  if t.isWord "function" then return some [← r.function false true]
  else if t.isWord "class" then return some [← r.classRest true]
  else if t.isWord "const" && (← ahead).isWord "enum" then
    advance
    advance
    return some (← r.enumeration)
  else if t.isWord "const" || t.isWord "var" || t.isWord "let" then
    return some (← r.variableDeclaration)
  else if t.isWord "global" then return some (← r.ambientModule)
  else r.declarationHere?

end Rules
end RoutePages.Script
