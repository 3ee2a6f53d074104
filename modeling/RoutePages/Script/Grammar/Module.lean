import RoutePages.Script.Grammar.Literal
import RoutePages.Script.Grammar.Statement

/-!
# Imports and exports
-/
namespace RoutePages.Script

open Script.Parser

/-- An identifier bound by an import, behind a name that was read as a plain word. -/
def refuseReserved (name : Text) (start : Nat) : Parser Unit := do
  if isReserved name then failAt start

/-- A word or a string. -/
def exportedName : Parser Text := do
  match (← token).lexeme with
  | .word name => advance; return name
  | .string value => advance; return value
  | _ => fail

/-- One name in the braces of an import: the local name it binds. The word `type` may mark
a name as a type, or be the name. -/
def importedName : Parser Text := do
  let t ← token
  let name ← exportedName
  if t.isString then
    if ← eatWord "as" then bindingIdentifier else failAt t.start.pos
  else if name == "type" && (← token).isAnyWord then
    let second ← token
    let marked ← anyWord
    if marked == "as" then
      if !(← token).isAnyWord then return marked
      let third ← bindingIdentifier
      if third == "as" && (← token).isAnyWord then bindingIdentifier else return third
    else if ← eatWord "as" then bindingIdentifier
    else
      refuseReserved marked second.start.pos
      return marked
  else if ← eatWord "as" then bindingIdentifier
  else
    refuseReserved name t.start.pos
    return name

def exportedItem : Parser Unit := do
  let name ← exportedName
  if name == "type" && (← token).isAnyWord then
    let marked ← anyWord
    if marked == "as" && (← token).isAnyWord then
      let third ← anyWord
      if third == "as" && (← token).isAnyWord then
        let _ ← anyWord
  if ← eatWord "as" then
    let _ ← exportedName

namespace Rules

variable (r : Rules)

/-- The attributes of an import, on the same line as its source. -/
def attributes? : Parser Unit := do
  let t ← token
  if !t.afterBreak && (t.isWord "assert" || t.isWord "with") then
    advance
    if ← isSign "\x7b" then
      let _ ← r.objectLiteral
    else fail

def fromClause : Parser Text := do
  expectWord "from"
  match (← token).lexeme with
  | .string source =>
    advance
    r.attributes?
    expectSemicolon
    return source
  | _ => fail

/-- An alias for an entity or a required module, from its `=` on. -/
def importEquals : Parser Unit := do
  expect "="
  if (← isWord "require") && (← ahead).isSign "(" then
    advance
    advance
    if (← token).isString then advance else fail
    expect ")"
  else r.entityName
  expectSemicolon

def importedNames : Parser (List Text) := do
  expect "\x7b"
  let names ← r.many do
    if (← isDone) || (← isSign "\x7d") then return none
    let name ← importedName
    commaUnless "\x7d"
    return some name
  expect "\x7d"
  return names

def importClause : Parser (List Text) := do
  if ← eat "*" then
    expectWord "as"
    return [← bindingIdentifier]
  else if ← isSign "\x7b" then r.importedNames
  else return []

/-- Is `type` a mark here, and not the name that is imported? -/
def atTypeMark : Parser Bool := do
  let next ← ahead
  return (← isWord "type") && !(next.isWord "from" || next.isSign "," || next.isSign "=")

def importedLocals? : Parser (Option (List Text)) := do
  if (← token).isReference then
    let name ← bindingIdentifier
    if ← isSign "=" then return none
    else if ← eat "," then return some (name :: (← r.importClause))
    else return some [name]
  else return some (← r.importClause)

def importDeclaration : Parser (List Part) := do
  let start ← here
  let next ← ahead
  if next.isSign "." || next.isSign "(" then
    let value ← r.expression
    let _ ← eatSemicolon
    return [.expr value]
  advance
  if let .string source := (← token).lexeme then
    advance
    r.attributes?
    expectSemicolon
    return [.imports [] source (← spanFrom start)]
  if ← atTypeMark then advance
  match ← r.importedLocals? with
  | none =>
    r.importEquals
    return []
  | some names =>
    let source ← r.fromClause
    return [.imports names source (← spanFrom start)]

def exportedDecorators : Parser (List Part) := do
  if ← isSign "@" then r.decorators false else return []

def exportDefault : Parser (List Part) := do
  let before ← r.exportedDecorators
  let next ← ahead
  if (← isWord "abstract") && next.isWord "class" && !next.afterBreak then
    advance
    return inScope before ++ [← r.classRest false]
  if (← isWord "abstract") && next.isWord "interface" then advance
  if ← eatWord "interface" then return ← r.interface
  if ← isWord "class" then return inScope before ++ [← r.classRest false]
  let next ← ahead
  if (← isWord "async") && next.isWord "function" && !next.afterBreak then
    advance
    return [← r.function true false]
  if ← isWord "function" then return [← r.function false false]
  let value ← r.fullAssignment
  expectSemicolon
  return [.expr value]

/-- Names in braces or a star, with the source they come from. -/
def exportClause : Parser (List Part) := do
  let next ← ahead
  if (← isWord "type") && (next.isSign "\x7b" || next.isSign "*") then advance
  if ← eat "*" then
    if ← eatWord "as" then
      let _ ← exportedName
    let _ ← r.fromClause
    return []
  expect "\x7b"
  let _ ← r.many do
    if (← isDone) || (← isSign "\x7d") then return none
    exportedItem
    commaUnless "\x7d"
    return some ()
  expect "\x7d"
  if ← isWord "from" then
    let _ ← r.fromClause
  else
    let _ ← eatSemicolon
  return []

def exportedDeclaration : Parser (List Part) := do
  let before ← r.exportedDecorators
  let next ← ahead
  if ← isWord "class" then return inScope before ++ [← r.classRest true]
  else if (← isWord "async") && next.isWord "function" && !next.afterBreak then
    advance
    return [← r.function true true]
  else if ← isWord "function" then return [← r.function false true]
  else if (← isWord "const") && next.isWord "enum" then
    advance
    advance
    r.enumeration
  else if (← isWord "var") || (← isWord "const") || ((← isWord "let") && next.followsLet) then
    r.variableDeclaration
  else r.exportClause

def exportedAmbient? : Parser (Option (List Part)) := do
  if ← eatWord "declare" then r.declared? else return none

/-- A declaration, if it comes out well. -/
def exportedHere? : Parser (Option (List Part)) :=
  attempt do
    match ← r.declarationHere? with
    | some parts => return parts
    | none => fail

/-- An export that is no declaration that comes out well. -/
def otherExport : Parser (List Part) := do
  if ← eatWord "import" then
    let next ← ahead
    if (← isWord "type") && next.isReference then advance
    let _ ← anyWord
    r.importEquals
    return []
  if ← eat "=" then
    let value ← r.expression
    expectSemicolon
    return [.expr value]
  if ← eatWord "as" then
    expectWord "namespace"
    let _ ← identifier
    expectSemicolon
    return []
  if ← eatWord "default" then r.exportDefault
  else r.exportedDeclaration

/-- An export, from the word on. A declaration that does not come out well is read again
as something else. -/
def exportDeclaration : Parser (List Part) := do
  advance
  refuseFault
  if ← isDone then fail
  match ← r.exportedAmbient? with
  | some parts => return parts
  | none =>
    match ← r.exportedHere? with
    | some parts => return parts
    | none => r.otherExport

/-- A statement, import or export with the decorators before it. -/
def itemRule (top : Bool) : Parser (List Part) := do
  if !top then return ← r.statement true
  let t ← token
  if t.isWord "import" then r.importDeclaration
  else if t.isWord "export" then r.exportDeclaration
  else if t.isSign "@" then
    let before ← r.decorators true
    if ← isWord "export" then return inScope before ++ (← r.exportDeclaration)
    else if ← isWord "import" then return inScope before ++ (← r.importDeclaration)
    else return inScope before ++ (← r.statement true)
  else r.statement true

end Rules
end RoutePages.Script
