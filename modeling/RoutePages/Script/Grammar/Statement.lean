import RoutePages.Script.Grammar.Declaration

/-!
# Statements
-/
namespace RoutePages.Script

open Script.Parser

/-- Can the token follow `let` in a declaration? -/
def Token.followsLet (t : Token) : Bool :=
  match t.lexeme with
  | .word name => !keywords.contains name || name == "let" || name == "yield" || name == "await"
  | .sign s => s == "[" || s == "\x7b"
  | _ => false

namespace Rules

variable (r : Rules)

def condition : Parser (List Part) := do
  expect "("
  let value ← r.fullExpression
  expect ")"
  return [.expr value]

def body : Parser (List Part) := r.statement false

def ifStatement : Parser (List Part) := do
  advance
  expect "("
  let test ← r.fullExpression
  -- without the closing parenthesis the statement is let pass as it is
  if !(← eat ")") then return [.expr test]
  let first ← r.body
  if ← eatWord "else" then return .expr test :: first ++ (← r.body)
  else return .expr test :: first

def countingTest : Parser (List Part) := do
  if ← eat ";" then return []
  let value ← r.fullExpression
  expect ";"
  return [.expr value]

def countingStep : Parser (List Part) := do
  if ← isSign ")" then return [] else return [.expr (← r.fullExpression)]

def countingHead : Parser (List Part) := do
  let test ← r.countingTest
  return test ++ (← r.countingStep)

def eachHead : Parser (List Part) := do
  let isOver ← isWord "of"
  advance
  if isOver then return [.expr (← r.fullAssignment)] else return [.expr (← r.fullExpression)]

def loopHead : Parser (List Part) := do
  let t ← token
  if t.isWord "const" || t.isWord "var" || (t.isWord "let" && (← ahead).followsLet) then
    let declared ← r.loopVariables
    if (← isWord "of") || (← isWord "in") then return declared ++ (← r.eachHead)
    expect ";"
    return declared ++ (← r.countingHead)
  if ← eat ";" then return ← r.countingHead
  let first ← within (fun m => { m with allowIn := false, loopHead := true }) r.expression
  if (← isWord "of") || (← isWord "in") then
    refuseAt first.clash?
    return .expr first :: (← r.eachHead)
  expect ";"
  return .expr first :: (← r.countingHead)

def forStatement : Parser (List Part) := do
  advance
  let _ ← eatWord "await"
  expect "("
  let head ← r.loopHead
  expect ")"
  return head ++ (← r.body)

/-- A loop whose test stands behind its body is looked through test first. -/
def doStatement : Parser (List Part) := do
  advance
  let inside ← r.body
  expectWord "while"
  let test ← r.condition
  let _ ← eatSemicolon
  return test ++ inside

def whileStatement : Parser (List Part) := do
  advance
  let test ← r.condition
  return test ++ (← r.body)

/-- The clauses of a `switch`. The second default clause is refused. -/
def clauses : Parser (List Part) := do
  let (parts, _) ← r.iterate (fun (parts, hasDefault) => do
    if ← eatWord "case" then
      let test ← r.fullExpression
      expect ":"
      return ((parts ++ .expr test :: (← clauseBody r), hasDefault), true)
    else if ← eatWord "default" then
      if hasDefault then fail
      expect ":"
      return ((parts ++ (← clauseBody r), true), true)
    else return ((parts, hasDefault), false)) ([], false)
  return parts
where
  clauseBody (r : Rules) : Parser (List Part) := do
    let inside ← r.many do
      if (← isDone) || (← isSign "\x7d") || (← isWord "case") || (← isWord "default") then
        return none
      return some (← r.item false)
    return inside.flatten

def switchStatement : Parser (List Part) := do
  advance
  let subject ← r.condition
  expect "\x7b"
  let inside ← r.clauses
  expect "\x7d"
  return subject ++ inside

def catchTarget : Parser (List Part) := do
  if ← eat "(" then
    let target ← r.target
    if ← eat ":" then
      let _ ← r.typeExpr
    expect ")"
    return target.inside
  else return []

def catchClause : Parser (List Part) := do
  if ← eatWord "catch" then
    let bound ← r.catchTarget
    return bound ++ (← r.block)
  else return []

def finallyClause : Parser (List Part) := do
  if ← eatWord "finally" then r.block else return []

def tryStatement : Parser (List Part) := do
  advance
  let inside ← r.block
  let caught ← r.catchClause
  return inside ++ caught ++ (← r.finallyClause)

def jump : Parser (List Part) := do
  advance
  if !(← eatSemicolon) then
    let _ ← identifier
    expectSemicolon
  return []

def returnStatement : Parser (List Part) := do
  advance
  if ← eatSemicolon then return []
  let value ← r.fullExpression
  expectSemicolon
  return [.expr value]

def throwStatement : Parser (List Part) := do
  advance
  if (← token).afterBreak then fail
  let value ← r.fullExpression
  expectSemicolon
  return [.expr value]

/-- The old statement that opens an object as a scope is a flaw. -/
def withStatement : Parser (List Part) := do
  note (← here)
  advance
  let subject ← r.condition
  return subject ++ (← r.body)

def awaitStatement : Parser (List Part) := do
  let value ← r.await
  let value ← within (fun m => { m with allowIn := true }) (r.operators value 0)
  let _ ← eatSemicolon
  return [.expr value]

/-- Declarations whose values are disposed of. They bind no variable of a module. -/
def usingDeclaration : Parser (List Part) := do
  advance
  let all ← within (fun m => { m with allowIn := true }) (r.declarators false true)
  return all.flatMap fun
    | .mk _ _ inside init => inside ++ init.toList.map .expr

/-- A declaration behind a word that was read as an expression of its own. -/
def loneWord? (name : Text) : Parser (Option (List Part)) := do
  if name == "declare" then r.declared?
  else if name == "global" then
    if ← isSign "\x7b" then return some (← r.moduleBlock) else return none
  else if name == "static" || name == "abstract" then
    match ← r.wordDeclaration? name false with
    | some parts => return some parts
    | none =>
      if ← eatWord "interface" then return some (← r.interface) else return none
  else r.wordDeclaration? name false

def expressionEnd (value : Expr) : Parser (List Part) := do
  if ← eatSemicolon then return [.expr value]
  refuseFault
  if ← atBinarySign then return [.expr (← r.operators value 0)]
  fail

/-- An expression, a label, or a declaration that begins like an expression. -/
def expressionStatement : Parser (List Part) := do
  let value ← r.fullExpression
  match value with
  | .ident name _ =>
    if ← eat ":" then r.body
    else
      match ← r.loneWord? name with
      | some parts => return parts
      | none => r.expressionEnd value
  | _ => r.expressionEnd value

def wordStatement (name : Text) (declarations : Bool) : Parser (List Part) := do
  let t ← token
  let next ← ahead
  if name == "break" || name == "continue" then jump
  else if name == "debugger" then
    advance
    expectSemicolon
    return []
  else if name == "do" then r.doStatement
  else if name == "for" then r.forStatement
  else if name == "function" then return [← r.function false true]
  else if name == "class" then return [← r.classRest true]
  else if name == "if" then r.ifStatement
  else if name == "return" then r.returnStatement
  else if name == "switch" then r.switchStatement
  else if name == "throw" then r.throwStatement
  else if name == "try" then r.tryStatement
  else if name == "with" then r.withStatement
  else if name == "while" then r.whileStatement
  else if name == "catch" then
    let caught ← recover r.catchClause
    let after ← recover r.finallyClause
    return caught.getD [] ++ after.getD []
  else if name == "finally" then
    return (← recover r.finallyClause).getD []
  else if name == "await" && declarations then r.awaitStatement
  else if name == "const" && next.isWord "enum" then
    advance
    advance
    r.enumeration
  else if name == "var" || (name == "const" && declarations) then r.variableDeclaration
  else if name == "let" && declarations && next.followsLet then r.variableDeclaration
  else if name == "using" && next.isReference && !next.afterBreak then r.usingDeclaration
  else if name == "async" && next.isWord "function" && !next.afterBreak then
    advance
    return [← r.function true true]
  else if (name == "enum" || name == "interface") && next.isReference && !next.afterBreak then
    advance
    return (← r.wordDeclaration? name true).getD []
  else if name == "interface" && next.afterBreak then
    note t.start.pos
    advance
    return []
  else r.expressionStatement

/-- A statement without what may stand before it. -/
def plainStatement (declarations : Bool) : Parser (List Part) := do
  refuseFault
  if ← isDone then fail
  match (← token).lexeme with
  | .word name => r.wordStatement name declarations
  | .sign s =>
    if s == ";" then
      advance
      return []
    else if s == "\x7b" then r.block
    else r.expressionStatement
  | _ => r.expressionStatement

/-- A statement with its decorators, where no import or export is allowed. -/
def statementRule (declarations : Bool) : Parser (List Part) :=
  within (fun m => { m with colonEnds := false }) do
    let before ← r.decorators true
    let t ← token
    let next ← ahead
    if t.isWord "export" || (t.isWord "import" && !next.isSign "(" && !next.isSign ".") then fail
    else if t.isWord "import" then
      let value ← r.expression
      let _ ← eatSemicolon
      return inScope before ++ [.expr value]
    else return inScope before ++ (← r.plainStatement declarations)

end Rules
end RoutePages.Script
