import RoutePages.Script.Grammar.Rules

/-!
# Types

Types are read for their extent. Of the whole tree only the outermost shape is
kept: an array type is what follows the name of a route table.
-/
namespace RoutePages.Script

open Script.Parser

/-- Can the current token follow a modifier on its line? -/
def followsModifier : Parser Bool := do
  let t ← token
  pure (!t.afterBreak && (t.isAnyWord || t.isString || t.isNumber || t.isBigint ||
    (← isOneOf ["[", "\x7b", "*", "...", "#"])))

def eatModifier (names : List String) : Parser Bool := do
  match (← token).lexeme with
  | .word name =>
    if names.any (·.toList == name) then
      if ← foresee (do advance; followsModifier) then advance; pure true
      else pure false
    else pure false
  | _ => pure false

def eatAccessModifier : Parser Bool := do
  let t ← token
  let next ← ahead
  if (t.isWord "public" || t.isWord "protected" || t.isWord "private" || t.isWord "readonly") &&
      (next.isAnyWord || next.isSign "\x7b" || next.isSign "[") then
    eatModifier ["public", "protected", "private", "readonly"]
  else pure false

/-- At a `<`, also one that was read together with another. -/
def atOpenAngle : Parser Bool := do
  let t ← token
  pure (t.isSign "<" || t.isSign "<<")

/-- Passes a `<`, and if it was read together with another, only the first. -/
def expectOpenAngle : Parser Unit := do
  if ← isSign "<<" then
    reread (fun p => ⟨.sign "<", p.next, none⟩) Place.pos_le_next
    moveTo (fun p => ⟨.sign "<", p, p.next, false, none⟩) fun p => ⟨Nat.le_refl _, p.pos_le_next⟩
  else expect "<"

/-- At a word that can be referred to, with another such word and no line break behind it. -/
def wordsAhead (second : Text) : Parser Bool := do
  let next ← ahead
  pure ((← token).isReference && next.isWord second && !next.afterBreak)

namespace Rules

variable (r : Rules)

def typeArguments : Parser Unit := do
  expectOpenAngle
  let _ ← r.separated (isSign ">") r.typeExpr
  expect ">"

def annotation : Parser Shape := do
  expect ":"
  r.typeExpr

def annotation? : Parser (Option Shape) := do
  if ← isSign ":" then return some (← r.annotation) else return none

def typeParameter : Parser Unit := do
  let _ ← r.many do
    if ← eatModifier ["public", "private", "protected", "readonly", "abstract", "const",
        "override", "in", "out"] then return some () else return none
  let _ ← anyWord
  if ← eatWord "extends" then
    let _ ← r.typeExpr
  if ← eat "=" then
    let _ ← r.typeExpr

def typeParameters : Parser Unit := do
  expect "<"
  let _ ← r.separated (isSign ">") r.typeParameter
  expect ">"

def typeParameters? : Parser Unit := do
  if ← isSign "<" then r.typeParameters

def entityName : Parser Unit := do
  let _ ← anyWord
  let _ ← r.many do
    if ← eat "." then
      let _ ← anyWord
      return some ()
    else return none

/-- A return type or predicate behind `mark`. -/
def returnType (mark : Text) : Parser Unit := do
  expect mark
  let next ← ahead
  let asserts := (← isWord "asserts") && next.isReference && !next.afterBreak
  if asserts then advance
  let predicate ← wordsAhead "is"
  if asserts || predicate then
    let _ ← anyWord
    if predicate then
      advance
      let _ ← r.typeExpr
  else
    let _ ← r.typeExpr

def initialiser? : Parser (Option Expr) := do
  if ← eat "=" then return some (← r.fullAssignment) else return none

def bindingElement : Parser (Target × Bool) := do
  let target ← r.target
  match ← r.initialiser? with
  | some value => return (⟨none, target.inside ++ [.expr value]⟩, true)
  | none => return (target, false)

def restParameter : Parser (List Part × Bool) := do
  let target ← r.target
  let value ← r.initialiser?
  let _ ← r.annotation?
  let _ ← eat "?"
  return (target.inside ++ value.toList.map .expr, false)

/-- A parameter, and whether it has a default value. One that is a property too needs a name or
a default value. -/
def parameter (isProperty : Bool) : Parser (List Part × Bool) := do
  let _ ← eatAccessModifier
  let start ← here
  let (target, given) ← r.bindingElement
  if ← isSign "?" then
    if given then advance; failAt start else advance
  let _ ← r.annotation?
  match ← r.initialiser? with
  | some value => return (target.inside ++ [.expr value], true)
  | none =>
    if isProperty && target.name.isNone && !given then failAt start
    return (target.inside, given)

/-- A parameter of a constructor. A modifier makes it a property. -/
def constructorParameter : Parser (List Part × Bool) := do
  let isAccessible ← eatModifier ["public", "protected", "private", "in", "out"]
  let isOverride ← eatModifier ["override"]
  let isReadonly ← eatModifier ["readonly"]
  r.parameter (isAccessible || isOverride || isReadonly)

/-- The parameters up to the closing parenthesis, with the expressions in them. Also says
whether one has a default value. -/
def parameterList (decorators : Parser (List Part)) (last one : Parser (List Part × Bool)) :
    Parser (List Part × Bool) := do
  let all ← r.many do
    if (← isSign ")") || (← isDone) then return none
    let before ← decorators
    let inside ← if ← eat "..." then last else one
    commaUnless ")"
    return some (before ++ inside.1, inside.2)
  return (all.flatMap (·.1), all.any (·.2))

def parameters (decorators : Parser (List Part)) : Parser (List Part × Bool) :=
  r.parameterList decorators r.restParameter (r.parameter false)

def constructorParameters (decorators : Parser (List Part)) : Parser (List Part × Bool) :=
  r.parameterList decorators
    (do
      let target ← r.target
      let _ ← r.annotation?
      return (target.inside, false))
    r.constructorParameter

def signatureParameters : Parser Unit := do
  expect "("
  let (_, given) ← r.parameters (pure [])
  expect ")"
  if given then fail

def memberEnd : Parser Unit := do
  if !(← eat ",") then expectSemicolon

/-- A call or construct signature, with the word `new` passed. -/
def signatureMember : Parser Unit := do
  r.typeParameters?
  r.signatureParameters
  if ← isSign ":" then r.returnType ":"
  memberEnd

/-- An index signature in brackets, if one stands here. -/
def indexSignature? : Parser Bool := do
  let found ← foresee do
    expect "["
    if !(← token).isReference then return false
    advance
    isOneOf [":", ","]
  if found then
    advance
    let _ ← anyWord
    if !(← eat ",") then expect ":"
    let _ ← r.typeExpr
    expect "]"
    let _ ← r.annotation?
    memberEnd
  return found

def memberName : Parser Unit := do
  if ← eat "[" then
    let _ ← r.assignment
    expect "]"
  else
    let t ← token
    if t.isString || t.isNumber || t.isBigint then advance
    else
      let _ ← eat "#"
      let _ ← anyWord

def accessorMember : Parser Unit := do
  if ← eatWord "get" then
    r.memberName
    expect "("
    expect ")"
    let _ ← r.annotation?
    memberEnd
  else
    expectWord "set"
    r.memberName
    expect "("
    let empty ← isSign ")"
    let (_, given) ← r.parameters (pure [])
    expect ")"
    if given || empty then fail
    memberEnd

def typeMember : Parser Unit := do
  let next ← ahead
  if ← isOneOf ["(", "<"] then r.signatureMember
  else if (← isWord "new") && (next.isSign "(" || next.isSign "<") then
    advance
    r.signatureMember
  else
    let constant ← eatModifier ["readonly"]
    if ← r.indexSignature? then return
    if !constant then
      if (← attempt r.accessorMember).isSome then return
    r.memberName
    let _ ← eat "?"
    if ← isOneOf ["(", "<"] then
      if constant then fail
      r.signatureMember
    else
      let _ ← r.annotation?
      memberEnd

def objectType : Parser Unit := do
  expect "\x7b"
  let _ ← r.many do
    if ← isSign "\x7d" then return none
    r.typeMember
    return some ()
  expect "\x7d"

def atMappedType : Parser Bool := foresee do
  advance
  if (← eat "+") || (← eat "-") then isWord "readonly"
  else
    let _ ← eatWord "readonly"
    if !(← eat "[") then return false
    if !(← token).isReference then return false
    advance
    isWord "in"

def mappedType : Parser Unit := do
  expect "\x7b"
  if (← eat "+") || (← eat "-") then expectWord "readonly"
  else
    let _ ← eatWord "readonly"
  expect "["
  let _ ← anyWord
  expectWord "in"
  let _ ← r.typeExpr
  if ← eatWord "as" then
    let _ ← r.typeExpr
  expect "]"
  if (← eat "+") || (← eat "-") then expect "?"
  else
    let _ ← eat "?"
  let _ ← r.annotation?
  expectSemicolon
  expect "\x7d"

def tupleElement : Parser Unit := do
  let _ ← attempt do
    let _ ← eat "..."
    let _ ← anyWord
    let _ ← eat "?"
    expect ":"
  let _ ← eat "..."
  let _ ← r.typeExpr
  let _ ← eat "?"

def tupleType : Parser Unit := do
  expect "["
  let _ ← r.separated (isSign "]") r.tupleElement
  expect "]"

/-- Refuses the piece of a template that nothing closes, or whose text is malformed unless only
the `raw` text counts. -/
def checkPiece (raw : Bool) (opening : Nat) (piece : QuotedRead) : Parser Unit := do
  if !piece.closed then failAt opening
  match piece.malformed with
  | some offset => if !raw then failAt offset
  | none => pure ()

/-- Reads on in a template after its backtick, passing the substitutions with `hole`. Gives
the texts and the results, and ends behind the closing backtick. -/
def templateParts {α : Type} (raw : Bool) (hole : Parser α) : Parser (List Text × List α) := do
  let opening ← here
  r.iterate (fun (texts, holes) => do
    let piece := templatePiece (← token).stop
    checkPiece raw opening piece
    let texts := texts ++ [piece.value]
    if piece.stop.at? "\x60" then
      moveTo (Token.pieceEnd "\x60") (Token.pieceEnd_behind _)
      advance
      return ((texts, holes), false)
    else
      moveTo (Token.pieceEnd "$\x7b") (Token.pieceEnd_behind _)
      advance
      let value ← hole
      if !(← isSign "\x7d") then fail
      return ((texts, holes ++ [value]), true)) ([], [])

def importType : Parser Unit := do
  advance
  expect "("
  if (← token).isString then advance else fail
  expect ")"
  if ← eat "." then r.entityName
  if ← atOpenAngle then r.typeArguments

def typeReference : Parser Unit := do
  let _ ← eatAccessModifier
  r.entityName
  if (← atOpenAngle) && !(← token).afterBreak then r.typeArguments

def typeQuery : Parser Unit := do
  advance
  if ← isWord "import" then r.importType
  else
    r.entityName
    if (← atOpenAngle) && !(← token).afterBreak then r.typeArguments

/-- Keywords that name a type. -/
def typeKeywords : List Text := Text.texts ["void", "null", "any", "boolean", "bigint",
  "never", "number", "object", "string", "symbol", "unknown", "undefined", "intrinsic"]

def wordType (name : Text) : Parser Unit := do
  let next ← ahead
  if name == "import" then r.importType
  else if name == "typeof" then r.typeQuery
  else if name == "this" then
    advance
    if (← isWord "is") && !(← token).afterBreak then
      advance
      let _ ← r.typeExpr
  else if name == "true" || name == "false" then advance
  else if name == "asserts" && next.isWord "this" then
    advance
    advance
    if ← eatWord "is" then
      let _ ← r.typeExpr
  else if typeKeywords.contains name && !next.isSign "." then advance
  else if keywords.contains name && !(name == "void" || name == "yield" || name == "await" ||
      name == "break") then fail
  else r.typeReference

def primaryType : Parser Unit := do
  let t ← token
  match t.lexeme with
  | .word name => r.wordType name
  | .string _ => advance
  | .number _ => advance
  | .bigint => advance
  | .sign s =>
    if s == "-" then
      advance
      let t ← token
      if t.isNumber || t.isBigint then advance else fail
    else if s == "\x7b" then
      if ← atMappedType then r.mappedType else r.objectType
    else if s == "[" then r.tupleType
    else if s == "(" then
      advance
      let _ ← r.typeExpr
      expect ")"
    else if s == "\x60" then
      let _ ← r.templateParts false r.typeExpr
    else fail
  | _ => fail

/-- A type with the brackets that follow it on its line. -/
def bracketedType : Parser Shape := do
  r.primaryType
  r.iterate (fun shape => do
    let t ← token
    if t.isSign "[" && !t.afterBreak then
      advance
      if ← eat "]" then return (.array, true)
      else
        let _ ← r.typeExpr
        expect "]"
        return (.other, true)
    else return (shape, false)) .other

/-- `infer`, with the constraint unless it begins a conditional type. -/
def inferType : Parser Unit := do
  advance
  let _ ← anyWord
  let _ ← attempt do
    expectWord "extends"
    let _ ← r.plainType
    if !(← mode).noConditionalType && (← isSign "?") then fail

def typeOperandRule : Parser Shape := do
  if (← isWord "keyof") || (← isWord "unique") || (← isWord "readonly") then
    advance
    let _ ← r.typeOperand
    return .other
  else if ← isWord "infer" then
    r.inferType
    return .other
  else r.bracketedType

/-- Operands joined by an operator, which may also stand before the first. -/
def joined (operator : Text) (operand : Parser Shape) : Parser Shape := do
  let _ ← eat operator
  let first ← operand
  let more ← r.many do
    if ← eat operator then return some (← operand) else return none
  return if more.isEmpty then first else .other

def atFunctionType : Parser Bool := foresee do
  advance
  if ← isOneOf [")", "..."] then return true
  let _ ← eatAccessModifier
  let passed : Bool ← if (← token).isAnyWord then do advance; pure true
    else if ← isOneOf ["\x7b", "["] then do
      let _ ← r.target
      pure true
    else pure false
  if !passed then return false
  if ← isOneOf [":", ",", "?", "="] then return true
  if ← eat ")" then isSign "=>" else return false

def functionType : Parser Unit := do
  r.typeParameters?
  r.signatureParameters
  r.returnType "=>"

def plainTypeRule : Parser Shape := do
  let t ← token
  let next ← ahead
  if t.isSign "<" || (t.isSign "(" && (← r.atFunctionType)) then
    r.functionType
    return .other
  else if t.isWord "new" || (t.isWord "abstract" && next.isWord "new") then
    let _ ← eatWord "abstract"
    advance
    r.functionType
    return .other
  else r.joined "|" (r.joined "&" r.typeOperand)

def typeExprRule : Parser Shape := within (fun m => { m with noConditionalType := false }) do
  let checked ← r.plainType
  if (← token).afterBreak || !(← isWord "extends") then return checked
  advance
  let _ ← within (fun m => { m with noConditionalType := true }) r.plainType
  expect "?"
  let _ ← r.typeExpr
  expect ":"
  let _ ← r.typeExpr
  return .other

end Rules
end RoutePages.Script
