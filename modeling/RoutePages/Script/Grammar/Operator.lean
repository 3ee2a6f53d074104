import RoutePages.Script.Grammar.Function

/-!
# Operators, conditionals and assignments
-/
namespace RoutePages.Script

open Script.Parser

def precedences : List (String × Nat) := [
  ("??", 1), ("||", 1), ("&&", 2), ("|", 3), ("^", 4), ("&", 5),
  ("==", 6), ("!=", 6), ("===", 6), ("!==", 6),
  ("<", 7), (">", 7), ("<=", 7), (">=", 7), ("<<", 8), (">>", 8), (">>>", 8),
  ("+", 9), ("-", 9), ("*", 10), ("/", 10), ("%", 10), ("**", 11)]

def relational : Nat := 7

def precedence? (s : Text) : Option Nat :=
  (precedences.find? fun (sign, _) => sign.toList == s).map (·.2)

def assignmentSigns : List Text := Text.texts ["=", "+=", "-=", "*=", "/=", "%=", "**=", "<<=",
  ">>=", ">>>=", "&=", "|=", "^=", "&&=", "||=", "??="]

/-- The signs that begin with `>`, longest first. -/
def rightSigns : List Text := Text.texts [">>>=", ">>>", ">>=", ">>", ">="]

/-- A `>` with the signs right behind it. -/
def joinedAngles (p : Place) : Read :=
  match rightSigns.find? p.at? with
  | some s => ⟨.sign s, p.skip s.length, none⟩
  | none => ⟨.sign ">", p.next, none⟩

theorem joinedAngles_le (p : Place) : p.pos ≤ (joinedAngles p).stop.pos := by
  unfold joinedAngles
  split
  · exact p.pos_le_skip _
  · exact p.pos_le_next

def joinAngles : Parser Unit := do
  if ← isSign ">" then reread joinedAngles joinedAngles_le

/-- Is the current token a binary operator that is a sign? -/
def atBinarySign : Parser Bool := do
  match (← token).lexeme with
  | .sign s => return (precedence? s).isSome
  | _ => return false

def operatorHere? : Parser (Option Nat) := do
  joinAngles
  match (← token).lexeme with
  | .sign s => return precedence? s
  | .word name =>
    if name == "instanceof" || (name == "in" && (← mode).allowIn) then return some relational
    else return none
  | _ => return none

namespace Rules

variable (r : Rules)

/-- One step of reading operators: `as`, `satisfies` or a binary operator with its right
operand. -/
def operatorStep (tight : Nat) (left : Expr) : Parser (Expr × Bool) := do
  let t ← token
  if tight < relational && !t.afterBreak && (t.isWord "as" || t.isWord "satisfies") then
    advance
    if t.isWord "as" && (← isWord "const") then
      advance
      return (.asConst left (← spanFrom left.start), true)
    let _ ← r.typeExpr
    let span ← spanFrom left.start
    return (if t.isWord "as" then .asType left span else .compound .other [.expr left] span, true)
  refuseFault
  match ← operatorHere? with
  | none => return (left, false)
  | some p =>
    if p ≤ tight then return (left, false)
    let power ← isSign "**"
    advance
    if power && (match left with
        | .minus _ _ => true
        | e => e.form? == some .prefixed || e.form? == some .awaiting) then fail
    let inner ← r.unary
    let right ← r.operators inner (if power then p - 1 else p)
    return (.compound .binary [.expr left, .expr right] ⟨left.start, right.stop⟩, true)

def operatorsRule (left : Expr) (tight : Nat) : Parser Expr :=
  r.iterate (r.operatorStep tight) left

/-- An operand that could not be read and is let pass. -/
def missing (offset : Nat) : Expr := .compound .other [] ⟨offset, offset⟩

/-- Operands and binary operators. An operand missing before an operator is let pass. -/
def binary : Parser Expr := do
  let left ← rescue r.unary fun offset => do
    if ← foresee (return (← operatorHere?).isSome) then return missing offset else raise offset
  if left.isArrow then return left
  r.operators left 0

def await : Parser Expr := do
  let start ← here
  advance
  if ← isSign "*" then fail
  if (← isOneOf [")", "]"]) && !(← mode).inAsync then
    return .ident "await" (← spanFrom start)
  let value ← r.unary
  return .compound .awaiting [.expr value] (← spanFrom start)

/-- A type assertion in angle brackets. Only `<const>` is looked through like `as const`. -/
def assertion : Parser Expr := do
  let start ← here
  advance
  if ← eatWord "const" then
    expect ">"
    let value ← r.unary
    return .asConst value (← spanFrom start)
  let _ ← r.typeExpr
  expect ">"
  let value ← r.unary
  return .compound .other [.expr value] (← spanFrom start)

def prefixSigns : List String := ["+", "-", "~", "!"]

def unaryRule : Parser Expr := do
  let t ← token
  if !(← mode).markup && t.isSign "<" then r.assertion
  else if ← isOneOf ["++", "--"] then
    advance
    let value ← r.unary
    return .compound .update [.expr value] ⟨t.start.pos, value.stop⟩
  else if (← isOneOf prefixSigns) || t.isWord "delete" || t.isWord "void" || t.isWord "typeof" then
    advance
    let start ← here
    let value := (← recover r.unary).getD (missing (start - 1))
    if t.isWord "delete" && value.name?.isSome then note value.start
    let span : Span := ⟨t.start.pos, value.stop⟩
    if t.isSign "-" then return .minus value span
    else return .compound .prefixed [.expr value] span
  else if t.isWord "await" then r.await
  else
    let value ← r.operand
    if value.isArrow || (← token).afterBreak then return value
    if ← isOneOf ["++", "--"] then
      advance
      return .compound .update [.expr value] (← spanFrom value.start)
    return value

def branches (test : Expr) (start : Nat) : Parser Expr := do
  let first ← within (fun m => { m with inConditional := true, colonEnds := true, allowIn := true })
    r.assignment
  expect ":"
  let second ← within (fun m => { m with inConditional := true, colonEnds := false }) r.assignment
  return .compound .conditional [.expr test, .expr first, .expr second] ⟨start, second.stop⟩

def conditional : Parser Expr := do
  let start ← here
  let test ← r.binary
  if test.isArrow then return test
  if ← eat "?" then r.branches test start else return test

def assignmentRest (start : Nat) (left : Expr) : Parser Expr := do
  refuseFault
  joinAngles
  match (← token).lexeme with
  | .sign s =>
    if assignmentSigns.contains s then
      if s == "=" then
        refuseAt left.clash?
      if left.name? = some "eval" ∨ left.name? = some "arguments" then note left.start
      advance
      let right ← r.assignment
      return .compound .assignment [.expr left, .expr right] (← spanFrom start)
    else return left
  | _ => return left

def yielding : Parser Expr := do
  let start ← here
  advance
  let t ← token
  let idle ← (do
    if ← atEnd then return true
    if ← isOneOf [")", "]", ",", ":", ";"] then return true
    return t.isWord "in" || t.isWord "of")
  if idle then return .compound .awaiting [] (← spanFrom start)
  let _ ← eat "*"
  let value ← r.assignment
  return .compound .awaiting [.expr value] (← spanFrom start)

/-- An arrow function with type parameters, if one stands here. -/
def genericArrow? (body : Parser Expr) : Parser (Option Expr) :=
  attempt do
    let start ← here
    r.typeParameters
    let value ← body
    match value with
    | .compound .arrow parts span => return .compound .arrow parts ⟨start, span.stop⟩
    | _ => fail

/-- An expression without a comma, except an arrow function with type parameters where
those look like a tag. -/
def assignmentBase : Parser Expr := do
  let t ← token
  if (← mode).inGenerator && t.isWord "yield" then return ← r.yielding
  refuseFault
  setArrowStart (if (t.isAnyWord && !keywords.contains (match t.lexeme with
      | .word name => name
      | _ => [])) || t.isSign "(" || t.isWord "yield" then some t.start.pos else none)
  let value ← r.conditional
  if value.isArrow then return value
  match value.form? with
  | some .conditional | some .binary | some .prefixed | some .update => return value
  | _ =>
    match value with
    | .minus _ _ => return value
    | _ => r.assignmentRest t.start.pos value

def assignmentRule : Parser Expr := do
  if (← isSign "<") && (← ahead).isAnyWord then
    let generic ← within (fun m => { m with colonEnds := false }) (r.genericArrow? r.assignment)
    match generic with
    | some value => return value
    | none => r.assignmentBase
  else r.assignmentBase

end Rules
end RoutePages.Script
