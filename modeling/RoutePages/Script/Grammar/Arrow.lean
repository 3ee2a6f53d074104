import RoutePages.Script.Grammar.Literal

/-!
# Parentheses and arrow functions

What stands in parentheses is read as expressions that may turn out to be
parameters. Items with a type are parameters for certain.
-/
namespace RoutePages.Script

open Script.Parser

inductive Item where
  | value (e : Expr)
  | spread (e : Expr)
  /-- an optional or typed item, which can only be a parameter -/
  | parameter (inside : List Part)

namespace Item

def parts : Item → List Part
  | value e => [.expr e]
  | spread e => [.expr e]
  | parameter inside => inside

def value? : Item → Option Expr
  | value e => some e
  | _ => none

def isParameter : Item → Bool
  | parameter _ => true
  | _ => false

/-- The position of what keeps the item from being a parameter. -/
def clash? : Item → Option Nat
  | value e => e.clash?
  | spread e => e.clash?
  | parameter _ => none

/-- The position of a parameter with a forbidden name. -/
def strictName? : Item → Option Nat
  | value e | spread e =>
    if e.name? = some "eval" ∨ e.name? = some "arguments" then some e.start else none
  | parameter _ => none

end Item

def asParameters (items : List Item) : Parser (List Part) := do
  refuseAt (items.findSome? Item.clash?)
  for offset in items.filterMap Item.strictName? do note offset
  return items.flatMap Item.parts

namespace Rules

variable (r : Rules)

/-- The expression of an item and whether it is spread. A name is not read on into a
conditional, since its question mark may make it optional. -/
def itemValue : Parser (Expr × Bool) := do
  let start ← here
  let t ← token
  let next ← ahead
  if t.isReference || (t.isSign "..." && next.isReference) then
    if ← eat "..." then return (← r.binary, true)
    else
      let value ← r.binary
      return (← r.assignmentRest start value, false)
  else
    let spread ← eat "..."
    return (← r.assignment, spread)

/-- Passes the mark of an optional parameter, which has to be a plain name. -/
def optionalMark (value : Expr) (offset : Nat) : Parser Unit := do
  advance
  if value.name?.isNone then failAt offset

/-- The value of an item, read on into a conditional where it is the test of one. -/
def itemBranches (isTest : Bool) (value : Expr) (start : Nat) : Parser Expr := do
  if isTest then
    advance
    r.branches value start
  else pure value

def parenItem : Parser Item := do
  let start ← here
  setArrowStart (some start)
  let _ ← eatAccessModifier
  let inner ← here
  let (value, spread) ← r.itemValue
  let next ← ahead
  let marked ← isSign "?"
  let optional := marked &&
    (next.isSign "," || next.isSign "=" || next.isSign ")" || next.isSign ":")
  if optional then optionalMark value (if spread then inner else value.start)
  let value ← r.itemBranches (marked && !optional && !spread) value start
  if optional || (← isSign ":") then
    refuseAt value.clash?
    let _ ← r.annotation?
    let given ← r.initialiser?
    return .parameter (.expr value :: given.toList.map .expr)
  else if spread then return .spread value
  else return .value value

/-- The items between parentheses, which are passed. -/
def parenItems : Parser (List Item) :=
  within (fun m => { m with colonEnds := false, allowIn := true }) do
    expect "("
    let items ← r.many do
      if (← isDone) || (← isSign ")") then return none
      let item ← r.parenItem
      commaUnless ")"
      return some item
    expect ")"
    return items

/-- An arrow function from its body on. A block may be followed by operators. -/
def arrowRest (start : Nat) (inAsync : Bool) (params : List Part) : Parser Expr := do
  let (body, isBlock) ← r.arrowBody inAsync
  let value := Expr.compound .arrow [.scope (params ++ body)] (← spanFrom start)
  if isBlock && (← atBinarySign) then r.operators value 0 else return value

/-- An arrow function with a return type, in a place where the colon of the type may
instead belong to a conditional expression. -/
def typedArrow? (start : Nat) (inAsync : Bool) (items : List Item) : Parser (Option Expr) :=
  attempt do
    r.returnType ":"
    expect "=>"
    let params ← asParameters items
    let (body, _) ← r.arrowBody inAsync
    if (← mode).colonEnds && !(← isSign ":") then fail
    return .compound .arrow [.scope (params ++ body)] (← spanFrom start)

/-- What the items stand for where no arrow follows. -/
def grouped (start : Nat) (items : List Item) : Parser Expr := do
  if items.isEmpty then failAt start
  for item in items do
    if let .spread e := item then failAt e.start
  let values := items.filterMap Item.value?
  let span ← spanFrom start
  match values with
  | [e] => return .paren e span
  | e :: more =>
    let stop := (more.getLast?.getD e).stop
    return .paren (.compound .sequence (values.map .expr) ⟨e.start, stop⟩) span
  | [] => fail

/-- The arrow function that a colon inside a conditional expression may belong to. -/
def conditionalArrow? (start : Nat) (inAsync : Bool) (items : List Item) :
    Parser (Option Expr) := do
  if (← mode).inConditional && (← isSign ":") then r.typedArrow? start inAsync items
  else return none

/-- Passes the return type of an arrow function, if one stands here. -/
def arrowType : Parser Bool := do
  if !(← mode).colonEnds && (← isSign ":") then
    return (← attempt do
      r.returnType ":"
      if !(← isSign "=>") then fail).isSome
  else return false

/-- A parenthesised expression, an arrow function, or a call of a function named `async`. -/
def parenthesised (canBeArrow : Bool) (asyncStart : Option Nat) : Parser Expr := do
  let start := asyncStart.getD (← here)
  let inAsync := asyncStart.isSome
  let items ← r.parenItems
  match ← r.conditionalArrow? start inAsync items with
  | some value => return value
  | none =>
    let typed ← r.arrowType
    if typed || items.any Item.isParameter || (← isSign "=>") then
      if (← token).afterBreak || !canBeArrow then failAt start
      expect "=>"
      let params ← asParameters items
      r.arrowRest start inAsync params
    else
      match asyncStart with
      | some _ => return .compound .call (items.flatMap Item.parts) (← spanFrom start)
      | none => grouped start items

/-- An arrow function whose only parameter is a plain name. -/
def nameArrow (start : Nat) (inAsync : Bool) : Parser Expr := do
  expect "=>"
  let (body, _) ← r.arrowBody inAsync
  return .compound .arrow [.scope body] (← spanFrom start)

def genericAsyncArrow (start : Nat) : Parser Expr := do
  r.typeParameters
  expect "("
  let (params, _) ← r.parameters (r.decorators false)
  expect ")"
  if ← isSign ":" then r.returnType ":"
  expect "=>"
  let (body, _) ← r.arrowBody true
  return .compound .arrow [.scope (params ++ body)] (← spanFrom start)

end Rules
end RoutePages.Script
