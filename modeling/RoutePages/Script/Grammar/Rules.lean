import RoutePages.Script.Grammar.Parser

/-!
# The rules that refer to each other

Each part of the grammar is written over the rules below, which it may use at any
depth. The fuel bounds the loops; the knot is tied once, by recursion on the fuel.
-/
namespace RoutePages.Script

/-- What matters of a type: is it an array type, written `T[]`? -/
inductive Shape where
  | array
  | other
  deriving DecidableEq

/-- A pattern that binds: the name, if it is a plain one, and the expressions inside. -/
structure Target where
  name : Option Text
  inside : List Part

/-- Decorators, which stand in a scope of their own, if there are any. -/
def inScope (decorators : List Part) : List Part :=
  if decorators.isEmpty then [] else [.scope decorators]

/-- The mutually dependent rules. -/
structure Rules where
  fuel : Nat
  /-- an expression without a comma -/
  assignment : Parser Expr
  /-- the operand of an operator -/
  unary : Parser Expr
  /-- the operators that bind tighter than a precedence, after their left operand -/
  operators : Expr → Nat → Parser Expr
  /-- what can follow `new`, and the start of a call -/
  member : Parser Expr
  /-- an operand without operators of its own -/
  operand : Parser Expr
  /-- markup from `<` to its last `>`, which stays the current token -/
  markup : Parser (List Part)
  typeExpr : Parser Shape
  /-- a type that is not conditional -/
  plainType : Parser Shape
  /-- a type without an infix operator -/
  typeOperand : Parser Shape
  target : Parser Target
  /-- a statement; declarations are not allowed everywhere -/
  statement : (declarations : Bool) → Parser (List Part)
  /-- a statement or, at the top, an import or export -/
  item : (top : Bool) → Parser (List Part)

/-- Rules that fail, for when the fuel is used up. -/
def Rules.exhausted : Rules :=
  { fuel := 0, assignment := Parser.fail, unary := Parser.fail,
    operators := fun _ _ => Parser.fail, member := Parser.fail, operand := Parser.fail,
    markup := Parser.fail, typeExpr := Parser.fail, plainType := Parser.fail,
    typeOperand := Parser.fail,
    target := Parser.fail, statement := fun _ => Parser.fail, item := fun _ => Parser.fail }

namespace Rules

variable (r : Rules)

def many {α : Type} (step : Parser (Option α)) : Parser (List α) := Parser.many step r.fuel

def iterate {α : Type} (step : α → Parser (α × Bool)) (a : α) : Parser α :=
  Parser.iterate step r.fuel a

def expression : Parser Expr := do
  let first ← r.assignment
  if ← Parser.isSign "," then
    let more ← r.many do
      if ← Parser.eat "," then return some (← r.assignment) else return none
    let all := first :: more
    let stop := (more.getLast?.getD first).stop
    return .compound .sequence (all.map .expr) ⟨first.start, stop⟩
  else return first

def fullExpression : Parser Expr :=
  Parser.within (fun m => { m with allowIn := true }) r.expression

/-- An expression without a comma in which `in` is an operator. -/
def fullAssignment : Parser Expr :=
  Parser.within (fun m => { m with allowIn := true }) r.assignment

/-- Items separated by commas up to a closing token, which stays. -/
def separated {α : Type} (closes : Parser Bool) (item : Parser α) : Parser (List α) :=
  r.many do
    if ← closes then return none
    let a ← item
    if !(← Parser.eat ",") then
      if !(← closes) then Parser.fail
    return some a

end Rules
end RoutePages.Script
