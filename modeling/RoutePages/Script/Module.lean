import RoutePages.Script.Grammar.Markup
import RoutePages.Script.Grammar.Module

/-!
# Modules

Ties the rules of the grammar together and reads whole sources. Where the whole of
a source could be read, the first flaw met on the way still spoils it.
-/
namespace RoutePages.Script

/-- The rules, each of which may use the others at a depth less by one. -/
def rules : Nat → Rules
  | 0 => Rules.exhausted
  | n + 1 =>
    { fuel := n + 1
      assignment := .later fun _ => (rules n).assignmentRule
      unary := .later fun _ => (rules n).unaryRule
      operators := fun e p => .later fun _ => (rules n).operatorsRule e p
      member := .later fun _ => (rules n).memberRule
      operand := .later fun _ => (rules n).operandRule
      markup := .later fun _ => (rules n).markupRule
      typeExpr := .later fun _ => (rules n).typeExprRule
      plainType := .later fun _ => (rules n).plainTypeRule
      typeOperand := .later fun _ => (rules n).typeOperandRule
      target := .later fun _ => (rules n).targetRule
      statement := fun b => .later fun _ => (rules n).statementRule b
      item := fun b => .later fun _ => (rules n).itemRule b }

/-- The items up to the end of the source, each with its parts. -/
def Rules.moduleItems (r : Rules) : Parser (List (List Part)) :=
  r.many do
    Parser.refuseFault
    if ← Parser.isDone then return none
    return some (← r.item true)

/-- A first line that names an interpreter is no part of the script. -/
def skipInterpreterLine (p : Place) : Place :=
  if p.at? "#!" then p.skip (p.rest.takeWhile fun c => !isLineEnd c).length else p

/-- The cursor at the start of a source. -/
def Cursor.start (source : Text) : Cursor :=
  let t := Token.next (skipInterpreterLine ⟨0, source⟩)
  { token := t, lastStop := 0, flaw := t.flaw, arrowStart := none }

/-- Depth enough for every source of this length. -/
def depthFor (source : Text) : Nat := 4 * source.length + 16

/-- Reads a module; `markup` says whether tags are part of the language. Fails with the
offset of the first token that cannot continue, or of the first flaw. -/
def parseItems (markup : Bool) (source : Text) : Except Nat (List (List Part)) :=
  match (rules (depthFor source)).moduleItems.run (Mode.start markup) (Cursor.start source) with
  | .failed offset _ => .error offset
  | .done items c =>
    match c.flaw with
    | some offset => .error offset
    | none => .ok items

/-- The parts of a module in source order. -/
def parseModule (markup : Bool) (source : Text) : Except Nat (List Part) :=
  (parseItems markup source).map List.flatten

/-- The text that holds an expression as its only statement. -/
def inParentheses (expression : Text) : Text := "(" ++ expression ++ "\n)"

/-- Reads a single expression. Its spans are one byte further on than in the given text. -/
def parseExpression? (markup : Bool) (expression : Text) : Option Expr :=
  match parseItems markup (inParentheses expression) with
  | .ok [[.expr (.paren inner _)]] => some inner
  | _ => none

end RoutePages.Script
