import RoutePages.Script.Grammar.Arrow
import RoutePages.Script.Grammar.Class

/-!
# Primary expressions, members and calls
-/
namespace RoutePages.Script

open Script.Parser

namespace Rules

variable (r : Rules)

/-- An asynchronous arrow function with type parameters, if one stands here. -/
def genericAsync? (canBeArrow : Bool) (start : Nat) : Parser (Option Expr) := do
  if canBeArrow && (← ahead).isSign "<" then
    attempt (do advance; r.genericAsyncArrow start)
  else return none

/-- What can follow the word `async`, if not an ordinary use of the name. -/
def asyncPrimary? (canBeArrow : Bool) : Parser (Option Expr) := do
  let start ← here
  let next ← ahead
  if next.isWord "function" && !next.afterBreak then
    advance
    let part ← r.function true false
    return some (.compound .function [part] (← spanFrom start))
  match ← r.genericAsync? canBeArrow start with
  | some value => return some value
  | none =>
    if canBeArrow && next.isSign "(" then
      advance
      return some (← r.parenthesised canBeArrow (some start))
    else return none

/-- An identifier, or the arrow function of which it is the parameter. -/
def namePrimary (canBeArrow : Bool) : Parser Expr := do
  let t ← token
  let name ← identifier
  let ident := Expr.ident name (← spanFrom t.start.pos)
  let next ← token
  if canBeArrow && name == "async" && !next.afterBreak && next.isReference then
    if (← mode).loopHead && next.isWord "of" && !(← ahead).isSign "=>" then return ident
    let parameter ← bindingIdentifier
    if parameter == "as" && !(← isSign "=>") then
      let _ ← r.typeExpr
      return .asType ident (← spanFrom t.start.pos)
    r.nameArrow t.start.pos true
  else if canBeArrow && !next.afterBreak && next.isSign "=>" then
    if name == "eval" || name == "arguments" then note t.start.pos
    r.nameArrow t.start.pos false
  else return ident

def wordPrimary (name : Text) (canBeArrow : Bool) : Parser Expr := do
  let t ← token
  if name == "null" then
    advance
    return .null (← spanFrom t.start.pos)
  if name == "true" || name == "false" then
    advance
    return .bool (name == "true") (← spanFrom t.start.pos)
  if name == "this" then
    advance
    return .compound .other [] t.span
  if name == "function" then
    let part ← r.function false false
    return .compound .function [part] (← spanFrom t.start.pos)
  if name == "class" then
    let part ← r.classRest false
    return .compound .classBody [part] (← spanFrom t.start.pos)
  match ← if name == "async" then r.asyncPrimary? canBeArrow else pure none with
  | some value => return value
  | none =>
    if name == "let" || name == "await" || !isReserved name then r.namePrimary canBeArrow
    else fail

def primary : Parser Expr := do
  let t ← token
  let canBeArrow := (← cursor).arrowStart = some t.start.pos
  match t.lexeme with
  | .word name => r.wordPrimary name canBeArrow
  | .string value => advance; return .string value (← spanFrom t.start.pos)
  | .number value => advance; return .number value (← spanFrom t.start.pos)
  | .bigint => advance; return .bigint (← spanFrom t.start.pos)
  | .sign s =>
    if s == "(" then r.parenthesised canBeArrow none
    else if s == "[" then r.arrayLiteral
    else if s == "\x7b" then r.objectLiteral
    else if s == "\x60" then r.templateLiteral
    else if s == "/" || s == "/=" then
      reread regex regex_le
      refuseFault
      advance
      return .regex (← spanFrom t.start.pos)
    else if s == "@" then
      let before ← r.decorators false
      let start ← here
      let part ← r.classRest false
      return .compound .classBody (inScope before ++ [part]) (← spanFrom start)
    else if s == "#" then
      advance
      let _ ← anyWord
      return .compound .other [] (← spanFrom t.start.pos)
    else fail
  | _ => fail

def atExpression : Parser Bool := do
  let t ← token
  if t.isString || t.isNumber || t.isBigint || t.isReference then return true
  if ← isOneOf ["\x60", "(", "[", "\x7b", "+", "-", "~", "!", "++", "--", "<", "#", "@", "/"] then
    return true
  match t.lexeme with
  | .word name => return (Text.texts ["this", "super", "null", "true", "false", "function", "class",
      "new", "delete", "typeof", "void", "await", "yield", "import"]).contains name
  | _ => return false

/-- Type arguments that stand alone behind an expression. -/
def loneTypeArguments? : Parser Bool := do
  if !(← isSign "<") then return false
  let found ← attempt do
    r.typeArguments
    joinAngles
    if ← isOneOf ["<", ">", "+", "-", "(", "\x60"] then fail
    if !(← token).afterBreak && !(← atBinarySign) && (← atExpression) then fail
  return found.isSome

/-- Is it a chain, or one marked as not null? -/
def isChain (e : Expr) : Bool :=
  e.form? = some .chain || e.form? = some .assertedChain

def callForm (optional : Bool) (callee : Expr) : Form :=
  if optional || isChain callee then .chain else .call

def memberForm (optional : Bool) (object : Expr) : Form :=
  if optional || object.form? = some .chain then .chain else .member

def taggedTemplate (start : Nat) (tag : Expr) : Parser Expr := do
  let (_, holes) ← r.templateRest true
  return .compound .taggedTemplate (.expr tag :: holes.map .expr) (← spanFrom start)

/-- A call or tagged template with type arguments, if one stands here. -/
def typedCall? (start : Nat) (noCall : Bool) (callee : Expr) : Parser (Option Expr) := do
  if !(← atOpenAngle) then return none
  attempt do
    r.typeArguments
    if !noCall && (← isSign "(") then
      let given ← r.arguments
      return .compound (callForm false callee) (.expr callee :: given) (← spanFrom start)
    else if ← isSign "\x60" then r.taggedTemplate start callee
    else fail

def eatOptional : Parser Bool := do
  if (← isSign "?") && (← ahead).isSign "." then
    advance
    advance
    return true
  else return false

/-- A member or call behind an expression, perhaps an optional one, or a template. -/
def memberStep (start : Nat) (noCall optional : Bool) (base : Expr) : Parser (Expr × Bool) := do
  if ← isSign "[" then
    advance
    let index ← r.fullExpression
    expect "]"
    return (.compound (memberForm optional base) [.expr base, .expr index] (← spanFrom start), true)
  if optional && (← isSign "<") then r.typeArguments
  if (← isSign "(") && (optional || !noCall) then
    let given ← r.arguments
    return (.compound (callForm optional base) (.expr base :: given) (← spanFrom start), true)
  if optional || (← eat ".") then
    let _ ← eat "#"
    let _ ← anyWord
    return (.compound (memberForm optional base) [.expr base] (← spanFrom start), true)
  if ← isSign "\x60" then return (← r.taggedTemplate start base, true)
  return (base, false)

/-- One step behind an expression: a member, a call, a template or a mark. -/
def subscript (start : Nat) (noCall : Bool) (base : Expr) : Parser (Expr × Bool) := do
  let t ← token
  if t.isSign "!" && !t.afterBreak then
    advance
    let form : Form := if isChain base then .assertedChain else .other
    return (.compound form [.expr base] (← spanFrom start), true)
  match ← r.typedCall? start noCall base with
  | some value => return (value, true)
  | none => r.memberStep start noCall (← eatOptional) base

def subscripts (noCall : Bool) (base : Expr) : Parser Expr :=
  r.iterate (r.subscript base.start noCall) base

def superMember (noCall : Bool) : Parser Expr := do
  let start ← here
  advance
  let t ← token
  if t.isSign "[" then
    advance
    let index ← r.fullExpression
    expect "]"
    r.subscripts noCall (.compound .member [.expr index] (← spanFrom start))
  else if t.isSign "." then
    advance
    let _ ← eat "#"
    let _ ← anyWord
    r.subscripts noCall (.compound .member [] (← spanFrom start))
  else if t.isSign "(" && !noCall then
    let given ← r.arguments
    r.subscripts noCall (.compound .call given (← spanFrom start))
  else fail

def importMember (noCall : Bool) : Parser Expr := do
  let start ← here
  advance
  if ← eat "." then
    expectWord "meta"
    r.subscripts noCall (.compound .other [] (← spanFrom start))
  else if (← isSign "(") && !noCall then
    let given ← r.arguments
    r.subscripts noCall (.compound .call given (← spanFrom start))
  else fail

def creation : Parser Expr := do
  let start ← here
  advance
  if ← eat "." then
    expectWord "target"
    return ← r.subscripts true (.compound .other [] (← spanFrom start))
  let callee ← r.member
  if callee.isArrow then return callee
  if callee.form? = some .chain then failAt callee.start
  if ← atOpenAngle then
    let _ ← attempt do
      r.typeArguments
      if !(← isSign "(") then fail
  if ← isSign "(" then
    let given ← r.arguments
    r.subscripts true (.compound .new (.expr callee :: given) (← spanFrom start))
  else
    -- without arguments, nothing but the callee belongs to it
    return .compound .new [.expr callee] (← spanFrom start)

def memberRule : Parser Expr := do
  let t ← token
  if t.isWord "new" then r.creation
  else if t.isWord "super" then r.superMember true
  else if t.isWord "import" then r.importMember true
  else
    let base ← r.primary
    if base.isArrow then return base
    let base ← if ← r.loneTypeArguments? then
        pure (Expr.compound .other [.expr base] (← spanFrom t.start.pos))
      else pure base
    r.subscripts true base

/-- A failure inside markup stands: the angle brackets of tags are no operators. -/
def wholeMarkup : Parser (List Part) :=
  rescue r.markup fun offset => do
    if ← isOneOf ["<", ">"] then retag .markupText
    raise offset

def callTypes : Parser Bool := do
  if ← atOpenAngle then
    return (← attempt do
      r.typeArguments
      if !(← isSign "(") then fail).isSome
  else return false

/-- An operand: markup, or a member with the calls behind it. -/
def operandRule : Parser Expr := do
  let t ← token
  let next ← ahead
  if (← mode).markup && t.isSign "<" && !next.isSign "!" then
    let inside ← r.wholeMarkup
    advance
    return .compound .markup inside (← spanFrom t.start.pos)
  if t.isWord "super" then return ← r.superMember false
  if t.isWord "import" then return ← r.importMember false
  let callee ← r.member
  if callee.isArrow then return callee
  let typed ← r.callTypes
  if callee.form? = some .new && !(← isSign "(") then
    if typed then fail
    return callee
  if ← isSign "(" then
    let given ← r.arguments
    let span ← spanFrom t.start.pos
    let value := Expr.compound (callForm false callee) (.expr callee :: given) span
    r.subscripts false value
  else if typed then fail
  else return callee

end Rules
end RoutePages.Script
