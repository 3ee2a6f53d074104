import RoutePages.Script.Scan.Forward
import RoutePages.Script.Tree

/-!
# Parsers with one current token

A parser sees the current token and moves forward, which its type makes sure of. It
fails at an offset. The first flaw met on the way is kept beside the current token,
since a flaw spoils the source only where the whole of it could be read.
-/
namespace RoutePages.Script

/-- What the surroundings of a construct allow. -/
structure Mode where
  markup : Bool
  allowIn : Bool
  /-- inside one of the branches of a conditional expression -/
  inConditional : Bool
  /-- a colon ends the expression that is being read -/
  colonEnds : Bool
  inAsync : Bool
  inGenerator : Bool
  ambient : Bool
  /-- `extends` does not begin a conditional type -/
  noConditionalType : Bool
  loopHead : Bool

def Mode.start (markup : Bool) : Mode :=
  { markup, allowIn := true, inConditional := false, colonEnds := false, inAsync := false,
    inGenerator := false, ambient := false, noConditionalType := false, loopHead := false }

/-- Where a parser is. -/
structure Cursor where
  token : Token
  /-- the end of the token read last -/
  lastStop : Nat
  /-- the first flaw so far -/
  flaw : Option Nat
  /-- the position at which the parameters of an arrow function may start -/
  arrowStart : Option Nat

namespace Cursor

def moved (c : Cursor) (t : Token) : Cursor :=
  { c with token := t, lastStop := c.token.stop.pos, flaw := c.flaw.or t.flaw }

def advanced (c : Cursor) : Cursor := c.moved (Token.next c.token.stop)

def ahead (c : Cursor) : Token := Token.next c.token.stop

/-- Where an unexpected current token is reported: the end of the source is reported at the
end of the last token. -/
def offset (c : Cursor) : Nat := if c.token.isDone then c.lastStop else c.token.start.pos

/-- The current token starts behind the token read last, and stops behind its own start. -/
structure Ordered (c : Cursor) : Prop where
  start : c.lastStop ≤ c.token.start.pos
  stop : c.token.start.pos ≤ c.token.stop.pos

/-- From one cursor a parser can get to the other: what is in order stays so, and nothing
goes back. -/
def Reaches (c d : Cursor) : Prop :=
  c.Ordered → d.Ordered ∧ c.token.start.pos ≤ d.token.start.pos ∧ c.lastStop ≤ d.lastStop

theorem Reaches.refl (c : Cursor) : c.Reaches c := fun h => ⟨h, Nat.le_refl _, Nat.le_refl _⟩

theorem Reaches.trans {c d e : Cursor} (hd : c.Reaches d) (he : d.Reaches e) : c.Reaches e := by
  intro h
  obtain ⟨hd, hstart, hlast⟩ := hd h
  obtain ⟨he, hstart', hlast'⟩ := he hd
  exact ⟨he, Nat.le_trans hstart hstart', Nat.le_trans hlast hlast'⟩

theorem reaches_moved (c : Cursor) {t : Token} (ht : t.Behind c.token.stop) :
    c.Reaches (c.moved t) := fun h =>
  ⟨⟨ht.1, ht.2⟩, Nat.le_trans h.stop ht.1, Nat.le_trans h.start h.stop⟩

theorem reaches_advanced (c : Cursor) : c.Reaches c.advanced :=
  c.reaches_moved (Token.next_behind _)

end Cursor

/-- How a parser ends. A failure keeps the cursor, because some failures are passed over. -/
inductive Outcome (α : Type) where
  | done (value : α) (cursor : Cursor)
  | failed (offset : Nat) (cursor : Cursor)

def Outcome.cursor {α : Type} : Outcome α → Cursor
  | done _ c => c
  | failed _ c => c

/-- A parser, which never moves back. -/
structure Parser (α : Type) where
  run : Mode → Cursor → Outcome α
  forward : ∀ (m : Mode) (c : Cursor), c.Reaches (run m c).cursor

namespace Parser

def andThen {α β : Type} (p : Parser α) (f : α → Parser β) : Parser β where
  run m c :=
    match p.run m c with
    | .done a c => (f a).run m c
    | .failed offset c => .failed offset c
  forward m c := by
    have hp := p.forward m c
    split
    · rename_i a d heq
      rw [heq] at hp
      exact hp.trans ((f a).forward m d)
    · rename_i offset d heq
      rw [heq] at hp
      exact hp

def give {α : Type} (a : α) : Parser α := ⟨fun _ c => .done a c, fun _ c => .refl c⟩

instance : Monad Parser where
  pure := give
  bind := andThen

/-- A parser that is made when it is run. -/
def later {α : Type} (p : Unit → Parser α) : Parser α :=
  ⟨fun m c => (p ()).run m c, fun m c => (p ()).forward m c⟩

/-- Looks at the mode and the cursor and moves nothing. -/
def look {α : Type} (f : Mode → Cursor → α) : Parser α :=
  ⟨fun m c => .done (f m c) c, fun _ c => .refl c⟩

/-- Changes what is kept beside the token. -/
def adjust (flaw arrowStart : Cursor → Option Nat) : Parser Unit :=
  ⟨fun _ c => .done () { c with flaw := flaw c, arrowStart := arrowStart c }, fun _ _ h =>
    ⟨⟨h.start, h.stop⟩, Nat.le_refl _, Nat.le_refl _⟩⟩

/-- Fails at an offset, unless the current token is itself a fault. -/
def failAt {α : Type} (offset : Nat) : Parser α where
  run _ c :=
    match c.token.lexeme with
    | .fault within => .failed within c.advanced
    | _ => .failed offset c
  forward _ c := by
    split
    · exact c.reaches_advanced
    · exact .refl c

def fail {α : Type} : Parser α :=
  ⟨fun m c => (failAt c.offset).run m c, fun m c => (failAt c.offset : Parser α).forward m c⟩

instance {α : Type} : Inhabited (Parser α) := ⟨fail⟩

def cursor : Parser Cursor := look fun _ c => c

def mode : Parser Mode := look fun m _ => m

def token : Parser Token := look fun _ c => c.token

def ahead : Parser Token := look fun _ c => c.ahead

def here : Parser Nat := look fun _ c => c.token.start.pos

def advance : Parser Unit := ⟨fun _ c => .done () c.advanced, fun _ c => c.reaches_advanced⟩

/-- Reads the current token in another way. -/
def reread (read : Place → Read) (h : ∀ p, p.pos ≤ (read p).stop.pos) : Parser Unit where
  run _ c :=
    let t := c.token.reread read
    .done () { c with token := t, flaw := c.flaw.or t.flaw }
  forward _ c hc := ⟨⟨hc.start, h c.token.start⟩, Nat.le_refl _, Nat.le_refl _⟩

/-- Passes the current token and reads the next in another way. -/
def moveTo (read : Place → Token) (h : ∀ p, (read p).Behind p) : Parser Unit :=
  ⟨fun _ c => .done () (c.moved (read c.token.stop)), fun _ c => c.reaches_moved (h _)⟩

def note (offset : Nat) : Parser Unit := adjust (·.flaw.or (some offset)) (·.arrowStart)

def setArrowStart (offset : Option Nat) : Parser Unit := adjust (·.flaw) fun _ => offset

/-- The span from a position to the end of the last token. -/
def spanFrom (start : Nat) : Parser Span := look fun _ c => ⟨start, c.lastStop⟩

def within {α : Type} (change : Mode → Mode) (p : Parser α) : Parser α :=
  ⟨fun m c => p.run (change m) c, fun m c => p.forward (change m) c⟩

/-- Runs a parser that may turn out to be the wrong one. Flaws met inside are forgotten. -/
def attempt {α : Type} (p : Parser α) : Parser (Option α) where
  run m c :=
    match p.run m c with
    | .done a after => .done (some a) { after with flaw := c.flaw }
    | .failed _ _ => .done none c
  forward m c := by
    have hp := p.forward m c
    split
    · rename_i heq
      rw [heq] at hp
      exact fun h => ⟨⟨(hp h).1.start, (hp h).1.stop⟩, (hp h).2⟩
    · exact .refl c

/-- Runs a parser and, where it fails, goes on with another from there. The other one sees
the offset of the failure. -/
def rescue {α : Type} (p : Parser α) (q : Nat → Parser α) : Parser α where
  run m c :=
    match p.run m c with
    | .done a c => .done a c
    | .failed offset c => (q offset).run m c
  forward m c := by
    have hp := p.forward m c
    split
    · rename_i heq
      rw [heq] at hp
      exact hp
    · rename_i offset d heq
      rw [heq] at hp
      exact hp.trans ((q offset).forward m d)

/-- Fails at an offset, even where the current token is a fault. -/
def raise {α : Type} (offset : Nat) : Parser α := ⟨fun _ c => .failed offset c, fun _ c => .refl c⟩

/-- Runs a parser and goes on where it failed. -/
def recover {α : Type} (p : Parser α) : Parser (Option α) :=
  rescue (andThen p fun a => give (some a)) fun _ => give none

/-- Does a parser answer `true` here? Nothing is moved. -/
def foresee (p : Parser Bool) : Parser Bool := look fun m c =>
  match p.run m c with
  | .done b _ => b
  | .failed _ _ => false

/-- Takes the current token for another kind of token. -/
def retag (lexeme : Lexeme) : Parser Unit where
  run _ c := .done () { c with token := { c.token with lexeme } }
  forward _ _ h := ⟨⟨h.start, h.stop⟩, Nat.le_refl _, Nat.le_refl _⟩

def refuseAt : Option Nat → Parser Unit
  | some offset => failAt offset
  | none => give ()

/-- A fault as the current token is a failure. -/
def refuseFault : Parser Unit := do
  match (← token).lexeme with
  | .fault offset => failAt offset
  | _ => pure ()

def isSign (s : Text) : Parser Bool := return (← token).isSign s

def isWord (w : Text) : Parser Bool := return (← token).isWord w

def isOneOf (signs : List String) : Parser Bool :=
  return match (← token).lexeme with
    | .sign s => signs.any (·.toList == s)
    | _ => false

def isDone : Parser Bool := return (← token).isDone

def eat (s : Text) : Parser Bool := do
  if ← isSign s then advance; pure true else pure false

def eatWord (w : Text) : Parser Bool := do
  if ← isWord w then advance; pure true else pure false

def expect (s : Text) : Parser Unit := do
  if ← isSign s then advance else fail

def expectWord (w : Text) : Parser Unit := do
  if ← isWord w then advance else fail

/-- Passes the comma behind an item, which only the last one before the closing sign can do
without. -/
def commaUnless (closing : Text) : Parser Unit := do
  if !(← isSign closing) then expect ","

/-- Can a statement end before the current token? -/
def atEnd : Parser Bool := do
  let t ← token
  pure (t.isSign ";" || t.isSign "\x7d" || t.isDone || t.afterBreak)

/-- Passes a semicolon, or finds that none is needed. -/
def eatSemicolon : Parser Bool := do
  if ← eat ";" then pure true else atEnd

def expectSemicolon : Parser Unit := do
  if !(← eatSemicolon) then fail

/-- Collects results until the step gives none, at most as often as the fuel allows. -/
def many {α : Type} (step : Parser (Option α)) : Nat → Parser (List α)
  | 0 => fail
  | fuel + 1 => do
    match ← step with
    | none => pure []
    | some a => return a :: (← many step fuel)

/-- Passes a value from step to step until the step says that it is the last. -/
def iterate {α : Type} (step : α → Parser (α × Bool)) : Nat → α → Parser α
  | 0, _ => fail
  | fuel + 1, a => do
    let (b, more) ← step a
    if more then iterate step fuel b else pure b

/-- Any word, reserved ones included. -/
def anyWord : Parser Text := do
  match (← token).lexeme with
  | .word name => advance; pure name
  | _ => fail

/-- Words that a module may not use as identifiers, although they name no construct. -/
def strictWords : List Text := Text.texts ["yield", "let", "static", "implements",
  "interface", "package", "private", "protected", "public"]

/-- An identifier. Strict words are flaws; other reserved words are no identifiers. -/
def identifier : Parser Text := do
  let t ← token
  match t.lexeme with
  | .word name =>
    if strictWords.contains name then note t.start.pos
    advance
    if strictWords.contains name then pure name
    else if name == "this" || name == "enum" || (name == "await" && (← mode).ambient) then pure name
    else if isReserved name then failAt t.start.pos
    else pure name
  | _ => fail

/-- An identifier that is bound. The names `eval` and `arguments` are flaws. -/
def bindingIdentifier : Parser Text := do
  let t ← token
  if t.isWord "eval" || t.isWord "arguments" then note t.start.pos
  identifier

end Parser
end RoutePages.Script
