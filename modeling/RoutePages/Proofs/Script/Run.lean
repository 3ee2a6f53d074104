import RoutePages.Script.Module

/-!
# Running parsers

What a parser does on a cursor, one equation for each combinator, so that a production is run by
rewriting with them and with what is known of its tokens.
-/
namespace RoutePages.Script

/-- The cursor at a place inside a source. -/
def Cursor.at (p : Place) : Cursor :=
  { token := Token.next p, lastStop := p.pos, flaw := (Token.next p).flaw, arrowStart := none }

theorem Cursor.at_token {p : Place} {c : Cursor} {t : Token} (hc : Cursor.at p = c)
    (h : Token.next p = t) : c.token = t := by
  rw [← hc, ← h]
  rfl

theorem Cursor.advanced_token {c : Cursor} {t u : Token} (h : c.token = t)
    (hnext : Token.next t.stop = u) : c.advanced.token = u := by
  rw [← hnext, ← h]
  rfl

theorem Cursor.advanced_flaw {c : Cursor} (h : c.advanced.token.flaw = none) :
    c.advanced.flaw = c.flaw := by
  have hflaw : c.advanced.flaw = c.flaw.or c.advanced.token.flaw := rfl
  rw [hflaw, h, Option.or_none]

namespace Parser

variable {α β : Type} (m : Mode) (c : Cursor)

@[simp] theorem bind_run (p : Parser α) (f : α → Parser β) :
    (p >>= f).run m c =
      match p.run m c with
      | .done a d => (f a).run m d
      | .failed offset d => .failed offset d := rfl

/-- Two parsers in a row give a result where each of them does. -/
theorem bind_eq_done {p : Parser α} {f : α → Parser β} {b : β} {d : Cursor} :
    (p >>= f).run m c = .done b d ↔ ∃ a e, p.run m c = .done a e ∧ (f a).run m e = .done b d := by
  rw [bind_run]
  constructor
  · intro h
    split at h
    · rename_i a e hp
      exact ⟨a, e, hp, h⟩
    · cases h
  · rintro ⟨a, e, hp, hf⟩
    rw [hp]
    exact hf

@[simp] theorem pure_run (a : α) : (pure a : Parser α).run m c = .done a c := rfl

@[simp] theorem token_run : token.run m c = .done c.token c := rfl

@[simp] theorem cursor_run : cursor.run m c = .done c c := rfl

@[simp] theorem mode_run : mode.run m c = .done m c := rfl

@[simp] theorem here_run : here.run m c = .done c.token.start.pos c := rfl

@[simp] theorem ahead_run : ahead.run m c = .done c.ahead c := rfl

@[simp] theorem advance_run : advance.run m c = .done () c.advanced := rfl

@[simp] theorem spanFrom_run (start : Nat) :
    (spanFrom start).run m c = .done ⟨start, c.lastStop⟩ c := rfl

@[simp] theorem setArrowStart_run (offset : Option Nat) :
    (setArrowStart offset).run m c = .done () { c with arrowStart := offset } := rfl

@[simp] theorem isSign_run (s : Text) : (isSign s).run m c = .done (c.token.isSign s) c := rfl

@[simp] theorem isWord_run (w : Text) : (isWord w).run m c = .done (c.token.isWord w) c := rfl

@[simp] theorem isDone_run : isDone.run m c = .done c.token.isDone c := rfl

@[simp] theorem rescue_run (p : Parser α) (q : Nat → Parser α) :
    (rescue p q).run m c =
      match p.run m c with
      | .done a d => .done a d
      | .failed offset d => (q offset).run m d := rfl

/-- A choice is run by its condition. -/
@[simp] theorem ite_run (b : Prop) [Decidable b] (p q : Parser α) :
    (if b then p else q).run m c = if b then p.run m c else q.run m c := by
  split <;> rfl

/-- A sign that is not there is not passed. -/
theorem eat_run_false {s : Text} (h : c.token.isSign s = false) :
    (eat s).run m c = .done false c := by
  simp [eat, h]

theorem eat_run_true {s : Text} (h : c.token.isSign s = true) :
    (eat s).run m c = .done true c.advanced := by
  simp [eat, h]

theorem eatWord_run_false {w : Text} (h : c.token.isWord w = false) :
    (eatWord w).run m c = .done false c := by
  simp [eatWord, h]

theorem expectWord_run {w : Text} (h : c.token.isWord w = true) :
    (expectWord w).run m c = .done () c.advanced := by
  simp [expectWord, h]

theorem fail_run_ne (a : α) (d : Cursor) : (fail : Parser α).run m c ≠ .done a d := by
  intro h
  unfold fail failAt at h
  dsimp only at h
  split at h
  · cases h
  · cases h

/-- A word that is passed stands there. -/
theorem isWord_of_expectWord {w : Text} {u : Unit} {d : Cursor}
    (h : (expectWord w).run m c = .done u d) : c.token.isWord w = true := by
  cases hword : c.token.isWord w with
  | true => rfl
  | false =>
    simp only [expectWord, bind_run, isWord_run, hword, Bool.false_eq_true, if_false] at h
    exact absurd h (fail_run_ne m c u d)

/-- No fault stands at a word, a sign or the like. -/
theorem refuseFault_run (h : ∀ offset, c.token.lexeme ≠ .fault offset) :
    refuseFault.run m c = .done () c := by
  simp only [refuseFault, bind_run, token_run, pure_run]

/-- Where the one token stands the parser gives a value and stops at the other token. It meets no
flaw on the way, except perhaps that of the token where it stops. -/
def GivesAt (p : Parser α) (m : Mode) (t : Token) (a : α) (u : Token) : Prop :=
  ∀ c : Cursor, c.token = t →
    ∃ d, p.run m c = .done a d ∧ d.token = u ∧ (u.flaw = none → d.flaw = c.flaw)

/-- A loop whose first step gives nothing gives nothing. -/
theorem many_run_none {step : Parser (Option α)} {fuel : Nat} {d : Cursor} (hfuel : 0 < fuel)
    (hstep : step.run m c = .done none d) : (many step fuel).run m c = .done [] d := by
  obtain ⟨fuel, rfl⟩ := Nat.exists_eq_succ_of_ne_zero (Nat.ne_of_gt hfuel)
  simp only [many, bind_run, hstep, pure_run]

/-- A loop whose step is the last one gives what the step gives. -/
theorem iterate_run {α : Type} {step : α → Parser (α × Bool)} {a b : α} {d : Cursor} {fuel : Nat}
    (hfuel : 0 < fuel) (hstep : (step a).run m c = .done (b, false) d) :
    (iterate step fuel a).run m c = .done b d := by
  obtain ⟨fuel, rfl⟩ := Nat.exists_eq_succ_of_ne_zero (Nat.ne_of_gt hfuel)
  simp only [iterate, bind_run, hstep, Bool.false_eq_true, if_false, pure_run]

end Parser
end RoutePages.Script
