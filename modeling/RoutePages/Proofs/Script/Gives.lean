import RoutePages.Script.Grammar.Parser

/-!
# What a parser gives

A property of all values that a parser gives follows from its steps, one lemma for each way to
put parsers together.
-/
namespace RoutePages.Script
namespace Parser

/-- A run moves forward. -/
theorem run_forward {α : Type} {p : Parser α} {m : Mode} {c d : Cursor} {a : α}
    (hc : c.Ordered) (h : p.run m c = .done a d) :
    d.Ordered ∧ c.token.start.pos ≤ d.token.start.pos ∧ c.lastStop ≤ d.lastStop := by
  have hp := p.forward m c hc
  rw [h] at hp
  exact hp

/-- A run of two parsers is a run of the first and then one of the second. -/
theorem run_bind {α β : Type} {p : Parser α} {f : α → Parser β} {m : Mode} {c d : Cursor} {b : β}
    (h : (p >>= f).run m c = .done b d) :
    ∃ a e, p.run m c = .done a e ∧ (f a).run m e = .done b d := by
  change (p.andThen f).run m c = _ at h
  unfold andThen at h
  dsimp only at h
  cases hp : p.run m c with
  | done a e =>
    rw [hp] at h
    exact ⟨a, e, rfl, h⟩
  | failed offset e =>
    rw [hp] at h
    cases h

theorem run_failAt_ne {α : Type} {offset : Nat} (m : Mode) {c d : Cursor} {a : α} :
    (failAt offset).run m c ≠ .done a d := by
  intro h
  unfold failAt at h
  dsimp only at h
  split at h <;> cases h

theorem run_fail_ne {α : Type} {m : Mode} {c d : Cursor} {a : α} :
    fail.run m c ≠ .done a d := run_failAt_ne m

/-- Whatever the parser gives is of this kind. -/
def Gives {α : Type} (good : α → Prop) (p : Parser α) : Prop :=
  ∀ m c a d, p.run m c = .done a d → good a

namespace Gives

variable {α β γ : Type} {good : α → Prop} {fine : β → Prop}

theorem bind {p : Parser α} {f : α → Parser β} (hp : p.Gives good)
    (hf : ∀ a, good a → (f a).Gives fine) : (p >>= f).Gives fine := by
  intro m c b d h
  obtain ⟨a, e, ha, hb⟩ := run_bind h
  exact hf a (hp m c a e ha) m e b d hb

/-- Nothing has to be known of a value that plays no part. -/
theorem skip {p : Parser γ} {f : γ → Parser β} (hf : ∀ a, (f a).Gives fine) :
    (p >>= f).Gives fine := by
  intro m c b d h
  obtain ⟨a, e, -, hb⟩ := run_bind h
  exact hf a m e b d hb

theorem give {a : α} (h : good a) : (pure a : Parser α).Gives good := by
  intro m c b d hrun
  cases hrun
  exact h

theorem given {a : γ} {f : γ → Parser β} (h : (f a).Gives fine) : (pure a >>= f).Gives fine := h

theorem failAt (offset : Nat) : (Parser.failAt offset : Parser α).Gives good :=
  fun m _ _ _ h => absurd h (run_failAt_ne m)

theorem fail : (Parser.fail : Parser α).Gives good := fun _ _ _ _ h => absurd h run_fail_ne

theorem raise (offset : Nat) : (Parser.raise offset : Parser α).Gives good := by
  intro m c a d h
  cases h

theorem ite {b : Prop} [Decidable b] {p q : Parser α} (hp : p.Gives good) (hq : q.Gives good) :
    (if b then p else q).Gives good := by
  split
  · exact hp
  · exact hq

/-- A step that is taken only sometimes, and then gone on from. -/
theorem join {b : Prop} [Decidable b] {p : Parser γ} {q : Parser β} (hq : q.Gives fine) :
    (if b then p >>= fun _ => q else q).Gives fine :=
  ite (skip fun _ => hq) hq

theorem within {p : Parser α} (change : Mode → Mode) (h : p.Gives good) :
    (Parser.within change p).Gives good := fun m => h (change m)

theorem rescue {p : Parser α} {q : Nat → Parser α} (hp : p.Gives good)
    (hq : ∀ offset, (q offset).Gives good) : (Parser.rescue p q).Gives good := by
  intro m c a d h
  unfold Parser.rescue at h
  dsimp only at h
  split at h
  · rename_i heq
    cases h
    exact hp m c a d heq
  · rename_i offset e _
    exact hq offset m e a d h

theorem recover {p : Parser α} (h : p.Gives good) :
    (Parser.recover p).Gives fun o => ∀ a ∈ o, good a := by
  refine rescue ?_ fun _ => give nofun
  exact bind h fun a ha => give fun b hb => by cases hb; exact ha

theorem attempt {p : Parser α} (h : p.Gives good) :
    (Parser.attempt p).Gives fun o => ∀ a ∈ o, good a := by
  intro m c o d hrun a ha
  unfold Parser.attempt at hrun
  dsimp only at hrun
  split at hrun
  · rename_i heq
    cases hrun
    cases ha
    exact h m c _ _ heq
  · cases hrun
    cases ha

theorem many {step : Parser (Option α)} (h : step.Gives fun o => ∀ a ∈ o, good a) (fuel : Nat) :
    (Parser.many step fuel).Gives fun l => ∀ a ∈ l, good a := by
  induction fuel with
  | zero => exact fail
  | succ fuel ih =>
    refine bind h fun a ha => ?_
    cases a with
    | none => exact give nofun
    | some a =>
      exact bind ih fun l hl => give (List.forall_mem_cons.2 ⟨ha a rfl, hl⟩)

theorem iterate {step : α → Parser (α × Bool)}
    (h : ∀ a, good a → (step a).Gives fun x => good x.1) (fuel : Nat) {a : α} (ha : good a) :
    (Parser.iterate step fuel a).Gives good := by
  induction fuel generalizing a with
  | zero => exact fail
  | succ fuel ih =>
    refine bind (h a ha) fun x hx => ?_
    exact ite (ih hx) (give hx)

/-- A span starts where it is asked to. -/
theorem spanFrom {f : Span → Parser β} (start : Nat)
    (hf : ∀ s : Span, s.start = start → (f s).Gives fine) :
    (Parser.spanFrom start >>= f).Gives fine := by
  intro m c b d h
  obtain ⟨a, e, ha, hb⟩ := run_bind h
  cases ha
  exact hf _ rfl m _ b d hb

end Gives

end Parser
end RoutePages.Script
