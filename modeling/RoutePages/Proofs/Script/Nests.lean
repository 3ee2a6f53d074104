import RoutePages.Proofs.Script.Gives
import RoutePages.Proofs.Script.Nested

/-!
# Parsers that read nested trees

A parser nests what it reads if, run behind two positions, it gives values whose trees
are nested and stand between the first position and the end of the last token. The rules
follow the shape of the parsers: a step whose value holds no tree is passed, since every
parser moves forward. Where a span starts at the current token, the parser is followed
up to the step that passes this token.
-/
namespace RoutePages.Script

open Nested

/-- Run where tokens start behind `lo` and the last one stopped behind `hi`, the parser gives
nested values between `lo` and the end of the last token. -/
def Parser.Nests {α : Type} [Nested α] (lo hi : Nat) (p : Parser α) : Prop :=
  ∀ m c a d, c.Ordered → lo ≤ c.token.start.pos → hi ≤ c.lastStop → p.run m c = .done a d →
    between lo d.lastStop a

/-- As `Nests`, run where `t` is the current token. -/
def Parser.NestsAt {α : Type} [Nested α] (t : Token) (lo hi : Nat) (p : Parser α) : Prop :=
  ∀ m c a d, c.Ordered → c.token = t → lo ≤ c.token.start.pos → hi ≤ c.lastStop →
    p.run m c = .done a d → between lo d.lastStop a

/-- The parser passes the current token. -/
def Parser.Moves {α : Type} (p : Parser α) : Prop :=
  ∀ m c a d, c.Ordered → p.run m c = .done a d → c.token.start.pos ≤ d.lastStop

namespace Parser

namespace Moves

variable {α β : Type}

theorem first {p : Parser α} {f : α → Parser β} (hp : p.Moves) : (p >>= f).Moves := by
  intro m c b d hc h
  obtain ⟨a, e, ha, hb⟩ := run_bind h
  obtain ⟨he, -, -⟩ := run_forward hc ha
  obtain ⟨-, -, hlast⟩ := run_forward he hb
  exact Nat.le_trans (hp m c a e hc ha) hlast

theorem andThen {p : Parser α} {f : α → Parser β} (hf : ∀ a, (f a).Moves) : (p >>= f).Moves := by
  intro m c b d hc h
  obtain ⟨a, e, ha, hb⟩ := run_bind h
  obtain ⟨he, hstart, -⟩ := run_forward hc ha
  exact Nat.le_trans hstart (hf a m e b d he hb)

theorem advance : Parser.advance.Moves := by
  intro m c a d hc h
  cases h
  exact hc.stop

theorem moveTo {read : Place → Token} (h : ∀ p, (read p).Behind p) :
    (Parser.moveTo read h).Moves := by
  intro m c a d hc hrun
  cases hrun
  exact hc.stop

theorem fail : (Parser.fail : Parser α).Moves := fun _ _ _ _ _ h => absurd h run_fail_ne

theorem ite {b : Prop} [Decidable b] {p q : Parser α} (hp : p.Moves) (hq : q.Moves) :
    (if b then p else q).Moves := by
  split
  · exact hp
  · exact hq

theorem within {p : Parser α} (change : Mode → Mode) (h : p.Moves) :
    (Parser.within change p).Moves := fun m => h (change m)

theorem expect (s : Text) : (Parser.expect s).Moves := andThen fun _ => ite advance fail

theorem expectWord (w : Text) : (Parser.expectWord w).Moves := andThen fun _ => ite advance fail

theorem anyWord : Parser.anyWord.Moves := by
  refine andThen fun t => ?_
  split
  · exact first advance
  · exact fail

theorem identifier : Parser.identifier.Moves := by
  refine andThen fun t => ?_
  split
  · exact ite (andThen fun _ => first advance) (first advance)
  · exact fail

theorem iterate {step : α → Parser (α × Bool)} (h : ∀ a, (step a).Moves) (fuel : Nat) (a : α) :
    (Parser.iterate step fuel a).Moves := by
  cases fuel with
  | zero => exact fail
  | succ fuel => exact first (h a)

end Moves

namespace Nests

variable {α β γ : Type} [Nested α] [Nested β] {lo hi : Nat}

/-- Whatever is known of a value and of the end of the last token is known where reading goes on. -/
theorem bindKnown (known : γ → Nat → Prop) {p : Parser γ} {f : γ → Parser β}
    (hp : ∀ m c a d, c.Ordered → lo ≤ c.token.start.pos → hi ≤ c.lastStop → p.run m c = .done a d →
      known a d.lastStop)
    (hf : ∀ a hi', hi ≤ hi' → known a hi' → (f a).Nests lo hi') : (p >>= f).Nests lo hi := by
  intro m c b d hc hlo hhi h
  obtain ⟨a, e, ha, hb⟩ := run_bind h
  obtain ⟨he, hstart, hlast⟩ := run_forward hc ha
  exact hf a e.lastStop (Nat.le_trans hhi hlast) (hp m c a e hc hlo hhi ha) m e b d he
    (Nat.le_trans hlo hstart) (Nat.le_refl _) hb

theorem bind {p : Parser α} {f : α → Parser β} (hp : p.Nests lo hi)
    (hf : ∀ a hi', hi ≤ hi' → between lo hi' a → (f a).Nests lo hi') : (p >>= f).Nests lo hi :=
  bindKnown (fun a stop => between lo stop a) hp hf

/-- As `bind`, where the current token is passed. -/
theorem bindPass {p : Parser α} {f : α → Parser β} (hmoves : p.Moves) (hp : p.Nests lo hi)
    (hf : ∀ a hi', hi ≤ hi' → lo ≤ hi' → between lo hi' a → (f a).Nests lo hi') :
    (p >>= f).Nests lo hi := by
  refine bindKnown (fun a stop => lo ≤ stop ∧ between lo stop a) (fun m c a d hc hlo hhi h => ?_)
    fun a hi' hle ha => hf a hi' hle ha.1 ha.2
  exact ⟨Nat.le_trans hlo (hmoves m c a d hc h), hp m c a d hc hlo hhi h⟩

/-- What is read next stands behind a position that was reached before. -/
theorem bindFrom {mid : Nat} {p : Parser α} {f : α → Parser β} (hmid : mid ≤ hi)
    (hp : p.Nests mid hi) (hf : ∀ a hi', hi ≤ hi' → between mid hi' a → (f a).Nests lo hi') :
    (p >>= f).Nests lo hi := by
  refine bindKnown (fun a stop => between mid stop a) (fun m c a d hc _ hhi h => ?_) hf
  exact hp m c a d hc (Nat.le_trans (Nat.le_trans hmid hhi) hc.start) hhi h

/-- What is read next stands behind all that was read before. -/
theorem bindBehind {p : Parser α} {f : α → Parser β} (hp : p.Nests hi hi)
    (hf : ∀ a hi', hi ≤ hi' → between hi hi' a → (f a).Nests lo hi') : (p >>= f).Nests lo hi :=
  bindFrom (Nat.le_refl _) hp hf

/-- What is known of a value by itself is known wherever it is read. -/
theorem bindOwn {good : γ → Prop} {p : Parser γ} {f : γ → Parser β}
    (hp : ∀ m c a d, c.Ordered → p.run m c = .done a d → good a)
    (hf : ∀ a hi', hi ≤ hi' → good a → (f a).Nests lo hi') : (p >>= f).Nests lo hi :=
  bindKnown (fun a _ => good a) (fun m c a d hc _ _ h => hp m c a d hc h) hf

/-- Nothing has to be known of a value that holds no tree. -/
theorem skip {p : Parser γ} {f : γ → Parser β} (hf : ∀ a hi', hi ≤ hi' → (f a).Nests lo hi') :
    (p >>= f).Nests lo hi :=
  bindKnown (fun _ _ => True) (fun _ _ _ _ _ _ _ _ => trivial) fun a hi' hle _ => hf a hi' hle

/-- Behind a step that passes the current token. -/
theorem pass {p : Parser γ} {f : γ → Parser β} (hp : p.Moves)
    (hf : ∀ a hi', hi ≤ hi' → lo ≤ hi' → (f a).Nests lo hi') : (p >>= f).Nests lo hi :=
  bindKnown (fun _ stop => lo ≤ stop)
    (fun m c a d hc hlo _ h => Nat.le_trans hlo (hp m c a d hc h)) hf

theorem give {a : α} (h : between lo hi a) : (pure a : Parser α).Nests lo hi := by
  intro m c b d hc hlo hhi hrun
  cases hrun
  exact mono h (Nat.le_refl _) hhi

theorem given {a : γ} {f : γ → Parser β} (h : (f a).Nests lo hi) : (pure a >>= f).Nests lo hi :=
  h

theorem here {f : Nat → Parser β} (hf : ∀ a, lo ≤ a → (f a).Nests lo hi) :
    (Parser.here >>= f).Nests lo hi := by
  intro m c b d hc hlo hhi h
  obtain ⟨a, e, ha, hb⟩ := run_bind h
  cases ha
  exact hf _ hlo m _ b d hc hlo hhi hb

/-- All that is read from here on stands behind the start of the current token. -/
theorem hereFrom {f : Nat → Parser β} (hf : ∀ a, lo ≤ a → (f a).Nests a hi) :
    (Parser.here >>= f).Nests lo hi := by
  intro m c b d hc hlo hhi h
  obtain ⟨a, e, ha, hb⟩ := run_bind h
  cases ha
  exact mono (hf _ hlo m _ b d hc (Nat.le_refl _) hhi hb) hlo (Nat.le_refl _)

theorem token {f : Token → Parser β}
    (hf : ∀ t : Token, lo ≤ t.start.pos → (f t).NestsAt t lo hi) :
    (Parser.token >>= f).Nests lo hi := by
  intro m c b d hc hlo hhi h
  obtain ⟨a, e, ha, hb⟩ := run_bind h
  cases ha
  exact hf _ hlo m _ b d hc rfl hlo hhi hb

theorem tokenFrom {f : Token → Parser β}
    (hf : ∀ t : Token, lo ≤ t.start.pos → (f t).Nests t.start.pos hi) :
    (Parser.token >>= f).Nests lo hi := by
  intro m c b d hc hlo hhi h
  obtain ⟨a, e, ha, hb⟩ := run_bind h
  cases ha
  exact mono (hf _ hlo m _ b d hc (Nat.le_refl _) hhi hb) hlo (Nat.le_refl _)

/-- The start of the current token lies behind what was read before, and what is read from this
token on stands between that start and its own end. -/
theorem here_bind {p : Parser α} {f : Nat → α → Parser β} (hmoves : p.Moves)
    (hp : ∀ lo', p.Nests lo' hi)
    (hf : ∀ start a hi', lo ≤ start → start ≤ hi' → hi ≤ hi' → between start hi' a →
      (f start a).Nests lo hi') :
    (do let start ← Parser.here; let a ← p; f start a).Nests lo hi := by
  intro m c b d hc hlo hhi h
  obtain ⟨start, e, hstart, h⟩ := run_bind h
  cases hstart
  obtain ⟨a, e, ha, hb⟩ := run_bind h
  obtain ⟨he, hstart, hlast⟩ := run_forward hc ha
  exact hf _ a e.lastStop hlo (hmoves m _ a e hc ha) (Nat.le_trans hhi hlast)
    (hp _ m _ a e hc (Nat.le_refl _) hhi ha) m e b d he (Nat.le_trans hlo hstart) (Nat.le_refl _) hb

theorem here_advance {f : Nat → Parser β}
    (hf : ∀ start hi', lo ≤ start → start ≤ hi' → (f start).Nests lo hi') :
    (do let start ← Parser.here; advance; f start).Nests lo hi :=
  here_bind Moves.advance (fun _ _ _ _ _ _ _ _ _ => trivial)
    fun start _ hi' hlo hstart _ _ => hf start hi' hlo hstart

/-- A span reaches up to the end of the last token. -/
theorem spanFrom {f : Span → Parser β} (start : Nat)
    (hf : ∀ hi', hi ≤ hi' → (f ⟨start, hi'⟩).Nests lo hi') :
    (Parser.spanFrom start >>= f).Nests lo hi := by
  intro m c b d hc hlo hhi h
  obtain ⟨a, e, ha, hb⟩ := run_bind h
  cases ha
  exact hf _ hhi m _ b d hc hlo (Nat.le_refl _) hb

theorem failAt (offset : Nat) : (Parser.failAt offset : Parser α).Nests lo hi :=
  fun m _ _ _ _ _ _ h => absurd h (run_failAt_ne m)

theorem fail : (Parser.fail : Parser α).Nests lo hi :=
  fun _ _ _ _ _ _ _ h => absurd h run_fail_ne

theorem raise (offset : Nat) : (Parser.raise offset : Parser α).Nests lo hi := by
  intro m c a d _ _ _ h
  cases h

theorem ite {b : Prop} [Decidable b] {p q : Parser α} (hp : p.Nests lo hi) (hq : q.Nests lo hi) :
    (if b then p else q).Nests lo hi := by
  split
  · exact hp
  · exact hq

/-- A step that is taken only sometimes, and then gone on from. -/
theorem join {b : Prop} [Decidable b] {p : Parser γ} {q : Parser β}
    (hq : ∀ hi', hi ≤ hi' → q.Nests lo hi') : (if b then p >>= fun _ => q else q).Nests lo hi :=
  ite (skip fun _ => hq) (hq hi (Nat.le_refl _))

/-- A step that is taken only sometimes and may be the last. -/
theorem early {b : Prop} [Decidable b] {p q : Parser β} (hq : ∀ hi', hi ≤ hi' → q.Nests lo hi')
    (hp : (∀ hi', hi ≤ hi' → q.Nests lo hi') → p.Nests lo hi) : (if b then p else q).Nests lo hi :=
  ite (hp hq) (hq hi (Nat.le_refl _))

/-- One of two steps, from both of which is gone on in the same way. -/
theorem fork {b : Prop} [Decidable b] {good : γ → Prop} {p q : Parser γ} {f : γ → Parser β}
    (hp : ∀ m c a d, c.Ordered → p.run m c = .done a d → good a)
    (hq : ∀ m c a d, c.Ordered → q.run m c = .done a d → good a)
    (hf : ∀ a hi', hi ≤ hi' → good a → (f a).Nests lo hi') :
    (if b then p >>= f else q >>= f).Nests lo hi :=
  ite (bindOwn hp hf) (bindOwn hq hf)

theorem within {p : Parser α} (change : Mode → Mode) (h : p.Nests lo hi) :
    (Parser.within change p).Nests lo hi := fun m => h (change m)

theorem rescue {p : Parser α} {q : Nat → Parser α} (hp : p.Nests lo hi)
    (hq : ∀ offset, (q offset).Nests lo hi) : (Parser.rescue p q).Nests lo hi := by
  intro m c a d hc hlo hhi h
  unfold Parser.rescue at h
  have hforward := p.forward m c hc
  dsimp only at h
  split at h
  · rename_i b e heq
    cases h
    exact hp m c a d hc hlo hhi heq
  · rename_i offset e heq
    rw [heq] at hforward
    obtain ⟨he, hstart, hlast⟩ := hforward
    exact hq offset m e a d he (Nat.le_trans hlo hstart) (Nat.le_trans hhi hlast) h

theorem recover {p : Parser α} (h : p.Nests lo hi) : (Parser.recover p).Nests lo hi := by
  refine rescue ?_ fun _ => give fun a ha => nomatch ha
  exact bind h fun a hi' _ ha => give fun b hb => by cases hb; exact ha

theorem attempt {p : Parser α} (h : p.Nests lo hi) : (Parser.attempt p).Nests lo hi := by
  intro m c a d hc hlo hhi hrun
  unfold Parser.attempt at hrun
  dsimp only at hrun
  split at hrun
  · rename_i b e heq
    cases hrun
    intro a ha
    cases ha
    exact h m c b e hc hlo hhi heq
  · cases hrun
    intro a ha
    cases ha

theorem many {step : Parser (Option α)} (h : ∀ hi', hi ≤ hi' → step.Nests lo hi') (fuel : Nat) :
    (Parser.many step fuel).Nests lo hi := by
  induction fuel generalizing hi with
  | zero => exact fail
  | succ fuel ih =>
    refine bind (h hi (Nat.le_refl _)) fun a hi' hle ha => ?_
    cases a with
    | none => exact give fun a ha => nomatch ha
    | some a =>
      refine bind (ih fun k hk => h k (Nat.le_trans hle hk)) fun l k hk hl => give fun b hb => ?_
      rcases List.mem_cons.1 hb with rfl | hb
      · exact mono (ha b rfl) (Nat.le_refl _) hk
      · exact hl b hb

/-- A property of the value that each step keeps is known in each step. -/
theorem iterate_keeping {good : α → Prop} {step : α → Parser (α × Bool)}
    (hgood : ∀ a, good a → (step a).Gives fun x => good x.1)
    (h : ∀ a hi', hi ≤ hi' → between lo hi' a → good a → (step a).Nests lo hi') (fuel : Nat) {a : α}
    (ha : between lo hi a) (hown : good a) : (Parser.iterate step fuel a).Nests lo hi := by
  induction fuel generalizing hi a with
  | zero => exact fail
  | succ fuel ih =>
    have hstep := hgood a hown
    intro m c b d hc hlo hhi hrun
    obtain ⟨⟨x, more⟩, e, hx, hrest⟩ := run_bind hrun
    obtain ⟨he, hstart, hlast⟩ := run_forward hc hx
    have hbetween := h a hi (Nat.le_refl _) ha hown m c _ e hc hlo hhi hx
    have hmore : (Parser.iterate step fuel x).Nests lo e.lastStop :=
      ih (fun a k hk => h a k (Nat.le_trans (Nat.le_trans hhi hlast) hk)) hbetween.1
        (hstep m c _ e hx)
    exact ite hmore (give hbetween.1) m e b d he (Nat.le_trans hlo hstart) (Nat.le_refl _) hrest

theorem iterate {step : α → Parser (α × Bool)}
    (h : ∀ a hi', hi ≤ hi' → between lo hi' a → (step a).Nests lo hi') (fuel : Nat) {a : α}
    (ha : between lo hi a) : (Parser.iterate step fuel a).Nests lo hi := by
  have hkept : ∀ a, True → (step a).Gives fun _ => True := fun _ _ _ _ _ _ _ => trivial
  exact iterate_keeping hkept (fun a hi' hle hb _ => h a hi' hle hb) fuel ha trivial

end Nests

namespace NestsAt

variable {α β γ : Type} [Nested β] {t : Token} {lo hi : Nat}

theorem of {p : Parser β} (h : p.Nests lo hi) : p.NestsAt t lo hi :=
  fun m c a d hc _ hlo hhi => h m c a d hc hlo hhi

/-- All that is read stands behind the start of the token. -/
theorem behind {p : Parser β} (ht : lo ≤ t.start.pos) (h : p.Nests t.start.pos hi) :
    p.NestsAt t lo hi := by
  intro m c a d hc hown _ hhi hrun
  subst hown
  exact mono (h m c a d hc (Nat.le_refl _) hhi hrun) ht (Nat.le_refl _)

theorem ite {b : Prop} [Decidable b] {p q : Parser β} (hp : p.NestsAt t lo hi)
    (hq : q.NestsAt t lo hi) : (if b then p else q).NestsAt t lo hi := by
  split
  · exact hp
  · exact hq

theorem look {g : Mode → Cursor → γ} {f : γ → Parser β} (hf : ∀ a, (f a).NestsAt t lo hi) :
    (Parser.look g >>= f).NestsAt t lo hi := by
  intro m c b d hc ht hlo hhi h
  obtain ⟨a, e, ha, hb⟩ := run_bind h
  cases ha
  exact hf _ m _ b d hc ht hlo hhi hb

/-- Behind a step that passes the token. -/
theorem pass {p : Parser γ} {f : γ → Parser β} (hp : p.Moves)
    (hf : ∀ a hi', hi ≤ hi' → t.start.pos ≤ hi' → (f a).Nests lo hi') :
    (p >>= f).NestsAt t lo hi := by
  intro m c b d hc ht hlo hhi h
  subst ht
  obtain ⟨a, e, ha, hb⟩ := run_bind h
  obtain ⟨he, hstart, hlast⟩ := run_forward hc ha
  exact hf a e.lastStop (Nat.le_trans hhi hlast) (hp m c a e hc ha) m e b d he
    (Nat.le_trans hlo hstart) (Nat.le_refl _) hb

/-- Behind the token itself. -/
theorem advance {f : Unit → Parser β}
    (hf : t.span.Between lo t.stop.pos → (f ()).Nests lo t.stop.pos) :
    (Parser.advance >>= f).NestsAt t lo hi := by
  intro m c b d hc ht hlo hhi h
  subst ht
  obtain ⟨a, e, ha, hb⟩ := run_bind h
  obtain ⟨he, hstart, -⟩ := run_forward hc ha
  cases ha
  exact hf ⟨hlo, hc.stop, Nat.le_refl _⟩ m _ b d he (Nat.le_trans hlo hstart) (Nat.le_refl _) hb

/-- A token that is read again starts where it did. -/
theorem reread {read : Place → Read} {h : ∀ p, p.pos ≤ (read p).stop.pos} {f : Unit → Parser β}
    (hf : ∀ t' : Token, t'.start = t.start → (f ()).NestsAt t' lo hi) :
    (Parser.reread read h >>= f).NestsAt t lo hi := by
  intro m c b d hc ht hlo hhi hrun
  subst ht
  obtain ⟨a, e, ha, hb⟩ := run_bind hrun
  obtain ⟨he, -, -⟩ := run_forward hc ha
  cases ha
  exact hf (c.token.reread read) rfl m _ b d he rfl hlo hhi hb

theorem refuseFault {f : Unit → Parser β} (hf : (f ()).NestsAt t lo hi) :
    (Parser.refuseFault >>= f).NestsAt t lo hi := by
  intro m c b d hc ht hlo hhi h
  obtain ⟨a, e, ha, hb⟩ := run_bind h
  obtain ⟨t', e', ht', ha⟩ := run_bind ha
  cases ht'
  split at ha
  · exact absurd ha (run_failAt_ne m)
  · cases ha
    exact hf m _ b d hc ht hlo hhi hb

end NestsAt

/-- What is collected stands one behind the other, up to the end of the last token. -/
theorem many_chained {α : Type} [Nested α] {step : Parser (Option α)}
    (h : ∀ lo hi, step.Nests lo hi) {fuel : Nat} {m : Mode} {c d : Cursor} {l : List α}
    (hc : c.Ordered) (hrun : (many step fuel).run m c = .done l d) :
    Chained c.lastStop d.lastStop l := by
  induction fuel generalizing c l with
  | zero => exact absurd hrun run_fail_ne
  | succ fuel ih =>
    obtain ⟨a, e, ha, hrest⟩ := run_bind hrun
    obtain ⟨he, -, hlast⟩ := run_forward hc ha
    have hfirst := h c.lastStop c.lastStop m c a e hc hc.start (Nat.le_refl _) ha
    cases a with
    | none =>
      cases hrest
      exact hlast
    | some a =>
      obtain ⟨more, e', hmore, hend⟩ := run_bind hrest
      cases hend
      exact ⟨e.lastStop, hlast, hfirst a rfl, ih he hmore⟩

/-- Goes on with what stands one behind the other. -/
theorem Nests.manyChained {α β : Type} [Nested α] [Nested β] {lo hi : Nat}
    {step : Parser (Option α)} {fuel : Nat} {f : List α → Parser β}
    (h : ∀ lo hi, step.Nests lo hi)
    (hf : ∀ l hi', Chained hi hi' l → (f l).Nests lo hi') :
    (Parser.many step fuel >>= f).Nests lo hi := by
  intro m c b d hc hlo hhi hrun
  obtain ⟨l, e, hl, hb⟩ := run_bind hrun
  obtain ⟨he, hstart, -⟩ := run_forward hc hl
  exact hf l e.lastStop ((many_chained h hc hl).mono hhi (Nat.le_refl _)) m e b d he
    (Nat.le_trans hlo hstart) (Nat.le_refl _) hb

end Parser
end RoutePages.Script
