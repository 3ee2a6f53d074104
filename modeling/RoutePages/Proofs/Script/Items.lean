import RoutePages.Proofs.Script.Bare
import RoutePages.Proofs.Script.Names
import RoutePages.Route.Extract

/-!
# The items of a module

A module is read item by item up to its end. A text is closed where it is made up of whole items,
which are read in the same way whatever stands on the lines below.
-/
namespace RoutePages

/-- The part of a module that an import is. -/
def Import.part (i : Import) : Script.Part := .imports i.locals i.source i.span

def Import.bare (i : Import) : Import := { i with span := Script.nowhere }

namespace Script

open Script.Parser

/-- Imports are found in their order. -/
theorem allImports_append : (first more : List Part) →
    Part.allImports (first ++ more) = Part.allImports first ++ Part.allImports more
  | [], _ => rfl
  | .expr _ :: first, more | .declaration _ :: first, more | .scope _ :: first, more => by
    rw [List.cons_append, Part.allImports, Part.allImports, allImports_append first more,
      List.append_assoc]
  | .imports _ _ _ :: first, more => by
    rw [List.cons_append, Part.allImports, Part.allImports, allImports_append first more,
      List.cons_append]

/-- The first route array is found first. -/
theorem firstArray?_append : (first more : List Part) →
    Part.firstArray? (first ++ more) = (Part.firstArray? first).or (Part.firstArray? more)
  | [], _ => rfl
  | .expr _ :: first, more | .declaration _ :: first, more => by
    rw [List.cons_append, Part.firstArray?, Part.firstArray?, firstArray?_append first more]
    simp only [Option.or_assoc]
  | .imports _ _ _ :: first, more | .scope _ :: first, more => by
    rw [List.cons_append, Part.firstArray?, Part.firstArray?, firstArray?_append first more]

/-- An item of a module: what it begins with, and its parts without their spans. -/
structure ModuleItem where
  first : Lexeme
  second : Lexeme
  parts : List Part

/-- One item of a module, or nothing at its end. -/
def Rules.itemStep (r : Rules) : Parser (Option (List Part)) := do
  refuseFault
  if ← isDone then return none
  return some (← r.item true)

theorem Rules.moduleItems_eq (r : Rules) : r.moduleItems = Parser.many r.itemStep r.fuel := rfl

theorem rules_fuel (n : Nat) : (rules n).fuel = n := by
  cases n with
  | zero => rfl
  | succ n => rfl

variable {r : Rules} {m : Mode} {c d e : Cursor}

theorem failAt_run_ne {α : Type} (offset : Nat) (c : Cursor) (a : α) (d : Cursor) :
    (failAt offset : Parser α).run m c ≠ .done a d := by
  intro h
  unfold failAt at h
  dsimp only at h
  split at h
  · cases h
  · cases h

/-- Where no item is read, the module is at its end. -/
theorem itemStep_none (h : r.itemStep.run m c = .done none d) :
    d = c ∧ c.token.isDone = true := by
  obtain ⟨u, e, hfault, hdone⟩ := (bind_eq_done _ _).1 h
  obtain ⟨b, f, hlook, hrest⟩ := (bind_eq_done _ _).1 hdone
  cases hlook
  have hsame : e = c := by
    simp only [refuseFault, bind_run, token_run] at hfault
    split at hfault
    · rename_i offset hlexeme
      exact absurd hfault (failAt_run_ne offset c u e)
    · cases hfault
      rfl
  subst hsame
  by_cases hend : e.token.isDone = true
  · rw [if_pos hend] at hrest
    cases hrest
    exact ⟨rfl, hend⟩
  · rw [if_neg hend] at hrest
    obtain ⟨parts, g, -, hnone⟩ := (bind_eq_done _ _).1 hrest
    cases hnone

/-- An item is read where the rule for items gives one. -/
theorem itemStep_some {parts : List Part} (hfault : ∀ offset, c.token.lexeme ≠ .fault offset)
    (hdone : c.token.lexeme ≠ .done) (hitem : (r.item true).run m c = .done parts d) :
    r.itemStep.run m c = .done (some parts) d := by
  have hmore : c.token.isDone = false := decide_eq_false hdone
  simp only [Rules.itemStep, bind_run, refuseFault_run m c hfault, isDone_run, hmore,
    Bool.false_eq_true, if_false, hitem, pure_run]

theorem itemStep_word {w : Text} {parts : List Part} (hword : c.token.lexeme = .word w)
    (hitem : (r.item true).run m c = .done parts d) : r.itemStep.run m c = .done (some parts) d := by
  refine itemStep_some (Token.not_fault_of_word hword) (fun hdone => ?_) hitem
  cases hword.symm.trans hdone

/-- What gives no result is passed over by an attempt. -/
theorem attempt_run_none {α : Type} {p : Parser α} (h : ∀ a d, p.run m c ≠ .done a d) :
    (attempt p).run m c = .done none c := by
  unfold attempt
  dsimp only
  split
  · rename_i a d hrun
    exact absurd hrun (h a d)
  · rfl

/-- Nothing is exported in its place where no declaration begins that has a word of its own. -/
theorem exportedHere_run (hnone : r.declarationHere?.run m c = .done none c) :
    r.exportedHere?.run m c = .done none c := by
  refine attempt_run_none fun parts d hrun => ?_
  obtain ⟨found, e, hfound, hrest⟩ := (bind_eq_done _ _).1 hrun
  cases hnone.symm.trans hfound
  exact fail_run_ne _ _ _ _ hrest

/-- All names of another module are exported again, which has no parts. -/
theorem exportStar_run {source : Text} (hexport : c.token.lexeme = .word "export")
    (hstar : c.advanced.token.lexeme = .sign "*")
    (hfrom : c.advanced.advanced.token.lexeme = .word "from")
    (hsource : c.advanced.advanced.advanced.token.lexeme = .string source)
    (hend : c.advanced.advanced.advanced.advanced.token.EndsLine) :
    ∃ d, (r.itemRule true).run m c = .done [] d ∧
      (c.advanced.advanced.advanced.advanced.token.isSign ";" = false →
        d = c.advanced.advanced.advanced.advanced) := by
  obtain ⟨d, hclause, hbehind⟩ := fromClause_run (r := r) (m := m) hfrom hsource hend
  have hsign := fun x => Token.isSign_of_sign hstar x
  have hword := fun w => Token.isWord_of_sign hstar w
  have hfault : refuseFault.run m c.advanced = .done () c.advanced :=
    refuseFault_run _ _ (by rw [hstar]; nofun)
  have hdone : c.advanced.token.isDone = false := decide_eq_false (by rw [hstar]; nofun)
  have hhere : r.exportedHere?.run m c.advanced = .done none c.advanced := by
    apply exportedHere_run
    unfold Rules.declarationHere?
    rw [bind_run, token_run]
    dsimp only
    rw [hstar]
    rfl
  have heat : ∀ w, (eatWord w).run m c.advanced = .done false c.advanced :=
    fun w => eatWord_run_false _ _ (hword w)
  have has : (eatWord "as").run m c.advanced.advanced = .done false c.advanced.advanced := by
    apply eatWord_run_false
    rw [Token.isWord_of_word hfrom]
    decide
  have hpassed : (eat "*").run m c.advanced = .done true c.advanced.advanced :=
    eat_run_true _ _ (by rw [hsign]; decide)
  have hequals : (eat "=").run m c.advanced = .done false c.advanced :=
    eat_run_false _ _ (by rw [hsign]; decide)
  have hat : ("*" == ("@" : Text)) = false := by decide
  have hdeclaration : r.exportDeclaration.run m c = .done [] d := by
    simp only [Rules.exportDeclaration, Rules.exportedAmbient?, Rules.otherExport,
      Rules.exportedDeclaration, Rules.exportedDecorators, Rules.exportClause, bind_run, advance_run,
      hfault, isDone_run, hdone, heat, hhere, hequals, isSign_run, isWord_run, ahead_run, hsign,
      hword, hat, hpassed, has, hclause, Bool.false_and, Bool.or_false, Bool.false_eq_true, if_false,
      if_true, pure_run]
  refine ⟨d, ?_, hbehind⟩
  simp only [Rules.itemRule, bind_run, token_run, Token.isWord_of_word hexport, Bool.not_true,
    Bool.false_eq_true, if_false]
  rw [if_neg (by decide), if_pos (by decide)]
  exact hdeclaration

/-- The items are read one after another between the two cursors. -/
inductive Rules.Reads (r : Rules) (m : Mode) : Cursor → List ModuleItem → Cursor → Prop
  | nil (c : Cursor) : Reads r m c [] c
  | cons {c d e : Cursor} {parts : List Part} {items : List ModuleItem}
      (hitem : r.itemStep.run m c = .done (some parts) d) (hmore : Reads r m d items e) :
      Reads r m c (⟨c.token.lexeme, c.ahead.lexeme, Part.allBare parts⟩ :: items) e

namespace Rules.Reads

variable {items more : List ModuleItem}

theorem append (h : r.Reads m c items d) (hmore : r.Reads m d more e) :
    r.Reads m c (items ++ more) e := by
  induction h with
  | nil => exact hmore
  | cons hitem _ ih => exact .cons hitem (ih hmore)

/-- The loop over the items goes on behind those that are read. -/
theorem loop (h : r.Reads m c items d) {fuel : Nat} {all : List (List Part)}
    (hrun : (Parser.many r.itemStep fuel).run m c = .done all e) :
    ∃ fuel' rest, (Parser.many r.itemStep fuel').run m d = .done rest e := by
  induction h generalizing fuel all with
  | nil => exact ⟨fuel, all, hrun⟩
  | cons hitem _ ih =>
    cases fuel with
    | zero => exact absurd hrun (fail_run_ne _ _ _ _)
    | succ fuel =>
      obtain ⟨found, f, hstep, hrest⟩ := (bind_eq_done _ _).1 hrun
      cases hitem.symm.trans hstep
      obtain ⟨rest, g, hloop, hend⟩ := (bind_eq_done _ _).1 hrest
      cases hend
      exact ih hloop

end Rules.Reads

/-- What the loop over the items gives is read item by item. -/
theorem reads_of_loop {fuel : Nat} {all : List (List Part)}
    (hrun : (Parser.many r.itemStep fuel).run m c = .done all d) :
    ∃ items, r.Reads m c items d ∧ d.token.isDone = true := by
  induction fuel generalizing c all with
  | zero => exact absurd hrun (fail_run_ne _ _ _ _)
  | succ fuel ih =>
    obtain ⟨found, e, hstep, hrest⟩ := (bind_eq_done _ _).1 hrun
    cases found with
    | none =>
      cases hrest
      obtain ⟨rfl, hdone⟩ := itemStep_none hstep
      exact ⟨[], .nil _, hdone⟩
    | some parts =>
      obtain ⟨rest, g, hloop, hend⟩ := (bind_eq_done _ _).1 hrest
      cases hend
      obtain ⟨items, hreads, hdone⟩ := ih hloop
      exact ⟨_ :: items, .cons hstep hreads, hdone⟩

/-- The loop over the items gives one where an import stands. -/
theorem loop_import {fuel : Nat} {all : List (List Part)}
    (himport : c.token.lexeme = .word "import")
    (hrun : (Parser.many r.itemStep fuel).run m c = .done all e) :
    ∃ fuel' parts d rest, all = parts :: rest ∧ (r.item true).run m c = .done parts d ∧
      r.Reads m c [⟨.word "import", c.ahead.lexeme, Part.allBare parts⟩] d ∧
      (Parser.many r.itemStep fuel').run m d = .done rest e := by
  cases fuel with
  | zero => exact absurd hrun (fail_run_ne _ _ _ _)
  | succ fuel =>
    have hfault := Token.not_fault_of_word himport
    have hmore := Token.isDone_of_word himport
    obtain ⟨found, d, hstep, hrest⟩ := (bind_eq_done _ _).1 hrun
    have hread := hstep
    simp only [Rules.itemStep, bind_run, refuseFault_run m c hfault, isDone_run, hmore,
      Bool.false_eq_true, if_false] at hstep
    split at hstep
    · rename_i parts f hitem
      cases hstep
      obtain ⟨rest, g, hloop, hend⟩ := (bind_eq_done _ _).1 hrest
      cases hend
      exact ⟨fuel, parts, d, rest, rfl, hitem, himport ▸ .cons hread (.nil d), hloop⟩
    · cases hstep

/-! ## Whole texts -/

/-- The text begins with the end of a line. -/
def BeginsWithBreak (s : Text) : Prop := ∃ c ∈ s.head?, c = '\n' ∨ c = '\r'

theorem BeginsWithBreak.exists_cons {s : Text} (h : BeginsWithBreak s) :
    ∃ c t, s = c :: t ∧ (c = '\n' ∨ c = '\r') := by
  obtain ⟨c, hc, hbreak⟩ := h
  obtain ⟨t, rfl⟩ := List.head?_eq_some_iff.1 hc
  exact ⟨c, t, rfl, hbreak⟩

/-- The items that a text is read as, up to its end. -/
def IsModule (markup : Bool) (text : Text) (items : List ModuleItem) : Prop :=
  ∃ d, (rules (depthFor text)).Reads (Mode.start markup) (Cursor.start text) items d ∧
    d.token.isDone = true

/-- The text is made up of whole items, which are read in the same way whatever stands on the lines
below. A semicolon there can still belong to the last of them. -/
def IsClosed (markup : Bool) (text : Text) (items : List ModuleItem) : Prop :=
  ∀ (depth : Nat) (below : Text), depthFor text ≤ depth → BeginsWithBreak below →
    ∃ d, (rules depth).Reads (Mode.start markup) (Cursor.start (text ++ below)) items d ∧
      ((Token.next ⟨Text.size text, below⟩).isSign ";" = false →
        d.token = Token.next ⟨Text.size text, below⟩)

/-- What is read of a source is what the loop over its items gives. -/
theorem parseItems_loop {markup : Bool} {text : Text} {all : List (List Part)}
    (h : parseItems markup text = .ok all) :
    ∃ d, (Parser.many (rules (depthFor text)).itemStep (depthFor text)).run (Mode.start markup)
      (Cursor.start text) = .done all d := by
  have hloop := (rules (depthFor text)).moduleItems_eq
  rw [rules_fuel] at hloop
  unfold parseItems at h
  rw [hloop] at h
  split at h
  · cases h
  · rename_i read c hrun
    split at h
    · cases h
    · cases h
      exact ⟨c, hrun⟩

theorem isModule_of_parseItems {markup : Bool} {text : Text} {all : List (List Part)}
    (h : parseItems markup text = .ok all) : ∃ items, IsModule markup text items := by
  obtain ⟨d, hrun⟩ := parseItems_loop h
  obtain ⟨items, hreads, hdone⟩ := reads_of_loop hrun
  exact ⟨items, d, hreads, hdone⟩

/-- A text that begins with a closed one is read on behind its items. -/
theorem IsClosed.loop {markup : Bool} {text below : Text} {items : List ModuleItem}
    (h : IsClosed markup text items) (hbelow : BeginsWithBreak below) {all : List (List Part)}
    (hread : parseItems markup (text ++ below) = .ok all) :
    ∃ fuel c d rest, (rules (depthFor (text ++ below))).Reads (Mode.start markup)
        (Cursor.start (text ++ below)) items c ∧
      ((Token.next ⟨Text.size text, below⟩).isSign ";" = false →
        c.token = Token.next ⟨Text.size text, below⟩) ∧
      (Parser.many (rules (depthFor (text ++ below))).itemStep fuel).run (Mode.start markup) c =
        .done rest d := by
  have hdepth : depthFor text ≤ depthFor (text ++ below) := by
    unfold depthFor
    rw [List.length_append]
    omega
  obtain ⟨c, hreads, htoken⟩ := h (depthFor (text ++ below)) below hdepth hbelow
  obtain ⟨d, hrun⟩ := parseItems_loop hread
  obtain ⟨fuel, rest, hloop⟩ := hreads.loop hrun
  exact ⟨fuel, c, d, rest, hreads, htoken, hloop⟩

end Script
end RoutePages
