import RoutePages.Proofs.Script.Run

/-!
# Names that are read

A word that does not begin with a small letter names no construct of the language. Where it
stands as the value of a property it is read as itself.
-/
namespace RoutePages.Script

open Script.Parser

/-- Does the text begin with one of the letters that all words of the language begin with? -/
def startsLower (s : Text) : Bool := s.head?.any fun c => 'a' ≤ c && c ≤ 'z'

section Word

variable {name w : Text} {words : List Text}

theorem not_beq_of_startsLower (h : startsLower name = false) (hw : startsLower w = true) :
    (name == w) = false := by
  rw [beq_eq_false_iff_ne]
  rintro rfl
  exact Bool.false_ne_true (h.symm.trans hw)

theorem not_contains_of_startsLower (h : startsLower name = false)
    (hwords : words.all startsLower = true) : words.contains name = false := by
  refine Bool.eq_false_iff.2 fun hmem => ?_
  have hw := List.all_eq_true.1 hwords name (List.contains_iff_mem.1 hmem)
  exact Bool.false_ne_true (h.symm.trans hw)

/-- All reserved words begin with small letters. -/
theorem not_isReserved (h : startsLower name = false) : isReserved name = false := by
  rw [isReserved, not_contains_of_startsLower h (by decide),
    not_contains_of_startsLower h (by decide), not_contains_of_startsLower h (by decide)]
  rfl

end Word

section Lexeme

variable {t : Token} {s w : Text}

/-- A word is no sign. -/
theorem Token.isSign_of_word (h : t.lexeme = .word w) (s : Text) : t.isSign s = false := by
  rw [Token.isSign, h]

theorem Token.isWord_of_word (h : t.lexeme = .word w) (v : Text) : t.isWord v = (w == v) := by
  rw [Token.isWord, h]

theorem Token.isDone_of_word (h : t.lexeme = .word w) : t.isDone = false := by
  rw [Token.isDone, h]
  rfl

theorem Token.not_fault_of_word (h : t.lexeme = .word w) (offset : Nat) :
    t.lexeme ≠ .fault offset := by
  rw [h]
  exact nofun

theorem Token.isWord_of_sign (h : t.lexeme = .sign s) (w : Text) : t.isWord w = false := by
  rw [Token.isWord, h]

theorem Token.isSign_of_sign (h : t.lexeme = .sign s) (x : Text) : t.isSign x = (s == x) := by
  rw [Token.isSign, h]

end Lexeme

/-- The token is a word of its own. -/
structure Token.IsName (t : Token) (name : Text) : Prop where
  lexeme : t.lexeme = .word name
  own : startsLower name = false

namespace Token.IsName

variable {t : Token} {name : Text} (h : t.IsName name)
include h

theorem isSign (s : Text) : t.isSign s = false := Token.isSign_of_word h.lexeme s

theorem isWord {w : Text} (hw : startsLower w = true) : t.isWord w = false := by
  rw [Token.isWord, h.lexeme]
  exact not_beq_of_startsLower h.own hw

theorem isReference : t.isReference = true := by
  rw [Token.isReference, h.lexeme]
  exact congrArg not (not_isReserved h.own)

end Token.IsName

/-- No expression goes on with the token. -/
structure Token.Stops (t : Token) : Prop where
  sign : ∀ s, t.lexeme = .sign s → s ∈ Text.texts [",", "\x7d", "]", ";"]
  word : ∀ w, t.lexeme = .word w → w ∉ Text.texts ["as", "satisfies", "in", "instanceof"]
  fault : ∀ offset, t.lexeme ≠ .fault offset

namespace Token.Stops

variable {t : Token} (h : t.Stops)
include h

theorem isSign {s : Text} (hs : s ∉ Text.texts [",", "\x7d", "]", ";"]) : t.isSign s = false := by
  unfold Token.isSign
  split
  · rename_i text htext
    apply beq_eq_false_iff_ne.2
    rintro rfl
    exact hs (h.sign _ htext)
  · rfl

theorem isWord {w : Text} (hw : w ∈ Text.texts ["as", "satisfies", "in", "instanceof"]) :
    t.isWord w = false := by
  unfold Token.isWord
  split
  · rename_i name hname
    apply beq_eq_false_iff_ne.2
    rintro rfl
    exact h.word _ hname hw
  · rfl

end Token.Stops

/-- The token is a comma or the brace that closes an object. -/
def Token.EndsValue (t : Token) : Prop := t.lexeme = .sign "," ∨ t.lexeme = .sign "\x7d"

theorem Token.stops_of_sign {t : Token} {s : Text} (h : t.lexeme = .sign s)
    (hs : s ∈ Text.texts [",", "\x7d", "]", ";"]) : t.Stops := by
  refine ⟨fun x hx => ?_, fun w hw => ?_, fun offset hfault => ?_⟩
  · cases h.symm.trans hx
    exact hs
  · cases h.symm.trans hw
  · cases h.symm.trans hfault

theorem Token.EndsValue.stops {t : Token} (h : t.EndsValue) : t.Stops := by
  rcases h with h | h
  · exact Token.stops_of_sign h (by decide)
  · exact Token.stops_of_sign h (by decide)

variable {r : Rules} {m : Mode} {c : Cursor} {name : Text}

section End

variable (hend : c.token.Stops)
include hend

theorem atOpenAngle_run : atOpenAngle.run m c = .done false c := by
  simp (disch := decide) only [atOpenAngle, bind_run, token_run, pure_run, hend.isSign,
    Bool.or_false]

theorem isOneOf_run (signs : List String)
    (hsigns : ∀ s ∈ signs, s.toList ∉ Text.texts [",", "\x7d", "]", ";"]) :
    (isOneOf signs).run m c = .done false c := by
  unfold isOneOf
  rw [bind_run, token_run]
  dsimp only
  split
  · rename_i s hs
    have hnone : (signs.any fun x => x.toList == s) = false := by
      apply List.any_eq_false.2
      intro x hx heq
      exact hsigns x hx (eq_of_beq heq ▸ hend.sign s hs)
    rw [hnone]
    rfl
  · rfl

theorem eat_run {s : Text} (hs : s ∉ Text.texts [",", "\x7d", "]", ";"]) :
    (eat s).run m c = .done false c := eat_run_false m c (hend.isSign hs)

theorem eatOptional_run : Rules.eatOptional.run m c = .done false c := by
  simp (disch := decide) only [Rules.eatOptional, bind_run, isSign_run, ahead_run, pure_run,
    hend.isSign, Bool.false_and, Bool.false_eq_true, if_false]

theorem memberStep_run (start : Nat) (noCall : Bool) (base : Expr) :
    (r.memberStep start noCall false base).run m c = .done (base, false) c := by
  simp (disch := decide) only [Rules.memberStep, bind_run, isSign_run, pure_run, hend.isSign,
    eat_run hend, Bool.false_and, Bool.false_or, Bool.false_eq_true, if_false]

theorem subscript_run (start : Nat) (noCall : Bool) (base : Expr) :
    (r.subscript start noCall base).run m c = .done (base, false) c := by
  simp (disch := decide) only [Rules.subscript, Rules.typedCall?, bind_run, token_run, pure_run,
    hend.isSign, atOpenAngle_run hend, eatOptional_run hend, memberStep_run hend, Bool.false_and,
    Bool.not_false, Bool.false_eq_true, if_false, if_true]

theorem subscripts_run (hfuel : 0 < r.fuel) (noCall : Bool) (base : Expr) :
    (r.subscripts noCall base).run m c = .done base c :=
  iterate_run _ _ hfuel (subscript_run hend _ _ _)

theorem loneTypeArguments_run : r.loneTypeArguments?.run m c = .done false c := by
  simp (disch := decide) only [Rules.loneTypeArguments?, bind_run, isSign_run, pure_run,
    hend.isSign, Bool.not_false, if_true]

theorem callTypes_run : r.callTypes.run m c = .done false c := by
  simp only [Rules.callTypes, bind_run, atOpenAngle_run hend, pure_run, Bool.false_eq_true,
    if_false]

theorem joinAngles_run : joinAngles.run m c = .done () c := by
  simp (disch := decide) only [joinAngles, bind_run, isSign_run, pure_run, hend.isSign,
    Bool.false_eq_true, if_false]

theorem operatorHere_run : operatorHere?.run m c = .done none c := by
  unfold operatorHere?
  rw [bind_run, joinAngles_run hend]
  dsimp only
  rw [bind_run, token_run]
  dsimp only
  split
  · rename_i s hs
    have hnone : ∀ x ∈ Text.texts [",", "\x7d", "]", ";"], precedence? x = none := by decide
    rw [hnone s (hend.sign s hs)]
    rfl
  · rename_i w hw
    have hno := hend.word w hw
    have hinstance : (w == ("instanceof" : Text)) = false := by
      apply beq_eq_false_iff_ne.2
      rintro rfl
      exact hno (by decide)
    have hin : (w == ("in" : Text)) = false := by
      apply beq_eq_false_iff_ne.2
      rintro rfl
      exact hno (by decide)
    simp only [hinstance, hin, bind_run, mode_run, pure_run, Bool.false_and, Bool.or_self,
      Bool.false_eq_true, if_false]
  · rfl

theorem operatorStep_run (left : Expr) (tight : Nat) :
    (r.operatorStep tight left).run m c = .done (left, false) c := by
  simp (disch := decide) only [Rules.operatorStep, bind_run, token_run, pure_run, hend.isWord,
    refuseFault_run _ _ hend.fault, operatorHere_run hend, Bool.or_false, Bool.and_false,
    Bool.false_eq_true, if_false]

theorem operatorsRule_run (hfuel : 0 < r.fuel) (left : Expr) (tight : Nat) :
    (r.operatorsRule left tight).run m c = .done left c :=
  iterate_run _ _ hfuel (operatorStep_run hend _ _)

theorem assignmentRest_run (start : Nat) (left : Expr) :
    (r.assignmentRest start left).run m c = .done left c := by
  unfold Rules.assignmentRest
  rw [bind_run, refuseFault_run _ _ hend.fault]
  dsimp only
  rw [bind_run, joinAngles_run hend]
  dsimp only
  rw [bind_run, token_run]
  dsimp only
  split
  · rename_i s hs
    have hnone : ∀ x ∈ Text.texts [",", "\x7d", "]", ";"], assignmentSigns.contains x = false := by
      decide
    rw [hnone s (hend.sign s hs)]
    rfl
  · rfl

end End

/-- An operand begins with the token, and no operator does. -/
structure Token.IsOperand (t : Token) : Prop where
  sign : ∀ s, t.lexeme = .sign s → s ∈ Text.texts ["[", "\x7b"]
  word : ∀ w, t.lexeme = .word w → w ∉ Text.texts ["new", "super", "import", "delete", "void",
    "typeof", "await", "yield"]
  fault : ∀ offset, t.lexeme ≠ .fault offset

namespace Token.IsOperand

variable {t : Token} (h : t.IsOperand)
include h

theorem isSign {s : Text} (hs : s ∉ Text.texts ["[", "\x7b"]) : t.isSign s = false := by
  unfold Token.isSign
  split
  · rename_i text htext
    apply beq_eq_false_iff_ne.2
    rintro rfl
    exact hs (h.sign _ htext)
  · rfl

theorem isWord {w : Text} (hw : w ∈ Text.texts ["new", "super", "import", "delete", "void",
    "typeof", "await", "yield"]) : t.isWord w = false := by
  unfold Token.isWord
  split
  · rename_i name hname
    apply beq_eq_false_iff_ne.2
    rintro rfl
    exact h.word _ hname hw
  · rfl

theorem isOneOf_run {c : Cursor} (hc : c.token = t) (signs : List String)
    (hsigns : ∀ s ∈ signs, s.toList ∉ Text.texts ["[", "\x7b"]) :
    (isOneOf signs).run m c = .done false c := by
  unfold isOneOf
  rw [bind_run, token_run, hc]
  dsimp only
  split
  · rename_i s hs
    have hnone : (signs.any fun x => x.toList == s) = false := by
      apply List.any_eq_false.2
      intro x hx heq
      exact hsigns x hx (eq_of_beq heq ▸ h.sign s hs)
    rw [hnone]
    rfl
  · rfl

end Token.IsOperand

/-- A name begins an operand. -/
theorem Token.IsName.isOperand {t : Token} (h : t.IsName name) : t.IsOperand := by
  refine ⟨fun s hs => ?_, fun w hw hmem => ?_, fun offset hfault => ?_⟩
  · cases h.lexeme.symm.trans hs
  · cases h.lexeme.symm.trans hw
    have hlower : ∀ w ∈ Text.texts ["new", "super", "import", "delete", "void", "typeof", "await",
        "yield"], startsLower w = true := by decide
    exact Bool.false_ne_true (h.own.symm.trans (hlower name hmem))
  · cases h.lexeme.symm.trans hfault

/-! ## Operands that stand alone

What is read as a primary expression before a token that stops expressions is read as a whole
value: from rule to rule nothing is added to it. -/

theorem isArrow_of_form? {e : Expr} (he : e.form? = none) : e.isArrow = false := by
  rw [Expr.isArrow, he]
  rfl

section Operand

variable {t u : Token} {e : Expr} (ht : t.IsOperand) (hu : u.Stops) (he : e.form? = none)
include ht hu he

theorem memberRule_gives {n : Nat} (h : (rules (n + 1)).primary.GivesAt m t e u) :
    (rules (n + 1)).memberRule.GivesAt m t e u := by
  intro c hc
  obtain ⟨d, hrun, rfl, hflaw⟩ := h c hc
  subst hc
  have hfuel : 0 < (rules (n + 1)).fuel := Nat.succ_pos n
  refine ⟨d, ?_, rfl, hflaw⟩
  simp (disch := decide) only [Rules.memberRule, bind_run, token_run, pure_run, ht.isWord, hrun,
    isArrow_of_form? he, loneTypeArguments_run hu, subscripts_run hu hfuel,
    Bool.false_eq_true, if_false]

theorem operandRule_gives {n : Nat} (h : (rules (n + 1)).primary.GivesAt m t e u) :
    (rules (n + 2)).operandRule.GivesAt m t e u := by
  have hmember : (rules (n + 2)).member.GivesAt m t e u := memberRule_gives ht hu he h
  intro c hc
  obtain ⟨d, hrun, rfl, hflaw⟩ := hmember c hc
  subst hc
  have hparen : d.token.isSign "(" = false := hu.isSign (by decide)
  refine ⟨d, ?_, rfl, hflaw⟩
  simp (disch := decide) only [Rules.operandRule, bind_run, token_run, ahead_run, mode_run,
    isSign_run, pure_run, ht.isWord, ht.isSign, hrun, isArrow_of_form? he, he, reduceCtorEq,
    decide_false, hparen, callTypes_run hu, Bool.and_false, Bool.false_and, Bool.false_eq_true,
    if_false]

theorem unaryRule_gives {n : Nat} (h : (rules (n + 1)).primary.GivesAt m t e u) :
    (rules (n + 3)).unaryRule.GivesAt m t e u := by
  have hoperand : (rules (n + 3)).operand.GivesAt m t e u := operandRule_gives ht hu he h
  intro c hc
  obtain ⟨d, hrun, rfl, hflaw⟩ := hoperand c hc
  have hsteps : (isOneOf ["++", "--"]).run m c = .done false c := ht.isOneOf_run hc _ (by decide)
  have hprefix : (isOneOf Rules.prefixSigns).run m c = .done false c :=
    ht.isOneOf_run hc _ (by decide)
  have hbehind : (isOneOf ["++", "--"]).run m d = .done false d := isOneOf_run hu _ (by decide)
  subst hc
  refine ⟨d, ?_, rfl, hflaw⟩
  simp (disch := decide) only [Rules.unaryRule, bind_run, token_run, mode_run, pure_run, ht.isWord,
    ht.isSign, hsteps, hprefix, hrun, isArrow_of_form? he, hbehind, Bool.and_false,
    Bool.false_or, Bool.or_false, Bool.false_eq_true, if_false, ite_self, ite_run]

theorem conditional_gives {n : Nat} (h : (rules (n + 1)).primary.GivesAt m t e u) :
    (rules (n + 4)).conditional.GivesAt m t e u := by
  have hunary : (rules (n + 4)).unary.GivesAt m t e u := unaryRule_gives ht hu he h
  intro c hc
  obtain ⟨d, hrun, rfl, hflaw⟩ := hunary c hc
  have hoperators : ((rules (n + 4)).operators e 0).run m d = .done e d :=
    operatorsRule_run hu (Nat.succ_pos _) e 0
  have hmark : (eat "?").run m d = .done false d := eat_run hu (by decide)
  refine ⟨d, ?_, rfl, hflaw⟩
  simp only [Rules.conditional, Rules.binary, bind_run, rescue_run, here_run, pure_run, hrun,
    hoperators, isArrow_of_form? he, hmark, Bool.false_eq_true, if_false]

theorem assignmentBase_gives {n : Nat} (h : (rules (n + 1)).primary.GivesAt m t e u) :
    (rules (n + 4)).assignmentBase.GivesAt m t e u := by
  intro c hc
  have hconditional : ∀ start, ∃ d,
      (rules (n + 4)).conditional.run m { c with arrowStart := start } = .done e d ∧
        d.token = u ∧ (u.flaw = none → d.flaw = c.flaw) :=
    fun start => conditional_gives ht hu he h { c with arrowStart := start } hc
  obtain ⟨d, hd⟩ := Classical.skolem.1 hconditional
  subst hc
  -- whether an arrow function could begin here is noted before the operand is read
  obtain ⟨start, hbase⟩ : ∃ start, (rules (n + 4)).assignmentBase.run m c = .done e (d start) := by
    simp (disch := decide) only [Rules.assignmentBase, bind_run, token_run, mode_run,
      setArrowStart_run, refuseFault_run _ _ ht.fault, ht.isWord, Bool.and_false,
      Bool.false_eq_true, if_false, (hd _).1, isArrow_of_form? he, he]
    split
    · exact ⟨_, rfl⟩
    · exact ⟨_, assignmentRest_run ((hd _).2.1.symm ▸ hu) _ _⟩
  exact ⟨d start, hbase, (hd start).2⟩

theorem assignmentRule_gives {n : Nat} (h : (rules (n + 1)).primary.GivesAt m t e u) :
    (rules (n + 4)).assignmentRule.GivesAt m t e u := by
  intro c hc
  obtain ⟨d, hrun, htoken, hflaw⟩ := assignmentBase_gives ht hu he h c hc
  subst hc
  refine ⟨d, ?_, htoken, hflaw⟩
  simp (disch := decide) only [Rules.assignmentRule, bind_run, isSign_run, ahead_run, ht.isSign,
    Bool.false_and, Bool.false_eq_true, if_false, hrun]

/-- A full assignment runs the rule of the depth below with `in` allowed. -/
theorem fullAssignment_gives {n : Nat}
    (h : (rules (n + 1)).primary.GivesAt { m with allowIn := true } t e u) :
    (rules (n + 5)).fullAssignment.GivesAt m t e u := by
  have hrule := assignmentRule_gives ht hu he h
  exact hrule

end Operand

section Value

/-- A name is read as an identifier. -/
theorem identifier_run (h : c.token.IsName name) : identifier.run m c = .done name c.advanced := by
  have hstrict : strictWords.contains name = false :=
    not_contains_of_startsLower h.own (by decide)
  simp (disch := decide) only [identifier, bind_run, token_run, mode_run, advance_run, pure_run,
    h.lexeme, hstrict, not_isReserved h.own, not_beq_of_startsLower h.own, Bool.false_and,
    Bool.or_false, Bool.false_eq_true, if_false]

variable (h : c.token.IsName name) (hnext : c.ahead.Stops)
include h hnext

theorem namePrimary_run (canBeArrow : Bool) : (r.namePrimary canBeArrow).run m c =
    .done (.ident name c.token.span) c.advanced := by
  have hnot : c.advanced.token.isSign "=>" = false := hnext.isSign (by decide)
  simp (disch := decide) only [Rules.namePrimary, bind_run, token_run, identifier_run h,
    spanFrom_run, pure_run, hnot, not_beq_of_startsLower h.own, Bool.and_false, Bool.false_and,
    Bool.false_eq_true, if_false]
  rfl

theorem wordPrimary_run (canBeArrow : Bool) :
    (r.wordPrimary name canBeArrow).run m c = .done (.ident name c.token.span) c.advanced := by
  simp (disch := decide) only [Rules.wordPrimary, bind_run, token_run, pure_run,
    not_beq_of_startsLower h.own, not_isReserved h.own, Bool.or_false, Bool.false_eq_true, if_false,
    Bool.not_false, Bool.or_true, if_true, namePrimary_run h hnext]

theorem primary_run :
    r.primary.run m c = .done (.ident name c.token.span) c.advanced := by
  unfold Rules.primary
  rw [bind_run, token_run]
  dsimp only
  rw [bind_run, cursor_run]
  dsimp only
  rw [h.lexeme]
  exact wordPrimary_run h hnext _

end Value

/-- A name is the whole of a value. -/
theorem name_gives {t : Token} (h : t.IsName name) (hnext : (Token.next t.stop).Stops) (n : Nat) :
    (rules (n + 5)).fullAssignment.GivesAt m t (.ident name t.span) (Token.next t.stop) := by
  apply fullAssignment_gives h.isOperand hnext rfl
  intro c hc
  subst hc
  exact ⟨c.advanced, primary_run h hnext, rfl, Cursor.advanced_flaw⟩

/-- A property behind a plain key. -/
theorem objectProperty_gives {key : Text} {e : Expr} {u : Token}
    (hkey : c.token.lexeme = .word key) (hcolon : c.advanced.token.lexeme = .sign ":")
    (hvalue : r.fullAssignment.GivesAt m c.advanced.advanced.token e u) :
    ∃ d, r.objectProperty.run m c = .done (.field (.name key c.token.span) e) d ∧ d.token = u ∧
      (u.flaw = none → d.flaw = c.advanced.advanced.flaw) := by
  have hsign : ∀ s, c.token.isSign s = false := Token.isSign_of_word hkey
  have hmodifier : eatAccessModifier.run m c = .done false c := by
    have hword : c.ahead.isAnyWord = false := by
      rw [Token.isAnyWord, show c.ahead.lexeme = _ from hcolon]
    have hbrace : c.ahead.isSign "\x7b" = false := by
      rw [Token.isSign, show c.ahead.lexeme = _ from hcolon]
      decide
    have hbracket : c.ahead.isSign "[" = false := by
      rw [Token.isSign, show c.ahead.lexeme = _ from hcolon]
      decide
    simp only [eatAccessModifier, bind_run, token_run, ahead_run, hword, hbrace, hbracket,
      Bool.or_false, Bool.and_false, Bool.false_eq_true, if_false, pure_run]
  have hpropertyKey : r.propertyKey.run m c = .done (.name key c.token.span) c.advanced := by
    unfold Rules.propertyKey
    rw [bind_run, token_run]
    dsimp only
    rw [hkey]
    rfl
  have hafter : (Rules.atAfterKey (.name key c.token.span)).run m c.advanced =
      .done true c.advanced := by
    have hlisted : ["(", "[", ":", ",", "?", "=", "*", "<"].any
        (fun s => s.toList == (":" : Text)) = true := by decide
    simp only [Rules.atAfterKey, isOneOf, bind_run, token_run, Token.isAnyWord, Token.isString,
      Token.isNumber, hcolon, hlisted, pure_run, Bool.or_false, Bool.false_eq_true, if_false,
      if_true]
  have hpassed : (eat ":").run m c.advanced = .done true c.advanced.advanced :=
    eat_run_true _ _ (by rw [Token.isSign, hcolon]; decide)
  obtain ⟨d, hrun, htoken, hflaw⟩ := hvalue c.advanced.advanced rfl
  refine ⟨d, ?_, htoken, hflaw⟩
  simp only [Rules.objectProperty, bind_run, here_run, eat_run_false _ _ (hsign _), hmodifier,
    hpropertyKey, hafter, hpassed, hrun, pure_run, Bool.not_true, Bool.false_eq_true, if_false,
    if_true]

/-- The token ends a statement without a semicolon. -/
def Token.EndsLine (t : Token) : Prop := t.afterBreak = true ∨ t.lexeme = .done

/-- No attributes are read where none of their words stands on the line. -/
theorem attributes_run_of_none
    (hnone : (!c.token.afterBreak && (c.token.isWord "assert" || c.token.isWord "with")) = false) :
    r.attributes?.run m c = .done () c := by
  simp only [Rules.attributes?, bind_run, token_run, hnone, Bool.false_eq_true, if_false, pure_run]

theorem attributes_run (hend : c.token.EndsLine) : r.attributes?.run m c = .done () c := by
  refine attributes_run_of_none ?_
  rcases hend with hbreak | hdone
  · rw [hbreak]
    rfl
  · simp only [Token.isWord, hdone, Bool.or_self, Bool.and_false]

theorem expectSemicolon_run_sign (h : c.token.isSign ";" = true) :
    expectSemicolon.run m c = .done () c.advanced := by
  simp only [expectSemicolon, eatSemicolon, bind_run, eat_run_true _ _ h, if_true, pure_run,
    Bool.not_true, Bool.false_eq_true, if_false]

theorem expectSemicolon_run_end (hsign : c.token.isSign ";" = false) (hend : c.token.EndsLine) :
    expectSemicolon.run m c = .done () c := by
  have hatEnd : atEnd.run m c = .done true c := by
    rcases hend with hbreak | hdone
    · simp only [atEnd, bind_run, token_run, pure_run, hbreak, Bool.or_true]
    · simp only [atEnd, bind_run, token_run, pure_run, Token.isDone, hdone, decide_true,
        Bool.or_true, Bool.true_or]
  simp only [expectSemicolon, eatSemicolon, bind_run, eat_run_false _ _ hsign, hatEnd, pure_run,
    Bool.not_true, Bool.false_eq_true, if_false]

/-- A semicolon may follow on the next line. -/
theorem expectSemicolon_run (hend : c.token.EndsLine) :
    ∃ d, expectSemicolon.run m c = .done () d ∧ (c.token.isSign ";" = false → d = c) := by
  cases hsign : c.token.isSign ";" with
  | true => exact ⟨c.advanced, expectSemicolon_run_sign hsign, nofun⟩
  | false => exact ⟨c, expectSemicolon_run_end hsign hend, fun _ => rfl⟩

theorem fromClause_run {source : Text} (hfrom : c.token.lexeme = .word "from")
    (hsource : c.advanced.token.lexeme = .string source)
    (hend : c.advanced.advanced.token.EndsLine) :
    ∃ d, r.fromClause.run m c = .done source d ∧
      (c.advanced.advanced.token.isSign ";" = false → d = c.advanced.advanced) := by
  obtain ⟨d, hsemicolon, hbehind⟩ := expectSemicolon_run (m := m) hend
  have hword : (expectWord "from").run m c = .done () c.advanced :=
    expectWord_run _ _ (by rw [Token.isWord, hfrom]; decide)
  refine ⟨d, ?_, hbehind⟩
  unfold Rules.fromClause
  rw [bind_run, hword]
  dsimp only
  rw [bind_run, token_run]
  dsimp only
  rw [hsource]
  simp only [bind_run, advance_run, attributes_run hend, hsemicolon, pure_run]

/-- A default import binds the name, without anything else. -/
theorem importedLocals_run (h : c.token.IsName name)
    (hsign : ∀ s, c.advanced.token.isSign s = false) :
    r.importedLocals?.run m c = .done (some [name]) c.advanced := by
  simp (disch := decide) only [Rules.importedLocals?, bindingIdentifier, bind_run, token_run,
    isSign_run, identifier_run h, h.isReference, h.isWord, hsign, eat_run_false _ _ (hsign _),
    Bool.or_false, Bool.false_eq_true, if_false, if_true, pure_run]

/-- An import of one name, behind which nothing else stands on the line. Nothing else is passed but a
semicolon. -/
theorem itemRule_run {source : Text} (himport : c.token.lexeme = .word "import")
    (hname : c.advanced.token.IsName name)
    (hfrom : c.advanced.advanced.token.lexeme = .word "from")
    (hsource : c.advanced.advanced.advanced.token.lexeme = .string source)
    (hend : c.advanced.advanced.advanced.advanced.token.EndsLine) :
    ∃ d, (r.itemRule true).run m c =
        .done [.imports [name] source ⟨c.token.start.pos, d.lastStop⟩] d ∧
      (c.advanced.advanced.advanced.advanced.token.isSign ";" = false →
        d = c.advanced.advanced.advanced.advanced) := by
  obtain ⟨d, hclause, hbehind⟩ := fromClause_run (r := r) (m := m) hfrom hsource hend
  have hword : c.token.isWord "import" = true := by
    rw [Token.isWord, himport]
    decide
  have hahead : ∀ s, c.ahead.isSign s = false := hname.isSign
  have hlocals := importedLocals_run (r := r) (m := m) hname (Token.isSign_of_word hfrom)
  have hmark : Rules.atTypeMark.run m c.advanced = .done false c.advanced := by
    simp (disch := decide) only [Rules.atTypeMark, bind_run, ahead_run, isWord_run, hname.isWord,
      Bool.false_and, pure_run]
  refine ⟨d, ?_, hbehind⟩
  simp only [Rules.itemRule, bind_run, token_run, Bool.not_true, Bool.false_eq_true, if_false,
    hword, if_true]
  unfold Rules.importDeclaration
  simp only [bind_run, here_run, ahead_run, hahead, Bool.or_false, Bool.false_eq_true, if_false,
    advance_run, token_run]
  rw [hname.lexeme]
  simp only [bind_run, hmark, Bool.false_eq_true, if_false, hlocals, hclause, spanFrom_run,
    pure_run]

end RoutePages.Script
