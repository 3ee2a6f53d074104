import RoutePages.Proofs.Script.Items
import RoutePages.Proofs.Script.Values

/-!
# Constants that hold arrays

A constant that is annotated with an array type and holds an array is read as one declaration,
whatever stands in the array.
-/
namespace RoutePages.Script

open Script.Parser

variable {r : Rules} {m : Mode} {c d : Cursor}

/-! ## The type -/

/-- A name with brackets behind it, and an equals sign. -/
structure Cursor.AtArrayType (c : Cursor) (type : Text) : Prop where
  name : c.token.IsName type
  opening : c.advanced.token.lexeme = .sign "["
  line : c.advanced.token.afterBreak = false
  closing : c.advanced.advanced.token.lexeme = .sign "]"
  equals : c.advanced.advanced.advanced.token.lexeme = .sign "="

section ArrayType

variable {type : Text} (h : c.AtArrayType type)
include h

theorem typeReference_run (hfuel : 0 < r.fuel) :
    r.typeReference.run m c = .done () c.advanced := by
  have hopening := fun s => Token.isSign_of_sign h.opening s
  have haccess : eatAccessModifier.run m c = .done false c := by
    simp (disch := decide) only [eatAccessModifier, bind_run, token_run, ahead_run, h.name.isWord,
      Bool.or_self, Bool.false_and, Bool.false_eq_true, if_false, pure_run]
  have hword : anyWord.run m c = .done type c.advanced := by
    simp only [anyWord, bind_run, token_run, h.name.lexeme, advance_run, pure_run]
  have hpoint : (eat ".").run m c.advanced = .done false c.advanced :=
    eat_run_false _ _ (by rw [hopening]; decide)
  have hentity : r.entityName.run m c = .done () c.advanced := by
    unfold Rules.entityName
    rw [bind_run, hword]
    dsimp only
    rw [bind_run, Rules.many, many_run_none _ _ hfuel]
    · rfl
    · simp only [bind_run, hpoint, Bool.false_eq_true, if_false, pure_run]
  have hangle : atOpenAngle.run m c.advanced = .done false c.advanced := by
    have hnot : ("[" == ("<" : Text)) = false ∧ ("[" == ("<<" : Text)) = false := by decide
    simp only [atOpenAngle, bind_run, token_run, pure_run, hopening, hnot.1, hnot.2, Bool.or_self]
  simp only [Rules.typeReference, bind_run, haccess, hentity, hangle, token_run, Bool.false_and,
    Bool.false_eq_true, if_false, pure_run]

theorem primaryType_run (hfuel : 0 < r.fuel) : r.primaryType.run m c = .done () c.advanced := by
  have hkeywords : Rules.typeKeywords.contains type = false ∧ keywords.contains type = false :=
    ⟨not_contains_of_startsLower h.name.own (by decide),
      not_contains_of_startsLower h.name.own (by decide)⟩
  have hword : (r.wordType type).run m c = .done () c.advanced := by
    simp (disch := decide) only [Rules.wordType, bind_run, ahead_run, hkeywords.1, hkeywords.2,
      not_beq_of_startsLower h.name.own, Bool.false_and, Bool.or_self, Bool.false_eq_true, if_false,
      typeReference_run h hfuel]
  unfold Rules.primaryType
  rw [bind_run, token_run]
  dsimp only
  rw [h.name.lexeme]
  exact hword

theorem bracketedType_run (hfuel : 1 < r.fuel) :
    r.bracketedType.run m c = .done .array c.advanced.advanced.advanced := by
  obtain ⟨n, hn⟩ := Nat.exists_eq_add_of_le' hfuel
  have hopening : c.advanced.token.isSign "[" = true := by
    rw [Token.isSign_of_sign h.opening]
    decide
  have hclosing : c.advanced.advanced.token.isSign "]" = true := by
    rw [Token.isSign_of_sign h.closing]
    decide
  have hequals : c.advanced.advanced.advanced.token.isSign "[" = false := by
    rw [Token.isSign_of_sign h.equals]
    decide
  simp only [Rules.bracketedType, Rules.iterate, hn, iterate, bind_run,
    primaryType_run h (Nat.lt_trans Nat.zero_lt_one hfuel), token_run, hopening, h.line,
    Bool.not_false, Bool.and_self, if_true, advance_run, eat_run_true _ _ hclosing, pure_run,
    hequals, Bool.false_and, Bool.false_eq_true, if_false]

theorem typeOperandRule_run (hfuel : 1 < r.fuel) :
    r.typeOperandRule.run m c = .done .array c.advanced.advanced.advanced := by
  simp (disch := decide) only [Rules.typeOperandRule, bind_run, isWord_run, h.name.isWord,
    Bool.or_self, Bool.false_eq_true, if_false, bracketedType_run h hfuel]

/-- No operator joins the type to another one. -/
theorem joined_run {operator : Text} {operand : Parser Shape} (hfuel : 0 < r.fuel)
    (hoperator : "=" ≠ operator)
    (hoperand : operand.run m c = .done .array c.advanced.advanced.advanced) :
    (r.joined operator operand).run m c = .done .array c.advanced.advanced.advanced := by
  have hbefore : (eat operator).run m c = .done false c := eat_run_false _ _ (h.name.isSign _)
  have hbehind : (eat operator).run m c.advanced.advanced.advanced =
      .done false c.advanced.advanced.advanced := by
    apply eat_run_false
    rw [Token.isSign_of_sign h.equals]
    exact beq_eq_false_iff_ne.2 hoperator
  unfold Rules.joined
  rw [bind_run, hbefore]
  dsimp only
  rw [bind_run, hoperand]
  dsimp only
  rw [bind_run, Rules.many, many_run_none _ _ hfuel]
  · rfl
  · simp only [bind_run, hbehind, Bool.false_eq_true, if_false, pure_run]

theorem typeExpr_run (n : Nat) :
    (rules (n + 5)).typeExpr.run m c = .done .array c.advanced.advanced.advanced := by
  have hoperand : ∀ m, (rules (n + 3)).typeOperand.run m c =
      .done .array c.advanced.advanced.advanced := fun m =>
    typeOperandRule_run h (r := rules (n + 2)) (Nat.succ_lt_succ (Nat.succ_pos n))
  have hplain : ∀ m, (rules (n + 4)).plainType.run m c =
      .done .array c.advanced.advanced.advanced := by
    intro m
    show (rules (n + 3)).plainTypeRule.run m c = _
    simp (disch := decide) only [Rules.plainTypeRule, bind_run, token_run, ahead_run, h.name.isSign,
      h.name.isWord, Bool.false_and, Bool.or_self, Bool.false_eq_true, if_false]
    exact joined_run h (Nat.succ_pos _) (by decide)
      (joined_run h (Nat.succ_pos _) (by decide) (hoperand m))
  have hnot := Token.isWord_of_sign h.equals "extends"
  show (rules (n + 4)).typeExprRule.run m c = _
  unfold Rules.typeExprRule within
  simp only [bind_run, hplain, token_run, isWord_run, hnot, Bool.not_false, Bool.or_true, if_true,
    pure_run]

end ArrayType

/-! ## The declaration -/

/-- Can a constant of a module have the name? -/
def isBindable (name : Text) : Bool :=
  !isReserved name && !strictWords.contains name &&
    !(Text.texts ["eval", "arguments"]).contains name

/-- The word, the name and the type of a constant that holds an array. -/
structure Cursor.AtArrayConstant (c : Cursor) (name type : Text) : Prop where
  word : c.token.lexeme = .word "const"
  name : c.advanced.token.lexeme = .word name
  colon : c.advanced.advanced.token.lexeme = .sign ":"
  type : c.advanced.advanced.advanced.AtArrayType type

/-- Where the value of the constant begins. -/
def Cursor.atValue (c : Cursor) : Cursor :=
  c.advanced.advanced.advanced.advanced.advanced.advanced.advanced

section Constant

variable {name type : Text}

theorem target_run (hname : isBindable name = true) (h : c.token.lexeme = .word name) (n : Nat) :
    (rules (n + 1)).target.run m c = .done ⟨some name, []⟩ c.advanced := by
  simp only [isBindable, Bool.and_eq_true, Bool.not_eq_true'] at hname
  obtain ⟨⟨hreserved, hstrict⟩, hown⟩ := hname
  have hany : c.token.isAnyWord = true := by
    rw [Token.isAnyWord, h]
  have hwords : c.token.isWord "eval" = false ∧ c.token.isWord "arguments" = false := by
    have hneither : name ≠ "eval" ∧ name ≠ "arguments" := by
      constructor
      · rintro rfl
        exact absurd hown (by decide)
      · rintro rfl
        exact absurd hown (by decide)
    rw [Token.isWord_of_word h, Token.isWord_of_word h]
    exact ⟨beq_eq_false_iff_ne.2 hneither.1, beq_eq_false_iff_ne.2 hneither.2⟩
  show (rules n).targetRule.run m c = _
  simp only [Rules.targetRule, bindingIdentifier, identifier, bind_run, token_run, mode_run,
    advance_run, hany, hwords.1, hwords.2, h, hstrict, hreserved, Bool.or_self, Bool.false_eq_true,
    if_false, if_true, ite_self, pure_run]

theorem declarators_run (hname : isBindable name = true) (hc : c.AtArrayConstant name type) (n : Nat)
    {value : Expr} (hvalue : (rules (n + 5)).assignment.run m c.atValue = .done value d)
    (hcomma : d.token.isSign "," = false) :
    ((rules (n + 5)).declarators false true).run m c.advanced =
      .done [.mk (some name) true [] (some value)] d := by
  have hsign := Token.isSign_of_word hc.name
  have hdone := Token.isDone_of_word hc.name
  have hcolon : c.advanced.advanced.token.isSign ":" = true := by
    rw [Token.isSign_of_sign hc.colon]
    decide
  have hbang : c.advanced.advanced.token.isSign "!" = false := by
    rw [Token.isSign_of_sign hc.colon]
    decide
  have hequals : c.advanced.advanced.advanced.advanced.advanced.advanced.token.isSign "=" =
      true := by
    rw [Token.isSign_of_sign hc.type.equals]
    decide
  have hdeclarator : ((rules (n + 5)).declarator false true).run m c.advanced =
      .done (.mk (some name) true [] (some value)) d := by
    simp only [Rules.declarator, Rules.annotation?, Rules.annotation, expect, bind_run, here_run,
      target_run hname hc.name, Option.isSome_some, if_true, eat_run_false _ _ hbang, isSign_run,
      isWord_run, hcolon, advance_run, typeExpr_run hc.type, pure_run, Bool.false_and, Bool.false_eq_true,
      if_false, eat_run_true _ _ hequals]
    simp only [Cursor.atValue] at hvalue
    simp only [hvalue, decide_true]
  have hmore : (eat ",").run m d = .done false d := eat_run_false _ _ hcomma
  simp only [Rules.declarators, Rules.declaratorOrEnd, isDone_run, bind_run, isSign_run, hsign,
    hdone, pure_run, Bool.or_self, Bool.false_eq_true, if_false, hdeclarator]
  have hfuel : 0 < (rules (n + 5)).fuel := Nat.succ_pos _
  rw [Rules.many, many_run_none _ _ hfuel]
  simp only [bind_run, hmore, Bool.false_eq_true, if_false, pure_run]

/-- In the mode at the start of a source `in` is an operator anyway. -/
theorem variableDeclaration_run {markup : Bool} (hname : isBindable name = true)
    (hc : c.AtArrayConstant name type) (n : Nat) {value : Expr}
    (hvalue : (rules (n + 5)).assignment.run (Mode.start markup) c.atValue = .done value d)
    (hcomma : d.token.isSign "," = false) {e : Cursor}
    (hend : eatSemicolon.run (Mode.start markup) d = .done true e) :
    (rules (n + 5)).variableDeclaration.run (Mode.start markup) c =
      .done [.declaration [.mk (some name) true [] (some value)]] e := by
  have hconst : c.token.isWord "const" = true := by
    rw [Token.isWord_of_word hc.word]
    decide
  have hdeclarators := declarators_run hname hc n hvalue hcomma
  unfold Rules.variableDeclaration
  rw [bind_run, isWord_run, hconst]
  dsimp only
  rw [bind_run, advance_run]
  dsimp only
  rw [bind_run, show (within (fun m => { m with allowIn := true })
    ((rules (n + 5)).declarators false true)).run (Mode.start markup) c.advanced = _ from hdeclarators]
  simp only [bind_run, hend, Bool.not_true, Bool.false_eq_true, if_false, pure_run]

theorem notEnum (hname : isBindable name = true) (h : c.advanced.token.lexeme = .word name) :
    c.ahead.isWord "enum" = false := by
  have hahead : c.ahead = c.advanced.token := rfl
  rw [hahead, Token.isWord_of_word h]
  apply beq_eq_false_iff_ne.2
  rintro rfl
  exact absurd hname (by decide)

section Item

variable {markup : Bool} {parts : List Part} (hname : isBindable name = true)
  (hc : c.AtArrayConstant name type)
include hname hc

theorem wordStatement_run
    (hrun : r.variableDeclaration.run m c = .done parts d) :
    (r.wordStatement "const" true).run m c = .done parts d := by
  unfold Rules.wordStatement
  rw [bind_run, token_run]
  dsimp only
  rw [bind_run, ahead_run]
  dsimp only
  rw [notEnum hname hc.name]
  exact hrun

/-- A constant is an item of a module. -/
theorem item_run_const (n : Nat)
    (hrun : (rules (n + 1)).variableDeclaration.run (Mode.start markup) c = .done parts d) :
    ((rules (n + 3)).item true).run (Mode.start markup) c = .done parts d := by
  have hsign := Token.isSign_of_word hc.word
  have hnot : ∀ w, ("const" : Text) ≠ w → c.token.isWord w = false := by
    intro w hw
    rw [Token.isWord_of_word hc.word]
    exact beq_eq_false_iff_ne.2 hw
  have hdone := Token.isDone_of_word hc.word
  have hfault : refuseFault.run (Mode.start markup) c = .done () c :=
    refuseFault_run _ _ (Token.not_fault_of_word hc.word)
  have hdecorators : ((rules (n + 1)).decorators true).run (Mode.start markup) c = .done [] c := by
    have hfuel : 0 < (rules (n + 1)).fuel := Nat.succ_pos n
    unfold Rules.decorators
    rw [bind_run, Rules.many, many_run_none _ _ hfuel]
    · rfl
    · simp only [bind_run, isSign_run, hsign, Bool.false_eq_true, if_false, pure_run]
  have hplain : ((rules (n + 1)).plainStatement true).run (Mode.start markup) c =
      .done parts d := by
    unfold Rules.plainStatement
    rw [bind_run, hfault]
    dsimp only
    rw [bind_run, isDone_run, hdone]
    dsimp only
    rw [if_neg Bool.false_ne_true, bind_run, token_run]
    dsimp only
    rw [hc.word]
    exact wordStatement_run hname hc hrun
  have hstatement : ((rules (n + 1)).statementRule true).run (Mode.start markup) c =
      .done parts d := by
    have hwithin : ((rules (n + 1)).statementRule true).run (Mode.start markup) c = (do
        let before ← (rules (n + 1)).decorators true
        let t ← token
        let next ← ahead
        if t.isWord "export" || (t.isWord "import" && !next.isSign "(" && !next.isSign ".") then fail
        else if t.isWord "import" then
          let value ← (rules (n + 1)).expression
          let _ ← eatSemicolon
          return inScope before ++ [.expr value]
        else return inScope before ++ (← (rules (n + 1)).plainStatement true) :
          Parser (List Part)).run (Mode.start markup) c := rfl
    simp (disch := decide) only [hwithin, bind_run, hdecorators, token_run, ahead_run, hnot, hplain,
      Bool.false_and, Bool.or_self, Bool.false_eq_true, if_false, pure_run]
    rfl
  show ((rules (n + 2)).itemRule true).run (Mode.start markup) c = _
  simp (disch := decide) only [Rules.itemRule, bind_run, token_run, hnot, hsign, Bool.not_true,
    Bool.false_eq_true, if_false]
  exact hstatement

/-- A constant is exported. -/
theorem item_run_export {b : Cursor} (hexport : b.token.lexeme = .word "export")
    (hb : b.advanced = c) (n : Nat)
    (hrun : (rules n).variableDeclaration.run (Mode.start markup) c = .done parts d) :
    ((rules (n + 1)).item true).run (Mode.start markup) b = .done parts d := by
  have hsign := Token.isSign_of_word hc.word
  have hnot : ∀ w, ("const" : Text) ≠ w → c.token.isWord w = false := by
    intro w hw
    rw [Token.isWord_of_word hc.word]
    exact beq_eq_false_iff_ne.2 hw
  have hconst : c.token.isWord "const" = true := by
    rw [Token.isWord_of_word hc.word]
    decide
  have hword : ∀ w, ("const" : Text) ≠ w →
      (eatWord w).run (Mode.start markup) c = .done false c :=
    fun w hw => eatWord_run_false _ _ (hnot w hw)
  have hequals : (eat "=").run (Mode.start markup) c = .done false c := eat_run_false _ _ (hsign _)
  have hdone := Token.isDone_of_word hc.word
  have hfault : refuseFault.run (Mode.start markup) c = .done () c :=
    refuseFault_run _ _ (Token.not_fault_of_word hc.word)
  have hhere : (rules n).exportedHere?.run (Mode.start markup) c = .done none c := by
    apply exportedHere_run
    unfold Rules.declarationHere?
    rw [bind_run, token_run]
    dsimp only
    rw [hc.word]
    rfl
  have hdeclaration : (rules n).exportedDeclaration.run (Mode.start markup) c = .done parts d := by
    simp (disch := decide) only [Rules.exportedDeclaration, Rules.exportedDecorators, bind_run,
      isSign_run, isWord_run, ahead_run, hsign, hnot, hconst, notEnum hname hc.name, hrun, pure_run,
      Bool.false_and, Bool.and_false, Bool.false_or, Bool.true_or, Bool.false_eq_true, if_false,
      if_true]
  have hother : (rules n).otherExport.run (Mode.start markup) c = .done parts d := by
    simp (disch := decide) only [Rules.otherExport, bind_run, hword, hequals, hdeclaration,
      Bool.false_eq_true, if_false]
  have hexported : (rules n).exportDeclaration.run (Mode.start markup) b = .done parts d := by
    subst hb
    simp (disch := decide) only [Rules.exportDeclaration, Rules.exportedAmbient?, bind_run,
      advance_run, hfault, isDone_run, hdone, hword, hhere, hother, Bool.false_eq_true, if_false, pure_run]
  show ((rules n).itemRule true).run (Mode.start markup) b = _
  unfold Rules.itemRule
  rw [if_neg (by decide), bind_run, token_run]
  dsimp only
  rw [Token.isWord_of_word hexport, if_neg (by decide), Token.isWord_of_word hexport,
    if_pos (by decide)]
  exact hexported

end Item

end Constant

end RoutePages.Script
