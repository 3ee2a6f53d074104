import RoutePages.Proofs.Script.Expressions
import RoutePages.Script.Module

/-!
# Sources are read as nested trees

One lemma for each rule of the grammar that reads a statement or a declaration, and from
them, by induction on the depth, that the rules read nested trees. So does a whole source.
-/
namespace RoutePages.Script

open Nested
open Script.Parser (Nests)

namespace Rules

/-- Gives what was read, if it was read. -/
theorem some_nests {p : Parser (List Part)} {lo hi : Nat} (h : p.Nests lo hi) :
    (do return some (← p) : Parser (Option (List Part))).Nests lo hi :=
  .bind h fun parts _ _ hparts => .give fun _ h => by cases h; exact hparts

/-- Gives what was read behind other parts. -/
theorem append_nests {parts : List Part} {p : Parser (List Part)} {lo hi : Nat}
    (hparts : ∀ part ∈ parts, part.IsNested) (h : p.Nests lo hi) :
    (do return parts ++ (← p)).Nests lo hi :=
  .bind h fun more _ _ hmore => .give (by simpa [or_imp, forall_and] using ⟨hparts, hmore⟩)

/-- Gives what was read behind an expression. -/
theorem cons_nests {e : Expr} {p : Parser (List Part)} {lo hi : Nat} (he : e.IsNested)
    (h : p.Nests lo hi) : (do return Part.expr e :: (← p)).Nests lo hi :=
  .bind h fun more _ _ hmore => .give (by simpa [or_imp, forall_and] using ⟨he, hmore⟩)

theorem jump_nests {lo hi : Nat} : jump.Nests lo hi := by
  unfold jump
  refine .skip fun _ hi _ => .skip fun _ hi _ => .ite ?_ (.give (by simp))
  exact .skip fun _ hi _ => .skip fun _ hi _ => .give (by simp)

theorem getD_nested {parts : Option (List Part)} {lo hi : Nat} (h : between lo hi parts) :
    ∀ p ∈ parts.getD [], p.IsNested := by
  cases parts with
  | none => simp
  | some parts => exact h parts rfl

section Declarations

theorem interface_nests (r : Rules) {lo hi : Nat} : r.interface.Nests lo hi := by
  unfold interface
  refine .skip fun _ hi _ => .skip fun _ hi _ => .skip fun _ hi _ => .join fun hi _ => ?_
  exact .skip fun _ hi _ => .join fun hi _ => .skip fun _ hi _ => .give (by simp)

theorem typeAlias_nests (r : Rules) {lo hi : Nat} : r.typeAlias.Nests lo hi := by
  unfold typeAlias
  refine .skip fun _ hi _ => .skip fun _ hi _ => .skip fun _ hi _ => .skip fun _ hi _ => ?_
  exact .skip fun _ hi _ => .give (by simp)

variable {r : Rules} (hr : r.Nests) {lo hi : Nat}
include hr

theorem declarator_nests (inLoop constant : Bool) : (r.declarator inLoop constant).Nests lo hi := by
  unfold declarator
  refine .skip fun start hi _ => .bind (hr.target lo hi) fun target hi _ htarget => ?_
  rw [between_target] at htarget
  have hplain : ∀ isArray, (Declarator.mk target.name isArray target.inside none).IsNested := by
    simpa using htarget
  refine .join fun hi _ => .skip fun shape hi _ => .skip fun _ hi _ => ?_
  refine .skip fun _ hi _ => .ite (.give (hplain _)) (.skip fun _ hi _ => .ite ?_ ?_)
  · refine .bind (hr.assignment lo hi) fun value hi _ hvalue => .give ?_
    simpa using ⟨htarget, hvalue.1⟩
  · exact .skip fun _ hi _ => .join fun hi _ => .give (hplain _)

theorem declaratorOrEnd_nests (inLoop constant : Bool) :
    (r.declaratorOrEnd inLoop constant).Nests lo hi := by
  unfold declaratorOrEnd
  refine .skip fun _ hi _ => .skip fun _ hi _ => .ite (.give (by simp)) ?_
  exact .bind (declarator_nests hr _ _) fun d _ _ hd => .give (by simpa using hd)

theorem declarators_nests (inLoop constant : Bool) :
    (r.declarators inLoop constant).Nests lo hi := by
  unfold declarators
  refine .bind (declaratorOrEnd_nests hr _ _) fun first hi _ hfirst => ?_
  cases first with
  | none => exact .give (by simp)
  | some d =>
    refine .bind (many_nests fun hi _ => ?_) fun more hi _ hmore => .give ?_
    · exact .skip fun _ hi _ => .ite (declaratorOrEnd_nests hr _ _) (.give (by simp))
    · simpa [or_imp, forall_and] using ⟨hfirst d rfl, hmore⟩

theorem variableDeclaration_nests : r.variableDeclaration.Nests lo hi := by
  unfold variableDeclaration
  refine .skip fun _ hi _ => .skip fun _ hi _ => ?_
  refine .bind (.within _ (declarators_nests hr _ _)) fun all hi _ hall => .skip fun _ hi _ => ?_
  refine .ite (.skip fun _ hi _ => .skip fun _ hi _ => .give ?_) (.give ?_)
  · simpa using hall
  · simpa using hall

theorem loopVariables_nests : r.loopVariables.Nests lo hi := by
  unfold loopVariables
  refine .skip fun _ hi _ => .skip fun _ hi _ => .skip fun _ hi _ => ?_
  exact .bind (.within _ (declarators_nests hr _ _)) fun all hi _ hall => .give (by simpa using hall)

theorem enumName_nests : r.enumName.Nests lo hi := by
  unfold enumName
  refine .skip fun t hi _ => .ite (.skip fun _ hi _ => .give (by simp)) (.skip fun _ hi _ => ?_)
  refine .ite ?_ (.skip fun _ hi _ => .give (by simp))
  refine .bind (expression_nests hr) fun value hi _ hvalue => .skip fun _ hi _ => .give ?_
  simpa using hvalue.1

theorem enumMember_nests : r.enumMember.Nests lo hi := by
  unfold enumMember
  refine .bind (enumName_nests hr) fun inName hi _ hname => .skip fun _ hi _ => .ite ?_ ?_
  · refine .bind (hr.assignment lo hi) fun value hi _ hvalue => .give ⟨?_, trivial⟩
    simpa [or_imp, forall_and] using ⟨hname, hvalue.1⟩
  · exact .give ⟨hname, trivial⟩

theorem enumeration_nests : r.enumeration.Nests lo hi := by
  unfold enumeration
  refine .skip fun _ hi _ => .skip fun _ hi _ => ?_
  refine .bind (many_nests fun hi _ => ?_) fun members hi _ hmembers => ?_
  · refine .skip fun _ hi _ => .ite (.give (by simp)) ?_
    refine .bind (enumMember_nests hr) fun x hi _ hx => .skip fun _ hi _ => .skip fun _ hi _ => ?_
    have hgive : between lo hi (some x.1) := fun _ h => by cases h; exact hx.1
    refine .ite (.skip fun _ hi _ => .ite ?_ ?_) (.give hgive)
    · exact .skip fun _ hi _ => .skip fun _ hi _ => .give hgive
    · exact .skip fun _ hi _ => .give hgive
  · refine .skip fun _ hi _ => .give ?_
    simpa using fun p l hl hp => hmembers l hl p hp

theorem moduleBlock_nests : r.moduleBlock.Nests lo hi :=
  .skip fun _ _ _ => blockRest_nests hr true

theorem namespaceRest_nests : r.namespaceRest.Nests lo hi :=
  .skip fun _ _ _ => .skip fun _ _ _ => moduleBlock_nests hr

theorem ambientModule_nests : r.ambientModule.Nests lo hi := by
  unfold ambientModule
  refine .skip fun _ hi _ => .skip fun _ hi _ => .ite (moduleBlock_nests hr) ?_
  exact .skip fun _ hi _ => .give (by simp)

theorem wordDeclaration?_nests (name : Text) (sure : Bool) :
    (r.wordDeclaration? name sure).Nests lo hi := by
  have hnone : ∀ hi, between lo hi (none : Option (List Part)) := by simp
  unfold wordDeclaration?
  refine .skip fun t hi _ => .ite (.ite ?_ (.give (hnone _))) ?_
  · exact .bind (classRest_nests hr true) fun part _ _ h => .give (by simpa using h)
  refine .ite (.ite (some_nests (enumeration_nests hr)) (.give (hnone _))) ?_
  refine .ite (.ite (some_nests (interface_nests r)) (.give (hnone _))) ?_
  refine .ite (some_nests (ambientModule_nests hr)) ?_
  refine .ite (.ite (some_nests (namespaceRest_nests hr)) (.give (hnone _))) ?_
  exact .ite (.ite (some_nests (typeAlias_nests r)) (.give (hnone _))) (.give (hnone _))

theorem declarationHere?_nests : r.declarationHere?.Nests lo hi := by
  unfold declarationHere?
  refine .skip fun t hi _ => ?_
  split
  · exact .ite (.skip fun _ hi _ => wordDeclaration?_nests hr _ _) (.give (by simp))
  · exact .give (by simp)

theorem declared?_nests : r.declared?.Nests lo hi := by
  refine .within _ (.skip fun t hi _ => .ite ?_ (.ite ?_ (.skip fun _ hi _ => .ite ?_ ?_)))
  · exact .bind (function_nests hr false true) fun part _ _ h => .give (by simpa using h)
  · exact .bind (classRest_nests hr true) fun part _ _ h => .give (by simpa using h)
  · exact .skip fun _ hi _ => .skip fun _ hi _ => some_nests (enumeration_nests hr)
  · refine .ite (some_nests (variableDeclaration_nests hr)) ?_
    exact .ite (some_nests (ambientModule_nests hr)) (declarationHere?_nests hr)

end Declarations

section Statements

variable {r : Rules} (hr : r.Nests) {lo hi : Nat}
include hr

theorem condition_nests : r.condition.Nests lo hi := by
  unfold condition
  refine .skip fun _ hi _ => .bind (fullExpression_nests hr) fun value hi _ hvalue => ?_
  exact .skip fun _ hi _ => .give (by simpa using hvalue.1)

theorem body_nests : r.body.Nests lo hi := hr.statement false lo hi

theorem ifStatement_nests : r.ifStatement.Nests lo hi := by
  unfold ifStatement
  refine .skip fun _ hi _ => .skip fun _ hi _ => ?_
  refine .bind (fullExpression_nests hr) fun test hi _ htest => .skip fun _ hi _ => ?_
  refine .ite (.give (by simpa using htest.1)) ?_
  refine .bind (body_nests hr) fun first hi _ hfirst => .skip fun _ hi _ => .ite ?_ (.give ?_)
  · refine .bind (body_nests hr) fun second hi _ hsecond => .give ?_
    simpa [or_imp, forall_and] using ⟨htest.1, hfirst, hsecond⟩
  · simpa [or_imp, forall_and] using ⟨htest.1, hfirst⟩

theorem countingTest_nests : r.countingTest.Nests lo hi := by
  unfold countingTest
  refine .skip fun _ hi _ => .ite (.give (by simp)) ?_
  refine .bind (fullExpression_nests hr) fun value hi _ hvalue => .skip fun _ hi _ => .give ?_
  simpa using hvalue.1

theorem countingStep_nests : r.countingStep.Nests lo hi := by
  unfold countingStep
  refine .skip fun _ hi _ => .ite (.give (by simp)) ?_
  exact .bind (fullExpression_nests hr) fun value hi _ hvalue => .give (by simpa using hvalue.1)

theorem countingHead_nests : r.countingHead.Nests lo hi :=
  .bind (countingTest_nests hr) fun _ _ _ htest => append_nests htest (countingStep_nests hr)

theorem eachHead_nests : r.eachHead.Nests lo hi := by
  unfold eachHead
  refine .skip fun isOver hi _ => .skip fun _ hi _ => .ite ?_ ?_
  · exact .bind (fullAssignment_nests hr) fun value hi _ hvalue => .give (by simpa using hvalue.1)
  · exact .bind (fullExpression_nests hr) fun value hi _ hvalue => .give (by simpa using hvalue.1)

theorem loopHead_nests : r.loopHead.Nests lo hi := by
  unfold loopHead
  refine .skip fun t hi _ => .skip fun _ hi _ => .ite ?_ ?_
  · refine .bind (loopVariables_nests hr) fun declared hi _ hdeclared => .skip fun _ hi _ => ?_
    refine .skip fun _ hi _ => .ite (append_nests hdeclared (eachHead_nests hr)) ?_
    exact .skip fun _ hi _ => append_nests hdeclared (countingHead_nests hr)
  · refine .skip fun _ hi _ => .ite (countingHead_nests hr) ?_
    refine .bind (.within _ (expression_nests hr)) fun first hi _ hfirst => .skip fun _ hi _ => ?_
    refine .skip fun _ hi _ => .ite (.skip fun _ hi _ => ?_) (.skip fun _ hi _ => ?_)
    · exact cons_nests hfirst.1 (eachHead_nests hr)
    · exact cons_nests hfirst.1 (countingHead_nests hr)

theorem forStatement_nests : r.forStatement.Nests lo hi := by
  unfold forStatement
  refine .skip fun _ hi _ => .skip fun _ hi _ => .skip fun _ hi _ => ?_
  refine .bind (loopHead_nests hr) fun head hi _ hhead => .skip fun _ hi _ => ?_
  exact append_nests hhead (body_nests hr)

theorem doStatement_nests : r.doStatement.Nests lo hi := by
  unfold doStatement
  refine .skip fun _ hi _ => .bind (body_nests hr) fun inside hi _ hinside => ?_
  refine .skip fun _ hi _ => .bind (condition_nests hr) fun test hi _ htest => ?_
  refine .skip fun _ hi _ => .give ?_
  simpa [or_imp, forall_and] using ⟨htest, hinside⟩

theorem whileStatement_nests : r.whileStatement.Nests lo hi :=
  .skip fun _ _ _ => .bind (condition_nests hr) fun _ _ _ htest => append_nests htest (body_nests hr)

theorem clauseBody_nests : (clauses.clauseBody r).Nests lo hi := by
  unfold clauses.clauseBody
  refine .bind (many_nests fun hi _ => ?_) fun all hi _ hall => .give ?_
  · refine .skip fun _ hi _ => .skip fun _ hi _ => .skip fun _ hi _ => .skip fun _ hi _ => ?_
    exact .ite (.give (by simp)) (some_nests (hr.item false _ _))
  · simpa using fun p l hl hp => hall l hl p hp

theorem clauses_nests : r.clauses.Nests lo hi := by
  unfold clauses
  refine .bind (iterate_nests (by simp) fun x hi _ hx => ?_) fun x hi _ hx => .give hx.1
  obtain ⟨parts, hasDefault⟩ := x
  refine .skip fun _ hi _ => .ite ?_ (.skip fun _ hi _ => .ite (.join fun hi _ => ?_) ?_)
  · refine .bind (fullExpression_nests hr) fun test hi _ htest => .skip fun _ hi _ => ?_
    refine .bind (clauseBody_nests hr) fun more hi _ hmore => .give ⟨⟨?_, trivial⟩, trivial⟩
    simpa [or_imp, forall_and] using ⟨hx.1, htest.1, hmore⟩
  · refine .skip fun _ hi _ => ?_
    refine .bind (clauseBody_nests hr) fun more hi _ hmore => .give ⟨⟨?_, trivial⟩, trivial⟩
    simpa [or_imp, forall_and] using ⟨hx.1, hmore⟩
  · exact .give ⟨hx, trivial⟩

theorem switchStatement_nests : r.switchStatement.Nests lo hi := by
  unfold switchStatement
  refine .skip fun _ hi _ => .bind (condition_nests hr) fun subject hi _ hsubject => ?_
  refine .skip fun _ hi _ => .bind (clauses_nests hr) fun inside hi _ hinside => ?_
  refine .skip fun _ hi _ => .give ?_
  simpa [or_imp, forall_and] using ⟨hsubject, hinside⟩

theorem catchTarget_nests : r.catchTarget.Nests lo hi := by
  unfold catchTarget
  refine .skip fun _ hi _ => .ite ?_ (.give (by simp))
  refine .bind (hr.target lo hi) fun target hi _ htarget => .skip fun _ hi _ => ?_
  exact .join fun hi _ => .skip fun _ hi _ => .give (by simpa using htarget)

theorem catchClause_nests : r.catchClause.Nests lo hi := by
  unfold catchClause
  refine .skip fun _ hi _ => .ite ?_ (.give (by simp))
  exact .bind (catchTarget_nests hr) fun _ _ _ h => append_nests h (block_nests hr)

theorem finallyClause_nests : r.finallyClause.Nests lo hi :=
  .skip fun _ _ _ => .ite (block_nests hr) (.give (by simp))

theorem tryStatement_nests : r.tryStatement.Nests lo hi := by
  unfold tryStatement
  refine .skip fun _ hi _ => .bind (block_nests hr) fun inside hi _ hinside => ?_
  refine .bind (catchClause_nests hr) fun caught hi _ hcaught => append_nests ?_ (finallyClause_nests hr)
  simpa [or_imp, forall_and] using ⟨hinside, hcaught⟩

theorem returnStatement_nests : r.returnStatement.Nests lo hi := by
  unfold returnStatement
  refine .skip fun _ hi _ => .skip fun _ hi _ => .ite (.give (by simp)) ?_
  refine .bind (fullExpression_nests hr) fun value hi _ hvalue => .skip fun _ hi _ => .give ?_
  simpa using hvalue.1

theorem throwStatement_nests : r.throwStatement.Nests lo hi := by
  unfold throwStatement
  refine .skip fun _ hi _ => .skip fun _ hi _ => .join fun hi _ => ?_
  refine .bind (fullExpression_nests hr) fun value hi _ hvalue => .skip fun _ hi _ => .give ?_
  simpa using hvalue.1

theorem withStatement_nests : r.withStatement.Nests lo hi := by
  unfold withStatement
  refine .skip fun _ hi _ => .skip fun _ hi _ => .skip fun _ hi _ => ?_
  exact .bind (condition_nests hr) fun _ _ _ h => append_nests h (body_nests hr)

theorem awaitStatement_nests : r.awaitStatement.Nests lo hi := by
  unfold awaitStatement
  refine .bind (await_nests hr) fun value hi _ hvalue => ?_
  refine .bind (.within _ (hr.operators 0 hvalue)) fun value hi _ hvalue => .skip fun _ hi _ => ?_
  exact .give (by simpa using hvalue.1)

theorem usingDeclaration_nests : r.usingDeclaration.Nests lo hi := by
  unfold usingDeclaration
  refine .skip fun _ hi _ => ?_
  refine .bind (.within _ (declarators_nests hr _ _)) fun all hi _ hall => .give fun p hp => ?_
  obtain ⟨⟨name, isArray, inside, init⟩, hd, hp⟩ := List.mem_flatMap.1 hp
  have hnested := Declarator.isNested_mk.1 (hall _ hd)
  rcases List.mem_append.1 hp with hp | hp
  · exact hnested.1 p hp
  · obtain ⟨e, he, rfl⟩ := List.mem_map.1 hp
    exact Part.isNested_expr.2 (hnested.2 e (Option.mem_toList.1 he))

theorem loneWord?_nests (name : Text) : (r.loneWord? name).Nests lo hi := by
  have hnone : ∀ hi, between lo hi (none : Option (List Part)) := by simp
  unfold loneWord?
  refine .ite (declared?_nests hr) (.ite (.skip fun _ hi _ => ?_) (.ite ?_ ?_))
  · exact .ite (some_nests (moduleBlock_nests hr)) (.give (hnone _))
  · refine .bind (wordDeclaration?_nests hr _ _) fun parts hi _ hparts => ?_
    cases parts with
    | some parts => exact .give hparts
    | none => exact .skip fun _ hi _ => .ite (some_nests (interface_nests r)) (.give (hnone _))
  · exact wordDeclaration?_nests hr _ _

theorem expressionEnd_nests {value : Expr} (hvalue : between lo hi value) :
    (r.expressionEnd value).Nests lo hi := by
  unfold expressionEnd
  refine .skip fun _ hi hle => .ite (.give (by simpa using hvalue.1)) ?_
  refine .skip fun _ hi hle' => .skip fun _ hi hle'' => .ite ?_ .fail
  have hoperand := mono hvalue (Nat.le_refl _) (Nat.le_trans hle (Nat.le_trans hle' hle''))
  exact .bind (hr.operators 0 hoperand) fun e hi _ he => .give (by simpa using he.1)

theorem expressionStatement_nests : r.expressionStatement.Nests lo hi := by
  unfold expressionStatement
  refine .bind (fullExpression_nests hr) fun value hi _ hvalue => ?_
  split
  · refine .skip fun _ hi hle => .ite (body_nests hr) ?_
    refine .bind (loneWord?_nests hr _) fun parts hi hle' hparts => ?_
    cases parts with
    | some parts => exact .give (hparts parts rfl)
    | none => exact expressionEnd_nests hr (mono hvalue (Nat.le_refl _) (Nat.le_trans hle hle'))
  · exact expressionEnd_nests hr hvalue

theorem wordStatement_nests (name : Text) (declarations : Bool) :
    (r.wordStatement name declarations).Nests lo hi := by
  unfold wordStatement
  refine .skip fun _ hi _ => .skip fun _ hi _ => .ite jump_nests ?_
  refine .ite (.skip fun _ hi _ => .skip fun _ hi _ => .give (by simp)) ?_
  refine .ite (doStatement_nests hr) (.ite (forStatement_nests hr) (.ite ?_ (.ite ?_ ?_)))
  · exact .bind (function_nests hr _ _) fun part _ _ h => .give (by simpa using h)
  · exact .bind (classRest_nests hr _) fun part _ _ h => .give (by simpa using h)
  refine .ite (ifStatement_nests hr) (.ite (returnStatement_nests hr) ?_)
  refine .ite (switchStatement_nests hr) (.ite (throwStatement_nests hr) ?_)
  refine .ite (tryStatement_nests hr) (.ite (withStatement_nests hr) ?_)
  refine .ite (whileStatement_nests hr) (.ite ?_ (.ite ?_ ?_))
  · refine .bind (.recover (catchClause_nests hr)) fun caught hi _ hcaught => ?_
    refine .bind (.recover (finallyClause_nests hr)) fun after hi _ hafter => .give ?_
    simpa [or_imp, forall_and] using ⟨getD_nested hcaught, getD_nested hafter⟩
  · exact .bind (.recover (finallyClause_nests hr)) fun after hi _ h => .give (getD_nested h)
  refine .ite (awaitStatement_nests hr) (.ite ?_ ?_)
  · exact .skip fun _ hi _ => .skip fun _ hi _ => enumeration_nests hr
  refine .ite (variableDeclaration_nests hr) (.ite (variableDeclaration_nests hr) ?_)
  refine .ite (usingDeclaration_nests hr) (.ite ?_ (.ite ?_ (.ite ?_ ?_)))
  · refine .skip fun _ hi _ => ?_
    exact .bind (function_nests hr _ _) fun part _ _ h => .give (by simpa using h)
  · refine .skip fun _ hi _ => ?_
    exact .bind (wordDeclaration?_nests hr _ _) fun parts hi _ h => .give (getD_nested h)
  · exact .skip fun _ hi _ => .skip fun _ hi _ => .give (by simp)
  · exact expressionStatement_nests hr

theorem plainStatement_nests (declarations : Bool) :
    (r.plainStatement declarations).Nests lo hi := by
  unfold plainStatement
  refine .skip fun _ hi _ => .skip fun _ hi _ => .join fun hi _ => .skip fun t hi _ => ?_
  split
  · exact wordStatement_nests hr _ _
  · refine .ite (.skip fun _ hi _ => .give (by simp)) ?_
    exact .ite (block_nests hr) (expressionStatement_nests hr)
  · exact expressionStatement_nests hr

theorem statementRule_nests (declarations : Bool) : (r.statementRule declarations).Nests lo hi := by
  refine .within _ (.bind (decorators_nests hr _) fun before hi _ hbefore => ?_)
  have hscope := inScope_nested hbefore
  refine .skip fun _ hi _ => .skip fun _ hi _ => .ite .fail (.ite ?_ ?_)
  · refine .bind (expression_nests hr) fun value hi _ hvalue => .skip fun _ hi _ => .give ?_
    simpa [or_imp, forall_and] using ⟨hscope, hvalue.1⟩
  · exact append_nests hscope (plainStatement_nests hr _)

end Statements

section Imports

theorem exportClause_nests (r : Rules) {lo hi : Nat} : r.exportClause.Nests lo hi := by
  unfold exportClause
  refine .skip fun _ hi _ => .skip fun _ hi _ => .join fun hi _ => .skip fun _ hi _ => .ite ?_ ?_
  · exact .skip fun _ hi _ => .join fun hi _ => .skip fun _ hi _ => .give (by simp)
  refine .skip fun _ hi _ => .skip fun _ hi _ => .skip fun _ hi _ => .skip fun _ hi _ => .ite ?_ ?_
  · exact .skip fun _ hi _ => .give (by simp)
  · exact .skip fun _ hi _ => .give (by simp)

variable {r : Rules} (hr : r.Nests) {lo hi : Nat}
include hr

theorem class_nests (sure : Bool) {parts : List Part} (h : ∀ p ∈ parts, p.IsNested) :
    (do return parts ++ [← r.classRest sure]).Nests lo hi := by
  refine .bind (classRest_nests hr sure) fun part hi _ hpart => .give ?_
  simpa [or_imp, forall_and] using ⟨h, hpart⟩

theorem importDeclaration_nests : r.importDeclaration.Nests lo hi := by
  unfold importDeclaration
  refine .skip fun start hi _ => .skip fun _ hi _ => .ite ?_ (.skip fun _ hi _ => ?_)
  · refine .bind (expression_nests hr) fun value hi _ hvalue => .skip fun _ hi _ => .give ?_
    simpa using hvalue.1
  refine .skip fun t hi _ => ?_
  split
  · refine .skip fun _ hi _ => .skip fun _ hi _ => .skip fun _ hi _ => .skip fun _ hi _ => ?_
    exact .give (by simp)
  · refine .skip fun _ hi _ => .join fun hi _ => .skip fun names hi _ => ?_
    cases names with
    | none => exact .skip fun _ hi _ => .give (by simp)
    | some names => exact .skip fun _ hi _ => .skip fun _ hi _ => .give (by simp)

theorem exportedDecorators_nests : r.exportedDecorators.Nests lo hi :=
  .skip fun _ _ _ => .ite (decorators_nests hr _) (.give (by simp))

theorem exportDefault_nests : r.exportDefault.Nests lo hi := by
  unfold exportDefault
  refine .bind (exportedDecorators_nests hr) fun before hi _ hdecorators => ?_
  have hbefore := inScope_nested hdecorators
  refine .skip fun _ hi _ => .skip fun _ hi _ => ?_
  refine .ite (.skip fun _ hi _ => class_nests hr _ hbefore) (.skip fun _ hi _ => ?_)
  refine .join fun hi _ => .skip fun _ hi _ => .ite (interface_nests r) (.skip fun _ hi _ => ?_)
  refine .ite (class_nests hr _ hbefore) (.skip fun _ hi _ => .skip fun _ hi _ => .ite ?_ ?_)
  · refine .skip fun _ hi _ => ?_
    exact .bind (function_nests hr _ _) fun part _ _ h => .give (by simpa using h)
  refine .skip fun _ hi _ => .ite ?_ ?_
  · exact .bind (function_nests hr _ _) fun part _ _ h => .give (by simpa using h)
  · refine .bind (fullAssignment_nests hr) fun value hi _ hvalue => .skip fun _ hi _ => .give ?_
    simpa using hvalue.1

theorem exportedDeclaration_nests : r.exportedDeclaration.Nests lo hi := by
  unfold exportedDeclaration
  refine .bind (exportedDecorators_nests hr) fun before hi _ hbefore => ?_
  refine .skip fun _ hi _ => .skip fun _ hi _ => ?_
  refine .ite (class_nests hr _ (inScope_nested hbefore)) (.skip fun _ hi _ => .ite ?_ ?_)
  · refine .skip fun _ hi _ => ?_
    exact .bind (function_nests hr _ _) fun part _ _ h => .give (by simpa using h)
  refine .skip fun _ hi _ => .ite ?_ (.skip fun _ hi _ => .ite ?_ ?_)
  · exact .bind (function_nests hr _ _) fun part _ _ h => .give (by simpa using h)
  · exact .skip fun _ hi _ => .skip fun _ hi _ => enumeration_nests hr
  refine .skip fun _ hi _ => .skip fun _ hi _ => .skip fun _ hi _ => ?_
  exact .ite (variableDeclaration_nests hr) (exportClause_nests r)

theorem otherExport_nests : r.otherExport.Nests lo hi := by
  unfold otherExport
  refine .skip fun _ hi _ => .ite ?_ (.skip fun _ hi _ => .ite ?_ (.skip fun _ hi _ => .ite ?_ ?_))
  · refine .skip fun _ hi _ => .skip fun _ hi _ => .join fun hi _ => .skip fun _ hi _ => ?_
    exact .skip fun _ hi _ => .give (by simp)
  · refine .bind (expression_nests hr) fun value hi _ hvalue => .skip fun _ hi _ => .give ?_
    simpa using hvalue.1
  · refine .skip fun _ hi _ => .skip fun _ hi _ => .skip fun _ hi _ => .give (by simp)
  · exact .skip fun _ hi _ => .ite (exportDefault_nests hr) (exportedDeclaration_nests hr)

theorem exportedAmbient?_nests : r.exportedAmbient?.Nests lo hi :=
  .skip fun _ _ _ => .ite (declared?_nests hr) (.give (by simp))

theorem exportedHere?_nests : r.exportedHere?.Nests lo hi := by
  refine .attempt (.bind (declarationHere?_nests hr) fun parts hi _ hparts => ?_)
  cases parts with
  | some parts => exact .give (hparts parts rfl)
  | none => exact .fail

theorem exportDeclaration_nests : r.exportDeclaration.Nests lo hi := by
  unfold exportDeclaration
  refine .skip fun _ hi _ => .skip fun _ hi _ => .skip fun _ hi _ => .join fun hi _ => ?_
  refine .bind (exportedAmbient?_nests hr) fun parts hi _ hparts => ?_
  cases parts with
  | some parts => exact .give (hparts parts rfl)
  | none =>
    refine .bind (exportedHere?_nests hr) fun parts hi _ hparts => ?_
    cases parts with
    | some parts => exact .give (hparts parts rfl)
    | none => exact otherExport_nests hr

theorem itemRule_nests (top : Bool) : (r.itemRule top).Nests lo hi := by
  unfold itemRule
  refine .ite (hr.statement true _ _) (.skip fun t hi _ => .ite (importDeclaration_nests hr) ?_)
  refine .ite (exportDeclaration_nests hr) (.ite ?_ ?_)
  · refine .bind (decorators_nests hr _) fun before hi _ hdecorators => ?_
    have hbefore := inScope_nested hdecorators
    refine .skip fun _ hi _ => .ite (append_nests hbefore (exportDeclaration_nests hr)) ?_
    refine .skip fun _ hi _ => .ite (append_nests hbefore (importDeclaration_nests hr)) ?_
    exact append_nests hbefore (hr.statement true _ _)
  · exact hr.statement true _ _

end Imports

end Rules

/-- The rules of every depth read nested trees. -/
theorem rules_nests (n : Nat) : (rules n).Nests := by
  induction n with
  | zero =>
    exact
      { assignment := fun _ _ => .fail, unary := fun _ _ => .fail, operators := fun _ _ => .fail,
        member := fun _ _ => .fail, operand := fun _ _ => .fail, markup := fun _ _ => .fail,
        target := fun _ _ => .fail, statement := fun _ _ _ => .fail, item := fun _ _ _ => .fail }
  | succ n ih =>
    exact
      { assignment := fun _ _ => Rules.assignmentRule_nests ih
        unary := fun _ _ => Rules.unaryRule_nests ih
        operators := fun tight he => Rules.operatorsRule_nests ih he tight
        member := fun _ _ => Rules.memberRule_nests ih
        operand := fun _ _ => Rules.operandRule_nests ih
        markup := fun _ _ => Rules.markupRule_nests ih
        target := fun _ _ => Rules.targetRule_nests ih
        statement := fun _ _ _ => Rules.statementRule_nests ih _
        item := fun _ _ _ => Rules.itemRule_nests ih _ }

theorem Rules.moduleItems_nests {r : Rules} (hr : r.Nests) {lo hi : Nat} :
    r.moduleItems.Nests lo hi := by
  refine many_nests fun hi _ => .skip fun _ hi _ => .skip fun _ hi _ => ?_
  exact .ite (.give (by simp)) (some_nests (hr.item true _ _))

theorem Cursor.start_ordered (source : Text) : (Cursor.start source).Ordered :=
  have h := Token.next_behind (skipInterpreterLine ⟨0, source⟩)
  ⟨Nat.zero_le _, h.2⟩

/-- Every tree of a source that is read is nested. -/
theorem parseItems_nested {markup : Bool} {source : Text} {items : List (List Part)}
    (h : parseItems markup source = .ok items) : ∀ parts ∈ items, ∀ p ∈ parts, p.IsNested := by
  unfold parseItems at h
  split at h
  · cases h
  · rename_i read c hrun
    split at h
    · cases h
    · cases h
      exact (Rules.moduleItems_nests (rules_nests _)) _ _ _ _ (Cursor.start_ordered source)
        (Nat.zero_le _) (Nat.le_refl _) hrun

/-- Every part of a module is nested. -/
theorem parseModule_nested {markup : Bool} {source : Text} {parts : List Part}
    (h : parseModule markup source = .ok parts) : ∀ p ∈ parts, p.IsNested := by
  unfold parseModule at h
  cases hitems : parseItems markup source with
  | error offset => rw [hitems] at h; cases h
  | ok items =>
    rw [hitems] at h
    cases h
    intro p hp
    obtain ⟨l, hl, hp⟩ := List.mem_flatten.1 hp
    exact parseItems_nested hitems l hl p hp

end RoutePages.Script
