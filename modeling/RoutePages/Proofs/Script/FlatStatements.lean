import RoutePages.Proofs.Script.SealedExpressions
import RoutePages.Script.Module

/-!
# Sources are read as flat lists of declarations

Blocks, loops and namespaces are read as their parts, one after the other, so a declaration
outside functions and classes is a part of the module itself. One lemma for each rule of the
grammar that reads a statement or a declaration, and from them, by induction on the depth,
that the rules read flat lists. So does a whole source.
-/
namespace RoutePages.Script

open Sealed
open Script.Parser (Gives Seals)

namespace Part

@[simp] theorem isFlat_expr {e : Expr} : (Part.expr e).IsFlat ↔ isSealed e := isSealed_expr

@[simp] theorem isFlat_scope (parts : List Part) : (Part.scope parts).IsFlat := isSealed_scope parts

@[simp] theorem isFlat_imports (locals : List Text) (source : Text) (s : Span) :
    (Part.imports locals source s).IsFlat := isSealed_imports locals source s

@[simp] theorem isFlat_declaration {declarators : List Declarator} :
    (Part.declaration declarators).IsFlat ↔ ∀ d ∈ declarators, isSealed d := Iff.rfl

@[simp] theorem allFlat_nil : AllFlat [] := nofun

@[simp] theorem allFlat_cons {p : Part} {l : List Part} : AllFlat (p :: l) ↔ p.IsFlat ∧ AllFlat l :=
  List.forall_mem_cons

@[simp] theorem allFlat_append {l l' : List Part} :
    AllFlat (l ++ l') ↔ AllFlat l ∧ AllFlat l' := List.forall_mem_append

theorem allFlat_flatten {l : List (List Part)} (h : ∀ parts ∈ l, AllFlat parts) :
    AllFlat l.flatten := by
  intro p hp
  obtain ⟨parts, hparts, hp⟩ := List.mem_flatten.1 hp
  exact h parts hparts p hp

/-- What is sealed is no declaration. -/
theorem isFlat_of_isSealed {p : Part} (h : isSealed p) : p.IsFlat := by
  cases p with
  | declaration declarators =>
    cases declarators with
    | nil => exact nofun
    | cons d rest => exact absurd h (List.cons_ne_nil _ _)
  | _ => exact h

theorem allFlat_of_isSealed {l : List Part} (h : ∀ p ∈ l, isSealed p) : AllFlat l :=
  fun p hp => isFlat_of_isSealed (h p hp)

/-- The parts, if there are any, are flat. -/
def FlatIfAny (o : Option (List Part)) : Prop := ∀ l ∈ o, AllFlat l

@[simp] theorem flatIfAny_none : FlatIfAny none := nofun

@[simp] theorem flatIfAny_some {l : List Part} : FlatIfAny (some l) ↔ AllFlat l :=
  ⟨fun h => h l rfl, fun h _ hl => by cases hl; exact h⟩

theorem FlatIfAny.getD {o : Option (List Part)} (h : FlatIfAny o) : AllFlat (o.getD []) := by
  cases o with
  | none => exact allFlat_nil
  | some l => exact flatIfAny_some.1 h

end Part

open Script.Part

namespace Rules

/-- Gives what was read, if it was read. -/
theorem some_gives {p : Parser (List Part)} (h : p.Gives AllFlat) :
    (do return some (← p) : Parser (Option (List Part))).Gives FlatIfAny :=
  .bind h fun _ hparts => .give (flatIfAny_some.2 hparts)

/-- Gives what was read behind other parts. -/
theorem append_gives {parts : List Part} {p : Parser (List Part)} (hparts : AllFlat parts)
    (h : p.Gives AllFlat) : (do return parts ++ (← p)).Gives AllFlat :=
  .bind h fun _ hmore => .give (allFlat_append.2 ⟨hparts, hmore⟩)

/-- Gives what was read behind an expression. -/
theorem cons_gives {e : Expr} {p : Parser (List Part)} (he : isSealed e) (h : p.Gives AllFlat) :
    (do return Part.expr e :: (← p)).Gives AllFlat :=
  .bind h fun _ hmore => .give (allFlat_cons.2 ⟨isFlat_expr.2 he, hmore⟩)

/-- Gives a single part. -/
theorem single_gives {p : Parser Part} (h : p.Seals) : (do return [← p]).Gives AllFlat :=
  .bind h fun _ hpart => .give (allFlat_cons.2 ⟨isFlat_of_isSealed hpart, allFlat_nil⟩)

theorem some_single_gives {p : Parser Part} (h : p.Seals) :
    (do return some [← p] : Parser (Option (List Part))).Gives FlatIfAny :=
  .bind h fun _ hpart =>
    .give (flatIfAny_some.2 (allFlat_cons.2 ⟨isFlat_of_isSealed hpart, allFlat_nil⟩))

theorem many_gives {r : Rules} {step : Parser (Option (List Part))} (h : step.Gives FlatIfAny) :
    (r.many step).Gives fun l => ∀ parts ∈ l, AllFlat parts := .many h _

theorem inScope_flat (decorators : List Part) : AllFlat (inScope decorators) :=
  allFlat_of_isSealed (inScope_sealed decorators)

theorem jump_gives : jump.Gives AllFlat := by
  unfold jump
  refine .skip fun _ => .skip fun _ => .ite ?_ (.give allFlat_nil)
  exact .skip fun _ => .skip fun _ => .give allFlat_nil

section Blocks

variable {r : Rules} (hr : r.Seals)
include hr

theorem blockRest_gives (top : Bool) : (r.blockRest top).Gives AllFlat := by
  unfold blockRest
  refine .bind (many_gives ?_) fun all hall => .skip fun _ => .give (allFlat_flatten hall)
  refine .skip fun _ => .skip fun _ => .skip fun _ => .ite (.give flatIfAny_none) ?_
  exact some_gives (hr.item top)

theorem block_gives : r.block.Gives AllFlat := .skip fun _ => blockRest_gives hr false

theorem moduleBlock_gives : r.moduleBlock.Gives AllFlat := .skip fun _ => blockRest_gives hr true

end Blocks

section Declarations

theorem interface_gives (r : Rules) : r.interface.Gives AllFlat := by
  unfold interface
  refine .skip fun _ => .skip fun _ => .skip fun _ => .join (.skip fun _ => .join ?_)
  exact .skip fun _ => .give allFlat_nil

theorem typeAlias_gives (r : Rules) : r.typeAlias.Gives AllFlat := by
  unfold typeAlias
  refine .skip fun _ => .skip fun _ => .skip fun _ => .skip fun _ => ?_
  exact .skip fun _ => .give allFlat_nil

variable {r : Rules} (hr : r.Seals)
include hr

theorem declarator_seals (inLoop constant : Bool) : (r.declarator inLoop constant).Seals := by
  unfold declarator
  refine .skip fun start => .bind hr.target fun target htarget => .join ?_
  rw [isSealed_target] at htarget
  have hplain : ∀ isArray, isSealed (Declarator.mk target.name isArray target.inside none) := by
    simpa using htarget
  refine .skip fun shape => .skip fun _ => ?_
  refine .skip fun _ => .ite (.give (hplain _)) (.skip fun _ => .ite ?_ ?_)
  · refine .bind hr.assignment fun value hvalue => .give ?_
    simpa using ⟨htarget, hvalue⟩
  · exact .skip fun _ => .join (.give (hplain _))

theorem declaratorOrEnd_seals (inLoop constant : Bool) :
    (r.declaratorOrEnd inLoop constant).Seals := by
  unfold declaratorOrEnd
  refine .skip fun _ => .skip fun _ => .ite (.give nofun) ?_
  exact .bind (declarator_seals hr _ _) fun d hd => .give fun _ h => by cases h; exact hd

theorem declarators_seals (inLoop constant : Bool) : (r.declarators inLoop constant).Seals := by
  unfold declarators
  refine .bind (declaratorOrEnd_seals hr _ _) fun first hfirst => ?_
  cases first with
  | none => exact .give nofun
  | some d =>
    refine .bind (many_seals ?_) fun more hmore => .give ?_
    · exact .skip fun _ => .ite (declaratorOrEnd_seals hr _ _) (.give nofun)
    · exact List.forall_mem_cons.2 ⟨hfirst d rfl, hmore⟩

theorem variableDeclaration_gives : r.variableDeclaration.Gives AllFlat := by
  unfold variableDeclaration
  refine .skip fun _ => .skip fun _ => ?_
  refine .bind (.within _ (declarators_seals hr _ _)) fun all hall => .skip fun _ => ?_
  have hflat : AllFlat [.declaration all] := by simpa using hall
  exact .ite (.skip fun _ => .skip fun _ => .give hflat) (.give hflat)

theorem loopVariables_gives : r.loopVariables.Gives AllFlat := by
  unfold loopVariables
  refine .skip fun _ => .skip fun _ => .skip fun _ => ?_
  exact .bind (.within _ (declarators_seals hr _ _)) fun all hall => .give (by simpa using hall)

theorem enumName_gives : r.enumName.Gives AllFlat := by
  unfold enumName
  refine .skip fun t => .ite (.skip fun _ => .give allFlat_nil) (.skip fun _ => ?_)
  refine .ite ?_ (.skip fun _ => .give allFlat_nil)
  refine .bind (expression_seals hr) fun value hvalue => .skip fun _ => .give ?_
  simpa using hvalue

theorem enumMember_gives : r.enumMember.Gives fun x => AllFlat x.1 := by
  unfold enumMember
  refine .bind (enumName_gives hr) fun inName hname => .skip fun _ => .ite ?_ (.give hname)
  refine .bind hr.assignment fun value hvalue => .give ?_
  simpa using ⟨hname, hvalue⟩

theorem enumeration_gives : r.enumeration.Gives AllFlat := by
  unfold enumeration
  refine .skip fun _ => .skip fun _ => ?_
  refine .bind (many_gives ?_) fun members hmembers => ?_
  · refine .skip fun _ => .ite (.give flatIfAny_none) ?_
    refine .bind (enumMember_gives hr) fun x hx => .skip fun _ => .skip fun _ => ?_
    have hgive : FlatIfAny (some x.1) := flatIfAny_some.2 hx
    refine .ite (.skip fun _ => .ite ?_ ?_) (.give hgive)
    · exact .skip fun _ => .skip fun _ => .give hgive
    · exact .skip fun _ => .give hgive
  · exact .skip fun _ => .give (allFlat_flatten hmembers)

theorem namespaceRest_gives : r.namespaceRest.Gives AllFlat :=
  .skip fun _ => .skip fun _ => moduleBlock_gives hr

theorem ambientModule_gives : r.ambientModule.Gives AllFlat := by
  unfold ambientModule
  refine .skip fun _ => .skip fun _ => .ite (moduleBlock_gives hr) ?_
  exact .skip fun _ => .give allFlat_nil

theorem wordDeclaration?_gives (name : Text) (sure : Bool) :
    (r.wordDeclaration? name sure).Gives FlatIfAny := by
  unfold wordDeclaration?
  refine .skip fun t => .ite (.ite (some_single_gives (classRest_seals r true)) ?_) ?_
  · exact .give flatIfAny_none
  refine .ite (.ite (some_gives (enumeration_gives hr)) (.give flatIfAny_none)) ?_
  refine .ite (.ite (some_gives (interface_gives r)) (.give flatIfAny_none)) ?_
  refine .ite (some_gives (ambientModule_gives hr)) ?_
  refine .ite (.ite (some_gives (namespaceRest_gives hr)) (.give flatIfAny_none)) ?_
  exact .ite (.ite (some_gives (typeAlias_gives r)) (.give flatIfAny_none)) (.give flatIfAny_none)

theorem declarationHere?_gives : r.declarationHere?.Gives FlatIfAny := by
  unfold declarationHere?
  refine .skip fun t => ?_
  split
  · exact .ite (.skip fun _ => wordDeclaration?_gives hr _ _) (.give flatIfAny_none)
  · exact .give flatIfAny_none

theorem declared?_gives : r.declared?.Gives FlatIfAny := by
  refine .within _ (.skip fun t => .ite ?_ (.ite ?_ (.skip fun _ => .ite ?_ ?_)))
  · exact some_single_gives (function_seals r false true)
  · exact some_single_gives (classRest_seals r true)
  · exact .skip fun _ => .skip fun _ => some_gives (enumeration_gives hr)
  · refine .ite (some_gives (variableDeclaration_gives hr)) ?_
    exact .ite (some_gives (ambientModule_gives hr)) (declarationHere?_gives hr)

end Declarations

section Statements

variable {r : Rules} (hr : r.Seals)
include hr

theorem condition_gives : r.condition.Gives AllFlat := by
  unfold condition
  refine .skip fun _ => .bind (fullExpression_seals hr) fun value hvalue => ?_
  exact .skip fun _ => .give (by simpa using hvalue)

theorem body_gives : r.body.Gives AllFlat := hr.statement false

theorem ifStatement_gives : r.ifStatement.Gives AllFlat := by
  unfold ifStatement
  refine .skip fun _ => .skip fun _ => ?_
  refine .bind (fullExpression_seals hr) fun test htest => .skip fun _ => ?_
  refine .ite (.give (by simpa using htest)) ?_
  refine .bind (body_gives hr) fun first hfirst => .skip fun _ => .ite ?_ (.give ?_)
  · refine .bind (body_gives hr) fun second hsecond => .give ?_
    simpa using ⟨htest, hfirst, hsecond⟩
  · simpa using ⟨htest, hfirst⟩

theorem countingTest_gives : r.countingTest.Gives AllFlat := by
  unfold countingTest
  refine .skip fun _ => .ite (.give allFlat_nil) ?_
  refine .bind (fullExpression_seals hr) fun value hvalue => .skip fun _ => .give ?_
  simpa using hvalue

theorem countingStep_gives : r.countingStep.Gives AllFlat := by
  unfold countingStep
  refine .skip fun _ => .ite (.give allFlat_nil) ?_
  exact .bind (fullExpression_seals hr) fun value hvalue => .give (by simpa using hvalue)

theorem countingHead_gives : r.countingHead.Gives AllFlat :=
  .bind (countingTest_gives hr) fun _ htest => append_gives htest (countingStep_gives hr)

theorem eachHead_gives : r.eachHead.Gives AllFlat := by
  unfold eachHead
  refine .skip fun isOver => .skip fun _ => .ite ?_ ?_
  · exact .bind (fullAssignment_seals hr) fun value hvalue => .give (by simpa using hvalue)
  · exact .bind (fullExpression_seals hr) fun value hvalue => .give (by simpa using hvalue)

theorem loopHead_gives : r.loopHead.Gives AllFlat := by
  unfold loopHead
  refine .skip fun t => .skip fun _ => .ite ?_ ?_
  · refine .bind (loopVariables_gives hr) fun declared hdeclared => .skip fun _ => ?_
    refine .skip fun _ => .ite (append_gives hdeclared (eachHead_gives hr)) ?_
    exact .skip fun _ => append_gives hdeclared (countingHead_gives hr)
  · refine .skip fun _ => .ite (countingHead_gives hr) ?_
    refine .bind (.within _ (expression_seals hr)) fun first hfirst => .skip fun _ => ?_
    refine .skip fun _ => .ite (.skip fun _ => ?_) (.skip fun _ => ?_)
    · exact cons_gives hfirst (eachHead_gives hr)
    · exact cons_gives hfirst (countingHead_gives hr)

theorem forStatement_gives : r.forStatement.Gives AllFlat := by
  unfold forStatement
  refine .skip fun _ => .skip fun _ => .skip fun _ => ?_
  refine .bind (loopHead_gives hr) fun head hhead => .skip fun _ => ?_
  exact append_gives hhead (body_gives hr)

theorem doStatement_gives : r.doStatement.Gives AllFlat := by
  unfold doStatement
  refine .skip fun _ => .bind (body_gives hr) fun inside hinside => ?_
  refine .skip fun _ => .bind (condition_gives hr) fun test htest => ?_
  exact .skip fun _ => .give (allFlat_append.2 ⟨htest, hinside⟩)

theorem whileStatement_gives : r.whileStatement.Gives AllFlat :=
  .skip fun _ => .bind (condition_gives hr) fun _ htest => append_gives htest (body_gives hr)

theorem clauseBody_gives : (clauses.clauseBody r).Gives AllFlat := by
  unfold clauses.clauseBody
  refine .bind (many_gives ?_) fun all hall => .give (allFlat_flatten hall)
  refine .skip fun _ => .skip fun _ => .skip fun _ => .skip fun _ => ?_
  exact .ite (.give flatIfAny_none) (some_gives (hr.item false))

theorem clauses_gives : r.clauses.Gives AllFlat := by
  unfold clauses
  refine .bind (@Gives.iterate _ (fun x => AllFlat x.1) _ (fun x hx => ?_) _ _ allFlat_nil)
    fun x hx => .give hx
  obtain ⟨parts, hasDefault⟩ := x
  refine .skip fun _ => .ite ?_ (.skip fun _ => .ite (.join (.skip fun _ => ?_)) (.give hx))
  · refine .bind (fullExpression_seals hr) fun test htest => .skip fun _ => ?_
    refine .bind (clauseBody_gives hr) fun more hmore => .give ?_
    simpa using ⟨hx, htest, hmore⟩
  · exact .bind (clauseBody_gives hr) fun more hmore => .give (allFlat_append.2 ⟨hx, hmore⟩)

theorem switchStatement_gives : r.switchStatement.Gives AllFlat := by
  unfold switchStatement
  refine .skip fun _ => .bind (condition_gives hr) fun subject hsubject => ?_
  refine .skip fun _ => .bind (clauses_gives hr) fun inside hinside => ?_
  exact .skip fun _ => .give (allFlat_append.2 ⟨hsubject, hinside⟩)

theorem catchTarget_gives : r.catchTarget.Gives AllFlat := by
  unfold catchTarget
  refine .skip fun _ => .ite ?_ (.give allFlat_nil)
  refine .bind hr.target fun target htarget => .skip fun _ => .join ?_
  exact .skip fun _ => .give (allFlat_of_isSealed htarget)

theorem catchClause_gives : r.catchClause.Gives AllFlat := by
  unfold catchClause
  refine .skip fun _ => .ite ?_ (.give allFlat_nil)
  exact .bind (catchTarget_gives hr) fun _ h => append_gives h (block_gives hr)

theorem finallyClause_gives : r.finallyClause.Gives AllFlat :=
  .skip fun _ => .ite (block_gives hr) (.give allFlat_nil)

theorem tryStatement_gives : r.tryStatement.Gives AllFlat := by
  unfold tryStatement
  refine .skip fun _ => .bind (block_gives hr) fun inside hinside => ?_
  refine .bind (catchClause_gives hr) fun caught hcaught => ?_
  exact append_gives (allFlat_append.2 ⟨hinside, hcaught⟩) (finallyClause_gives hr)

theorem returnStatement_gives : r.returnStatement.Gives AllFlat := by
  unfold returnStatement
  refine .skip fun _ => .skip fun _ => .ite (.give allFlat_nil) ?_
  refine .bind (fullExpression_seals hr) fun value hvalue => .skip fun _ => .give ?_
  simpa using hvalue

theorem throwStatement_gives : r.throwStatement.Gives AllFlat := by
  unfold throwStatement
  refine .skip fun _ => .skip fun _ => .join ?_
  refine .bind (fullExpression_seals hr) fun value hvalue => .skip fun _ => .give ?_
  simpa using hvalue

theorem withStatement_gives : r.withStatement.Gives AllFlat := by
  unfold withStatement
  refine .skip fun _ => .skip fun _ => .skip fun _ => ?_
  exact .bind (condition_gives hr) fun _ h => append_gives h (body_gives hr)

theorem awaitStatement_gives : r.awaitStatement.Gives AllFlat := by
  unfold awaitStatement
  refine .bind (await_seals hr) fun value hvalue => ?_
  refine .bind (.within _ (hr.operators 0 hvalue)) fun value hvalue => .skip fun _ => ?_
  exact .give (by simpa using hvalue)

theorem usingDeclaration_gives : r.usingDeclaration.Gives AllFlat := by
  unfold usingDeclaration
  refine .skip fun _ => .bind (.within _ (declarators_seals hr _ _)) fun all hall => ?_
  refine .give (allFlat_of_isSealed fun p hp => ?_)
  obtain ⟨⟨name, isArray, inside, init⟩, hd, hp⟩ := List.mem_flatMap.1 hp
  have hsealed := isSealed_declarator.1 (hall _ hd)
  rcases List.mem_append.1 hp with hp | hp
  · exact hsealed.1 p hp
  · obtain ⟨e, he, rfl⟩ := List.mem_map.1 hp
    exact isSealed_expr.2 (hsealed.2 e (Option.mem_toList.1 he))

theorem loneWord?_gives (name : Text) : (r.loneWord? name).Gives FlatIfAny := by
  unfold loneWord?
  refine .ite (declared?_gives hr) (.ite (.skip fun _ => ?_) (.ite ?_ ?_))
  · exact .ite (some_gives (moduleBlock_gives hr)) (.give flatIfAny_none)
  · refine .bind (wordDeclaration?_gives hr _ _) fun parts hparts => ?_
    cases parts with
    | some parts => exact .give hparts
    | none => exact .skip fun _ => .ite (some_gives (interface_gives r)) (.give flatIfAny_none)
  · exact wordDeclaration?_gives hr _ _

theorem expressionEnd_gives {value : Expr} (hvalue : isSealed value) :
    (r.expressionEnd value).Gives AllFlat := by
  unfold expressionEnd
  refine .skip fun _ => .ite (.give (by simpa using hvalue)) ?_
  refine .skip fun _ => .skip fun _ => .ite ?_ .fail
  exact .bind (hr.operators 0 hvalue) fun e he => .give (by simpa using he)

theorem expressionStatement_gives : r.expressionStatement.Gives AllFlat := by
  unfold expressionStatement
  refine .bind (fullExpression_seals hr) fun value hvalue => ?_
  split
  · refine .skip fun _ => .ite (body_gives hr) ?_
    refine .bind (loneWord?_gives hr _) fun parts hparts => ?_
    cases parts with
    | some parts => exact .give (flatIfAny_some.1 hparts)
    | none => exact expressionEnd_gives hr hvalue
  · exact expressionEnd_gives hr hvalue

theorem wordStatement_gives (name : Text) (declarations : Bool) :
    (r.wordStatement name declarations).Gives AllFlat := by
  unfold wordStatement
  refine .skip fun _ => .skip fun _ => .ite jump_gives ?_
  refine .ite (.skip fun _ => .skip fun _ => .give allFlat_nil) ?_
  refine .ite (doStatement_gives hr) (.ite (forStatement_gives hr) (.ite ?_ (.ite ?_ ?_)))
  · exact single_gives (function_seals r _ _)
  · exact single_gives (classRest_seals r _)
  refine .ite (ifStatement_gives hr) (.ite (returnStatement_gives hr) ?_)
  refine .ite (switchStatement_gives hr) (.ite (throwStatement_gives hr) ?_)
  refine .ite (tryStatement_gives hr) (.ite (withStatement_gives hr) ?_)
  refine .ite (whileStatement_gives hr) (.ite ?_ (.ite ?_ ?_))
  · refine .bind (.recover (catchClause_gives hr)) fun caught hcaught => ?_
    refine .bind (.recover (finallyClause_gives hr)) fun after hafter => .give ?_
    exact allFlat_append.2 ⟨FlatIfAny.getD hcaught, FlatIfAny.getD hafter⟩
  · exact .bind (.recover (finallyClause_gives hr)) fun after h => .give (FlatIfAny.getD h)
  refine .ite (awaitStatement_gives hr) (.ite ?_ ?_)
  · exact .skip fun _ => .skip fun _ => enumeration_gives hr
  refine .ite (variableDeclaration_gives hr) (.ite (variableDeclaration_gives hr) ?_)
  refine .ite (usingDeclaration_gives hr) (.ite ?_ (.ite ?_ (.ite ?_ ?_)))
  · exact .skip fun _ => single_gives (function_seals r _ _)
  · refine .skip fun _ => ?_
    exact .bind (wordDeclaration?_gives hr _ _) fun parts h => .give h.getD
  · exact .skip fun _ => .skip fun _ => .give allFlat_nil
  · exact expressionStatement_gives hr

theorem plainStatement_gives (declarations : Bool) :
    (r.plainStatement declarations).Gives AllFlat := by
  unfold plainStatement
  refine .skip fun _ => .skip fun _ => .join (.skip fun t => ?_)
  split
  · exact wordStatement_gives hr _ _
  · refine .ite (.skip fun _ => .give allFlat_nil) ?_
    exact .ite (block_gives hr) (expressionStatement_gives hr)
  · exact expressionStatement_gives hr

theorem statementRule_gives (declarations : Bool) :
    (r.statementRule declarations).Gives AllFlat := by
  refine .within _ (.skip fun before => .skip fun _ => .skip fun _ => ?_)
  refine .ite .fail (.ite ?_ (append_gives (inScope_flat before) (plainStatement_gives hr _)))
  refine .bind (expression_seals hr) fun value hvalue => .skip fun _ => .give ?_
  simpa using ⟨inScope_flat before, hvalue⟩

end Statements

section Imports

theorem class_gives (r : Rules) (sure : Bool) {parts : List Part} (h : AllFlat parts) :
    (do return parts ++ [← r.classRest sure]).Gives AllFlat := by
  refine .bind (classRest_seals r sure) fun part hpart => .give ?_
  simpa using ⟨h, isFlat_of_isSealed hpart⟩

theorem exportClause_gives (r : Rules) : r.exportClause.Gives AllFlat := by
  unfold exportClause
  refine .skip fun _ => .skip fun _ => .join (.skip fun _ => .ite ?_ ?_)
  · exact .skip fun _ => .join (.skip fun _ => .give allFlat_nil)
  refine .skip fun _ => .skip fun _ => .skip fun _ => .skip fun _ => .ite ?_ ?_
  · exact .skip fun _ => .give allFlat_nil
  · exact .skip fun _ => .give allFlat_nil

variable {r : Rules} (hr : r.Seals)
include hr

theorem importDeclaration_gives : r.importDeclaration.Gives AllFlat := by
  unfold importDeclaration
  refine .skip fun start => .skip fun _ => .ite ?_ (.skip fun _ => ?_)
  · refine .bind (expression_seals hr) fun value hvalue => .skip fun _ => .give ?_
    simpa using hvalue
  refine .skip fun t => ?_
  split
  · refine .skip fun _ => .skip fun _ => .skip fun _ => .skip fun _ => ?_
    exact .give (by simp)
  · refine .skip fun _ => .join (.skip fun names => ?_)
    cases names with
    | none => exact .skip fun _ => .give (by simp)
    | some names => exact .skip fun _ => .skip fun _ => .give (by simp)

theorem exportDefault_gives : r.exportDefault.Gives AllFlat := by
  unfold exportDefault
  refine .skip fun before => .skip fun _ => .skip fun _ => ?_
  have hbefore := inScope_flat before
  refine .ite (.skip fun _ => class_gives r _ hbefore) (.skip fun _ => .join ?_)
  refine .skip fun _ => .ite (interface_gives r) (.skip fun _ => ?_)
  refine .ite (class_gives r _ hbefore) (.skip fun _ => .skip fun _ => .ite ?_ ?_)
  · exact .skip fun _ => single_gives (function_seals r _ _)
  refine .skip fun _ => .ite (single_gives (function_seals r _ _)) ?_
  refine .bind (fullAssignment_seals hr) fun value hvalue => .skip fun _ => .give ?_
  simpa using hvalue

theorem exportedDeclaration_gives : r.exportedDeclaration.Gives AllFlat := by
  unfold exportedDeclaration
  refine .skip fun before => .skip fun _ => .skip fun _ => ?_
  refine .ite (class_gives r _ (inScope_flat before)) (.skip fun _ => .ite ?_ ?_)
  · exact .skip fun _ => single_gives (function_seals r _ _)
  refine .skip fun _ => .ite (single_gives (function_seals r _ _)) (.skip fun _ => .ite ?_ ?_)
  · exact .skip fun _ => .skip fun _ => enumeration_gives hr
  refine .skip fun _ => .skip fun _ => .skip fun _ => ?_
  exact .ite (variableDeclaration_gives hr) (exportClause_gives r)

theorem otherExport_gives : r.otherExport.Gives AllFlat := by
  unfold otherExport
  refine .skip fun _ => .ite ?_ (.skip fun _ => .ite ?_ (.skip fun _ => .ite ?_ ?_))
  · refine .skip fun _ => .skip fun _ => .join (.skip fun _ => ?_)
    exact .skip fun _ => .give allFlat_nil
  · refine .bind (expression_seals hr) fun value hvalue => .skip fun _ => .give ?_
    simpa using hvalue
  · exact .skip fun _ => .skip fun _ => .skip fun _ => .give allFlat_nil
  · exact .skip fun _ => .ite (exportDefault_gives hr) (exportedDeclaration_gives hr)

theorem exportedAmbient?_gives : r.exportedAmbient?.Gives FlatIfAny :=
  .skip fun _ => .ite (declared?_gives hr) (.give flatIfAny_none)

theorem exportedHere?_gives : r.exportedHere?.Gives FlatIfAny := by
  refine .attempt (.bind (declarationHere?_gives hr) fun parts hparts => ?_)
  cases parts with
  | some parts => exact .give (flatIfAny_some.1 hparts)
  | none => exact .fail

theorem exportDeclaration_gives : r.exportDeclaration.Gives AllFlat := by
  unfold exportDeclaration
  refine .skip fun _ => .skip fun _ => .skip fun _ => .join ?_
  refine .bind (exportedAmbient?_gives hr) fun parts hparts => ?_
  cases parts with
  | some parts => exact .give (flatIfAny_some.1 hparts)
  | none =>
    refine .bind (exportedHere?_gives hr) fun parts hparts => ?_
    cases parts with
    | some parts => exact .give (flatIfAny_some.1 hparts)
    | none => exact otherExport_gives hr

theorem itemRule_gives (top : Bool) : (r.itemRule top).Gives AllFlat := by
  unfold itemRule
  refine .ite (hr.statement true) (.skip fun t => .ite (importDeclaration_gives hr) ?_)
  refine .ite (exportDeclaration_gives hr) (.ite (.skip fun before => ?_) (hr.statement true))
  have hbefore := inScope_flat before
  refine .skip fun _ => .ite (append_gives hbefore (exportDeclaration_gives hr)) ?_
  refine .skip fun _ => .ite (append_gives hbefore (importDeclaration_gives hr)) ?_
  exact append_gives hbefore (hr.statement true)

end Imports

end Rules

/-- The rules of every depth seal what they read. -/
theorem rules_seals (n : Nat) : (rules n).Seals := by
  induction n with
  | zero =>
    -- no rule of depth zero gives anything
    exact
      { assignment := .fail, unary := .fail, operators := fun _ _ => .fail, member := .fail,
        operand := .fail, markup := .fail, target := .fail, statement := fun _ => .fail,
        item := fun _ => .fail }
  | succ n ih =>
    exact
      { assignment := Rules.assignmentRule_seals ih
        unary := Rules.unaryRule_seals ih
        operators := fun tight he => Rules.operatorsRule_seals ih he tight
        member := Rules.memberRule_seals ih
        operand := Rules.operandRule_seals ih
        markup := Rules.markupRule_seals ih
        target := Rules.targetRule_seals ih
        statement := fun _ => Rules.statementRule_gives ih _
        item := fun _ => Rules.itemRule_gives ih _ }

/-- Every declaration of a module outside functions, classes and methods is a part of it. -/
theorem parseModule_flat {markup : Bool} {source : Text} {parts : List Part}
    (h : parseModule markup source = .ok parts) : AllFlat parts := by
  unfold parseModule parseItems at h
  split at h
  · cases h
  · rename_i items c hrun
    split at h
    · cases h
    · cases h
      have hitems : (rules (depthFor source)).moduleItems.Gives
          fun l => ∀ parts ∈ l, AllFlat parts := by
        refine Rules.many_gives (.skip fun _ => .skip fun _ => .ite (.give flatIfAny_none) ?_)
        exact Rules.some_gives ((rules_seals _).item true)
      exact allFlat_flatten (hitems _ _ _ _ hrun)

end RoutePages.Script
