import RoutePages.Proofs.Script.Sealed
import RoutePages.Script.Grammar.Markup

/-!
# Expressions are read as sealed trees

One lemma for each rule of the grammar that reads an expression or a part of one, under
the assumption that the rules it refers to seal what they read. Of functions, classes and
methods nothing has to be known.
-/
namespace RoutePages.Script

open Sealed
open Script.Parser (Gives Seals)

/-- The part may be a declaration, but there is none in it. -/
def Part.IsFlat : Part → Prop
  | .declaration declarators => ∀ d ∈ declarators, isSealed d
  | p => isSealed p

/-- All declarations among the parts are parts themselves. -/
def Part.AllFlat (l : List Part) : Prop := ∀ p ∈ l, p.IsFlat

/-- The mutually dependent rules seal what they read. -/
structure Rules.Seals (r : Rules) : Prop where
  assignment : r.assignment.Seals
  unary : r.unary.Seals
  operators {e : Expr} (tight : Nat) (he : isSealed e) : (r.operators e tight).Seals
  member : r.member.Seals
  operand : r.operand.Seals
  markup : r.markup.Seals
  target : r.target.Seals
  statement (declarations : Bool) : (r.statement declarations).Gives Part.AllFlat
  item (top : Bool) : (r.item top).Gives Part.AllFlat

namespace Rules

theorem many_seals {α : Type} [Sealed α] {r : Rules} {step : Parser (Option α)}
    (h : step.Seals) : (r.many step).Seals := .many h _

theorem iterate_seals {α : Type} [Sealed α] {r : Rules} {a : α} {step : α → Parser (α × Bool)}
    (ha : isSealed a) (h : ∀ a, isSealed a → (step a).Seals) : (r.iterate step a).Seals :=
  .iterate (fun a ha m c b d hrun => (h a ha m c b d hrun).1) _ ha

section Expressions

variable {r : Rules} (hr : r.Seals)
include hr

theorem fullAssignment_seals : r.fullAssignment.Seals := .within _ hr.assignment

theorem expression_seals : r.expression.Seals := by
  unfold expression
  refine .bind hr.assignment fun first hfirst => .skip fun _ => .ite ?_ (.give hfirst)
  refine .bind (many_seals ?_) fun more hmore => .give (by simpa [hfirst] using hmore)
  refine .skip fun _ => .ite ?_ (.give (by simp))
  exact .bind hr.assignment fun e he => .give (by simpa using he)

theorem fullExpression_seals : r.fullExpression.Seals := .within _ (expression_seals hr)

theorem initialiser?_seals : r.initialiser?.Seals := by
  unfold initialiser?
  refine .skip fun _ => .ite ?_ (.give (by simp))
  exact .bind (fullAssignment_seals hr) fun e he => .give (by simpa using he)

theorem bindingElement_seals : r.bindingElement.Seals := by
  unfold bindingElement
  refine .bind hr.target fun target htarget => ?_
  refine .bind (initialiser?_seals hr) fun value hvalue => ?_
  cases value with
  | none => exact .give ⟨htarget, trivial⟩
  | some e =>
    rw [isSealed_target] at htarget
    exact .give (by simpa [or_imp, forall_and, hvalue e rfl] using htarget)

theorem propertyKey_seals : r.propertyKey.Seals := by
  unfold propertyKey
  refine .skip fun t => ?_
  split
  · exact .skip fun _ => .give (by simp [Key.parts])
  · exact .skip fun _ => .give (by simp [Key.parts])
  · exact .skip fun _ => .give (by simp [Key.parts])
  · exact .skip fun _ => .give (by simp [Key.parts])
  · refine .ite (.skip fun _ => ?_) .fail
    refine .bind (fullAssignment_seals hr) fun value hvalue => ?_
    refine .bind (many_seals ?_) fun more hmore => ?_
    · refine .skip fun _ => .ite ?_ (.give (by simp))
      exact .bind (fullAssignment_seals hr) fun e he => .give (by simpa using he)
    · refine .skip fun _ => .skip fun _ => .give ?_
      simpa [Key.parts, hvalue] using hmore
  · exact .fail

theorem arrayPattern_seals : r.arrayPattern.Seals := by
  unfold arrayPattern
  refine .skip fun _ => .bind (many_seals ?_) fun parts hparts => ?_
  · refine .skip fun _ => .skip fun _ => .ite (.give (by simp)) ?_
    refine .skip fun _ => .ite (.give (by simp)) (.skip fun _ => .ite ?_ ?_)
    · refine .bind hr.target fun t ht => .given (.skip fun _ => .give ?_)
      simpa using ht
    · refine .bind (bindingElement_seals hr) fun t ht => .given (.skip fun _ => .give ?_)
      simpa using ht
  · refine .skip fun _ => .skip fun _ => .give ?_
    simpa using fun p l hl hp => hparts l hl p hp

theorem patternProperty_seals : r.patternProperty.Seals := by
  unfold patternProperty
  refine .skip fun _ => .ite ?_ (.bind (propertyKey_seals hr) fun key hkey => ?_)
  · exact .bind hr.target fun t ht => .give (by simpa using ht)
  rw [isSealed_key] at hkey
  refine .skip fun _ => .ite ?_ ?_
  · refine .bind (bindingElement_seals hr) fun t ht => .give ?_
    simpa [or_imp, forall_and] using ⟨hkey, ht.1⟩
  · split
    · refine .bind (initialiser?_seals hr) fun value hvalue => ?_
      cases value with
      | none => exact .give (by simp)
      | some e => exact .give (by simpa using hvalue e rfl)
    · exact .fail

theorem objectPattern_seals : r.objectPattern.Seals := by
  unfold objectPattern
  refine .skip fun _ => .bind (many_seals ?_) fun parts hparts => ?_
  · refine .skip fun _ => .ite (.give (by simp)) ?_
    refine .bind (patternProperty_seals hr) fun inside hinside => ?_
    exact .skip fun _ => .give (by simpa using hinside)
  · refine .skip fun _ => .skip fun _ => .give ?_
    simpa using fun p l hl hp => hparts l hl p hp

theorem targetRule_seals : r.targetRule.Seals := by
  unfold targetRule
  refine .skip fun t => .ite ?_ (.ite ?_ (.ite ?_ .fail))
  · exact .skip fun name => .give (by simp)
  · exact .bind (arrayPattern_seals hr) fun inside h => .give (by simpa using h)
  · exact .bind (objectPattern_seals hr) fun inside h => .give (by simpa using h)

theorem arguments_seals : r.arguments.Seals := by
  refine .within _ (.skip fun _ => .bind (many_seals ?_) fun parts h => ?_)
  · refine .skip fun _ => .skip fun _ => .ite (.give (by simp)) (.skip fun _ => ?_)
    refine .bind (fullAssignment_seals hr) fun e he => .skip fun _ => .give ?_
    simpa using he
  · exact .skip fun _ => .give h

end Expressions

section Literals

theorem objectMethod_seals (r : Rules) (start : Nat) (key : Key)
    (isScope inAsync inGenerator : Bool) :
    (r.objectMethod start key isScope inAsync inGenerator).Seals :=
  .skip fun _ => .skip fun _ => .give (isSealed_method _ _)

variable {r : Rules} (hr : r.Seals)
include hr

theorem arrayLiteral_seals : r.arrayLiteral.Seals := by
  unfold arrayLiteral
  refine .skip fun start => .skip fun _ => .bind (many_seals ?_) fun elements helements => ?_
  · refine .skip fun _ => .skip fun _ => .ite (.give (by simp)) ?_
    refine .skip fun _ => .ite (.give (by simp)) (.skip fun _ => .ite ?_ ?_)
    · refine .bind (fullAssignment_seals hr) fun e he => .given (.skip fun _ => .give ?_)
      simpa using he
    · refine .bind (fullAssignment_seals hr) fun e he => .given (.skip fun _ => .give ?_)
      simpa using he
  · exact .skip fun _ => .skip fun _ => .give (by simpa using helements)

theorem namedProperty_seals (start : Nat) (name : Text) (s : Span) :
    (r.namedProperty start name s).Seals := by
  unfold namedProperty
  refine .skip fun _ => .skip fun _ => .ite ?_ (.skip fun _ => ?_)
  · exact .bind (fullAssignment_seals hr) fun e he => .give (by simpa using he)
  · refine .ite (.give (by simp)) (.ite ?_ (.ite (.skip fun _ => ?_) .fail))
    · exact .skip fun key => objectMethod_seals r _ _ _ _ _
    · exact .skip fun key => objectMethod_seals r _ _ _ _ _

theorem objectProperty_seals : r.objectProperty.Seals := by
  unfold objectProperty
  refine .skip fun start => .skip fun _ => .ite ?_ (.skip fun _ => .ite ?_ ?_)
  · exact .bind (fullAssignment_seals hr) fun e he => .give (by simpa using he)
  · exact .skip fun key => objectMethod_seals r _ _ _ _ _
  · refine .skip fun _ => .bind (propertyKey_seals hr) fun key hkey => ?_
    rw [isSealed_key] at hkey
    refine .skip fun _ => .ite (.skip fun _ => .give (by simpa using hkey)) ?_
    refine .skip fun _ => .ite ?_ (.skip fun _ => .ite (objectMethod_seals r _ _ _ _ _) ?_)
    · exact .bind (fullAssignment_seals hr) fun e he => .give (by simpa using ⟨hkey, he⟩)
    · split
      · exact namedProperty_seals hr _ _ _
      · exact .fail

theorem objectLiteral_seals : r.objectLiteral.Seals := by
  refine .within _ (.skip fun start => .skip fun _ => ?_)
  refine .bind (many_seals ?_) fun props hprops => ?_
  · refine .skip fun _ => .ite (.give (by simp)) ?_
    exact .bind (objectProperty_seals hr) fun p hp => .skip fun _ => .give (by simpa using hp)
  · exact .skip fun _ => .skip fun _ => .give (by simpa using hprops)

theorem templateRest_seals (raw : Bool) : (r.templateRest raw).Seals := by
  refine .within _ (.skip fun _ => iterate_seals (by simp) fun x hx => ?_)
  obtain ⟨texts, holes⟩ := x
  have hholes : ∀ e ∈ holes, isSealed e := hx.2
  refine .skip fun _ => .skip fun _ => .ite ?_ ?_
  · exact .skip fun _ => .skip fun _ => .give (by simpa using hholes)
  · refine .skip fun _ => .skip fun _ => ?_
    refine .bind (fullExpression_seals hr) fun value hvalue => .skip fun _ => ?_
    exact .join (.give (by simpa [or_imp, forall_and] using ⟨hholes, hvalue⟩))

theorem templateLiteral_seals : r.templateLiteral.Seals := by
  unfold templateLiteral
  refine .skip fun start => .bind (templateRest_seals hr false) fun x hx => ?_
  exact .skip fun _ => .give (isSealed_template.2 hx.2)

end Literals

section Operators

variable {r : Rules} (hr : r.Seals)
include hr

theorem branches_seals {test : Expr} (h : isSealed test) (start : Nat) :
    (r.branches test start).Seals := by
  unfold branches
  refine .bind (.within _ hr.assignment) fun first hfirst => .skip fun _ => ?_
  refine .bind (.within _ hr.assignment) fun second hsecond => .give ?_
  simpa using ⟨h, hfirst, hsecond⟩

theorem binary_seals : r.binary.Seals := by
  unfold binary
  refine .bind (.rescue hr.unary fun offset => ?_) fun left hleft => ?_
  · exact .skip fun _ => .ite (.give (by simp [missing])) (.raise _)
  · exact .ite (.give hleft) (hr.operators 0 hleft)

theorem operatorStep_seals {left : Expr} (h : isSealed left) (tight : Nat) :
    (r.operatorStep tight left).Seals := by
  have hstop : isSealed (left, false) := ⟨h, trivial⟩
  unfold operatorStep
  refine .skip fun _ => .ite (.skip fun _ => .skip fun _ => .ite ?_ ?_) ?_
  · exact .skip fun _ => .skip fun _ => .give ⟨h, trivial⟩
  · refine .skip fun _ => .skip fun _ => .give ⟨?_, trivial⟩
    split
    · exact h
    · simpa using h
  · refine .skip fun _ => .skip fun power => ?_
    split
    · exact .give hstop
    · refine .ite (.give hstop) (.skip fun _ => .skip fun _ => .join ?_)
      refine .bind hr.unary fun inner hinner => ?_
      refine .bind (hr.operators _ hinner) fun right hright => .give ⟨?_, trivial⟩
      simpa using ⟨h, hright⟩

theorem operatorsRule_seals {left : Expr} (h : isSealed left) (tight : Nat) :
    (r.operatorsRule left tight).Seals :=
  iterate_seals h fun _ ha => operatorStep_seals hr ha tight

theorem await_seals : r.await.Seals := by
  unfold await
  refine .skip fun start => .skip fun _ => .skip fun _ => .join ?_
  refine .skip fun _ => .skip fun _ => .ite (.skip fun _ => .give rfl) ?_
  exact .bind hr.unary fun value hvalue => .skip fun _ => .give (by simpa using hvalue)

theorem assertion_seals : r.assertion.Seals := by
  unfold assertion
  refine .skip fun _ => .skip fun _ => .skip fun _ => .ite ?_ ?_
  · refine .skip fun _ => .bind hr.unary fun value hvalue => ?_
    exact .skip fun _ => .give hvalue
  · refine .skip fun _ => .skip fun _ => .bind hr.unary fun value hvalue => ?_
    exact .skip fun _ => .give (by simpa using hvalue)

theorem unaryRule_seals : r.unaryRule.Seals := by
  unfold unaryRule
  refine .skip fun t => .skip fun _ => .ite (assertion_seals hr) ?_
  refine .skip fun _ => .ite (.skip fun _ => ?_) (.skip fun _ => .ite ?_ ?_)
  · exact .bind hr.unary fun value hvalue => .give (by simpa using hvalue)
  · refine .skip fun _ => .skip fun start => .bind (.recover hr.unary) fun value? hvalue => ?_
    have hvalue : isSealed (value?.getD (missing (start - 1))) := by
      cases value? with
      | none => simp [missing]
      | some e => exact hvalue e rfl
    exact .join (.ite (.give hvalue) (.give (by simpa using hvalue)))
  · refine .ite (await_seals hr) (.bind hr.operand fun value hvalue => ?_)
    refine .skip fun _ => .ite (.give hvalue) (.skip fun _ => .ite ?_ (.give hvalue))
    exact .skip fun _ => .skip fun _ => .give (by simpa using hvalue)

theorem conditional_seals : r.conditional.Seals := by
  unfold conditional
  refine .skip fun start => .bind (binary_seals hr) fun test htest => ?_
  exact .ite (.give htest) (.skip fun _ => .ite (branches_seals hr htest start) (.give htest))

theorem assignmentRest_seals {left : Expr} (h : isSealed left) (start : Nat) :
    (r.assignmentRest start left).Seals := by
  unfold assignmentRest
  refine .skip fun _ => .skip fun _ => .skip fun _ => ?_
  split
  · refine .ite (.join (.join (.skip fun _ => ?_))) (.give h)
    refine .bind hr.assignment fun right hright => .skip fun _ => .give ?_
    simpa using ⟨h, hright⟩
  · exact .give h

theorem yielding_seals : r.yielding.Seals := by
  unfold yielding
  refine .skip fun start => .skip fun _ => .skip fun _ => .skip fun _ => ?_
  refine .ite (.skip fun _ => .give (by simp)) (.skip fun _ => ?_)
  exact .bind hr.assignment fun value hvalue => .skip fun _ => .give (by simpa using hvalue)

theorem genericArrow?_seals : (r.genericArrow? r.assignment).Seals := by
  refine .attempt (.skip fun _ => .skip fun _ => .bind hr.assignment fun value hvalue => ?_)
  split
  · exact .give (by simpa using hvalue)
  · exact .fail

theorem assignmentBase_seals : r.assignmentBase.Seals := by
  unfold assignmentBase
  refine .skip fun t => .skip fun _ => .ite (yielding_seals hr) ?_
  refine .skip fun _ => .skip fun _ => ?_
  refine .bind (conditional_seals hr) fun value hvalue => .ite (.give hvalue) ?_
  split
  · exact .give hvalue
  · exact .give hvalue
  · exact .give hvalue
  · exact .give hvalue
  · split
    · exact .give hvalue
    · exact assignmentRest_seals hr hvalue _

theorem assignmentRule_seals : r.assignmentRule.Seals := by
  unfold assignmentRule
  refine .skip fun _ => .skip fun _ => .ite ?_ (assignmentBase_seals hr)
  refine .bind (.within _ (genericArrow?_seals hr)) fun value hvalue => ?_
  cases value with
  | none => exact assignmentBase_seals hr
  | some e => exact .give (hvalue e rfl)

end Operators

section Arrows

theorem isSealed_of_value? {item : Item} {e : Expr} (h : isSealed item)
    (he : item.value? = some e) : isSealed e := by
  cases item with
  | value e' =>
    cases he
    simpa [Item.parts] using h
  | spread e' => cases he
  | parameter inside => cases he

theorem grouped_seals (start : Nat) {items : List Item} (h : isSealed items) :
    (grouped start items).Seals := by
  have hvalues : ∀ e ∈ items.filterMap Item.value?, isSealed e := by
    intro e he
    obtain ⟨item, hitem, he⟩ := List.mem_filterMap.1 he
    exact isSealed_of_value? (h item hitem) he
  unfold grouped
  refine .join (.skip fun _ => .skip fun _ => ?_)
  split
  · rename_i e heq
    rw [heq] at hvalues
    exact .give (by simpa using hvalues)
  · rename_i e more _ heq
    rw [heq] at hvalues
    exact .give (by simpa [heq] using hvalues)
  · exact .fail

theorem typedArrow?_seals (r : Rules) (start : Nat) (inAsync : Bool) (items : List Item) :
    (r.typedArrow? start inAsync items).Seals := by
  refine .attempt (.skip fun _ => .skip fun _ => .skip fun _ => .skip fun _ => ?_)
  exact .skip fun _ => .skip fun _ => .join (.skip fun _ => .give (by simp))

theorem conditionalArrow?_seals (r : Rules) (start : Nat) (inAsync : Bool) (items : List Item) :
    (r.conditionalArrow? start inAsync items).Seals := by
  unfold conditionalArrow?
  refine .skip fun _ => .skip fun _ => .ite ?_ (.give (by simp))
  exact typedArrow?_seals r start inAsync items

theorem nameArrow_seals (r : Rules) (start : Nat) (inAsync : Bool) :
    (r.nameArrow start inAsync).Seals := by
  unfold nameArrow
  exact .skip fun _ => .skip fun _ => .skip fun _ => .give (by simp)

theorem genericAsyncArrow_seals (r : Rules) (start : Nat) :
    (r.genericAsyncArrow start).Seals := by
  unfold genericAsyncArrow
  refine .skip fun _ => .skip fun _ => .skip fun _ => .skip fun _ => .skip fun _ => .join ?_
  exact .skip fun _ => .skip fun _ => .skip fun _ => .give (by simp)

variable {r : Rules} (hr : r.Seals)
include hr

theorem itemValue_seals : r.itemValue.Seals := by
  unfold itemValue
  refine .skip fun _ => .skip fun _ => .skip fun _ => .ite ?_ (.skip fun _ => ?_)
  · refine .skip fun _ => .ite ?_ ?_
    · exact .bind (binary_seals hr) fun e he => .give ⟨he, trivial⟩
    · refine .bind (binary_seals hr) fun e he => ?_
      exact .bind (assignmentRest_seals hr he _) fun e he => .give ⟨he, trivial⟩
  · exact .bind hr.assignment fun e he => .give ⟨he, trivial⟩

theorem itemBranches_seals {value : Expr} (h : isSealed value) (isTest : Bool) (start : Nat) :
    (r.itemBranches isTest value start).Seals := by
  unfold itemBranches
  exact .ite (.skip fun _ => branches_seals hr h start) (.give h)

theorem parenItem_seals : r.parenItem.Seals := by
  unfold parenItem
  refine .skip fun _ => .skip fun _ => .skip fun _ => .skip fun _ => ?_
  refine .bind (itemValue_seals hr) fun x hx => .skip fun _ => .skip fun _ => .join ?_
  refine .bind (itemBranches_seals hr hx.1 _ _) fun value hvalue => .skip fun _ => ?_
  have hitem : ∀ p ∈ [Part.expr value], isSealed p := by simpa using hvalue
  refine .ite (.skip fun _ => .skip fun _ => ?_) (.ite (.give hitem) (.give hitem))
  refine .bind (initialiser?_seals hr) fun given hgiven => .give ?_
  cases given with
  | none => simpa [Item.parts] using hvalue
  | some e => simpa [Item.parts] using ⟨hvalue, hgiven e rfl⟩

theorem parenItems_seals : r.parenItems.Seals := by
  refine .within _ (.skip fun _ => .bind (many_seals ?_) fun items h => .skip fun _ => .give h)
  refine .skip fun _ => .skip fun _ => .ite (.give (by simp)) ?_
  refine .bind (parenItem_seals hr) fun item hitem => .skip fun _ => .give ?_
  exact fun i hi => by cases hi; exact hitem

theorem arrowRest_seals (start : Nat) (inAsync : Bool) (params : List Part) :
    (r.arrowRest start inAsync params).Seals := by
  unfold arrowRest
  refine .skip fun x => .skip fun _ => .skip fun _ => .ite ?_ (.give (by simp))
  exact hr.operators 0 (by simp)

theorem parenthesised_seals (canBeArrow : Bool) (asyncStart : Option Nat) :
    (r.parenthesised canBeArrow asyncStart).Seals := by
  unfold parenthesised
  refine .skip fun start => .bind (parenItems_seals hr) fun items hitems => ?_
  refine .bind (conditionalArrow?_seals r _ _ _) fun value hvalue => ?_
  cases value with
  | some e => exact .give (hvalue e rfl)
  | none =>
    refine .skip fun _ => .skip fun _ => .ite (.skip fun _ => ?_) ?_
    · exact .join (.skip fun _ => .skip fun params => arrowRest_seals hr _ _ params)
    · cases asyncStart with
      | some _ =>
        refine .skip fun _ => .give (isSealed_compound.2 fun p hp => ?_)
        obtain ⟨item, hitem, hp⟩ := List.mem_flatMap.1 hp
        exact hitems item hitem p hp
      | none => exact grouped_seals _ hitems

end Arrows

section Primary

theorem function_seals (r : Rules) (inAsync named : Bool) :
    (r.function inAsync named).Seals := by
  unfold function
  -- whatever the parameters and the body declare, the function is a scope
  refine .skip fun _ => .skip fun _ => .skip fun _ => .join (.skip fun _ => .give ?_)
  exact isSealed_scope _

theorem classRest_seals (r : Rules) (named : Bool) : (r.classRest named).Seals :=
  .skip fun _ => .give (isSealed_scope _)

theorem inScope_sealed (decorators : List Part) : ∀ p ∈ inScope decorators, isSealed p := by
  unfold inScope
  split <;> simp

theorem genericAsync?_seals (r : Rules) (canBeArrow : Bool) (start : Nat) :
    (r.genericAsync? canBeArrow start).Seals := by
  unfold genericAsync?
  refine .skip fun _ => .ite ?_ (.give (by simp))
  exact .attempt (.skip fun _ => genericAsyncArrow_seals r start)

theorem namePrimary_seals (r : Rules) (canBeArrow : Bool) :
    (r.namePrimary canBeArrow).Seals := by
  unfold namePrimary
  refine .skip fun t => .skip fun name => .skip fun _ => .skip fun _ => ?_
  refine .ite (.skip fun _ => .skip fun _ => ?_) ?_
  · refine .ite (.give rfl) (.skip fun _ => .skip fun _ => ?_)
    exact .ite (.skip fun _ => .skip fun _ => .give rfl) (nameArrow_seals r _ _)
  · exact .ite (.join (nameArrow_seals r _ _)) (.give rfl)

variable {r : Rules} (hr : r.Seals)
include hr

theorem asyncPrimary?_seals (canBeArrow : Bool) : (r.asyncPrimary? canBeArrow).Seals := by
  unfold asyncPrimary?
  refine .skip fun start => .skip fun _ => .ite (.skip fun _ => ?_) ?_
  · refine .bind (function_seals r true false) fun part hpart => ?_
    exact .skip fun _ => .give (by simpa using hpart)
  · refine .bind (genericAsync?_seals r _ _) fun value hvalue => ?_
    cases value with
    | some e => exact .give hvalue
    | none =>
      refine .ite (.skip fun _ => ?_) (.give (by simp))
      refine .bind (parenthesised_seals hr _ _) fun e he => .give ?_
      exact fun _ h => by cases h; exact he

theorem wordPrimary_seals (name : Text) (canBeArrow : Bool) :
    (r.wordPrimary name canBeArrow).Seals := by
  unfold wordPrimary
  refine .skip fun t => .ite (.skip fun _ => .skip fun _ => .give rfl) ?_
  refine .ite (.skip fun _ => .skip fun _ => .give rfl) ?_
  refine .ite (.skip fun _ => .give (by simp)) (.ite ?_ (.ite ?_ ?_))
  · refine .bind (function_seals r false false) fun part hpart => ?_
    exact .skip fun _ => .give (by simpa using hpart)
  · refine .bind (classRest_seals r false) fun part hpart => ?_
    exact .skip fun _ => .give (by simpa using hpart)
  · refine .ite (.bind (asyncPrimary?_seals hr _) fun value hvalue => ?_) (.given ?_)
    · cases value with
      | some e => exact .give (hvalue e rfl)
      | none => exact .ite (namePrimary_seals r _) .fail
    · exact .ite (namePrimary_seals r _) .fail

theorem primary_seals : r.primary.Seals := by
  unfold primary
  refine .skip fun t => .skip fun _ => ?_
  dsimp only
  split
  · exact wordPrimary_seals hr _ _
  · exact .skip fun _ => .skip fun _ => .give rfl
  · exact .skip fun _ => .skip fun _ => .give rfl
  · exact .skip fun _ => .skip fun _ => .give rfl
  · refine .ite (parenthesised_seals hr _ _) (.ite (arrayLiteral_seals hr) ?_)
    refine .ite (objectLiteral_seals hr) (.ite (templateLiteral_seals hr) ?_)
    refine .ite (.skip fun _ => .skip fun _ => .skip fun _ => .skip fun _ => .give rfl) ?_
    refine .ite (.skip fun before => .skip fun start => ?_) (.ite ?_ .fail)
    · refine .bind (classRest_seals r false) fun part hpart => .skip fun _ => .give ?_
      simpa [or_imp, forall_and] using ⟨inScope_sealed before, hpart⟩
    · exact .skip fun _ => .skip fun _ => .skip fun _ => .give (by simp)
  · exact .fail

theorem taggedTemplate_seals {tag : Expr} (h : isSealed tag) (start : Nat) :
    (r.taggedTemplate start tag).Seals := by
  unfold taggedTemplate
  refine .bind (templateRest_seals hr true) fun x hx => .skip fun _ => .give ?_
  have hholes : ∀ e ∈ x.2, isSealed e := hx.2
  simpa using ⟨h, hholes⟩

theorem typedCall?_seals {callee : Expr} (h : isSealed callee) (start : Nat) (noCall : Bool) :
    (r.typedCall? start noCall callee).Seals := by
  unfold typedCall?
  refine .skip fun _ => .ite (.give (by simp)) (.attempt (.skip fun _ => ?_))
  refine .skip fun _ => .ite ?_ (.skip fun _ => .ite (taggedTemplate_seals hr h start) .fail)
  refine .bind (arguments_seals hr) fun given hgiven => .skip fun _ => .give ?_
  simpa using ⟨h, hgiven⟩

theorem memberStep_seals {base : Expr} (h : isSealed base) (start : Nat)
    (noCall optional : Bool) : (r.memberStep start noCall optional base).Seals := by
  unfold memberStep
  refine .skip fun _ => .ite (.skip fun _ => ?_) (.skip fun _ => .join ?_)
  · refine .bind (fullExpression_seals hr) fun index hindex => .skip fun _ => ?_
    exact .skip fun _ => .give (by simpa using ⟨h, hindex⟩)
  · refine .skip fun _ => .ite ?_ (.skip fun _ => .ite ?_ (.skip fun _ => .ite ?_ ?_))
    · refine .bind (arguments_seals hr) fun given hgiven => .skip fun _ => .give ?_
      simpa using ⟨h, hgiven⟩
    · exact .skip fun _ => .skip fun _ => .skip fun _ => .give (by simpa using h)
    · exact .bind (taggedTemplate_seals hr h start) fun e he => .give ⟨he, trivial⟩
    · exact .give ⟨h, trivial⟩

theorem subscript_seals {base : Expr} (h : isSealed base) (start : Nat) (noCall : Bool) :
    (r.subscript start noCall base).Seals := by
  unfold subscript
  refine .skip fun _ => .ite (.skip fun _ => .skip fun _ => .give (by simpa using h)) ?_
  refine .bind (typedCall?_seals hr h start noCall) fun value hvalue => ?_
  cases value with
  | some e => exact .give ⟨hvalue e rfl, trivial⟩
  | none => exact .skip fun _ => memberStep_seals hr h _ _ _

theorem subscripts_seals {base : Expr} (h : isSealed base) (noCall : Bool) :
    (r.subscripts noCall base).Seals :=
  iterate_seals h fun _ ha => subscript_seals hr ha _ _

theorem superMember_seals (noCall : Bool) : (r.superMember noCall).Seals := by
  unfold superMember
  refine .skip fun start => .skip fun _ => .skip fun _ => .ite ?_ (.ite ?_ (.ite ?_ .fail))
  · refine .skip fun _ => .bind (fullExpression_seals hr) fun index hindex => ?_
    exact .skip fun _ => .skip fun _ => subscripts_seals hr (by simpa using hindex) _
  · refine .skip fun _ => .skip fun _ => .skip fun _ => .skip fun _ => ?_
    exact subscripts_seals hr (by simp) _
  · refine .bind (arguments_seals hr) fun given hgiven => .skip fun _ => ?_
    exact subscripts_seals hr (by simpa using hgiven) _

theorem importMember_seals (noCall : Bool) : (r.importMember noCall).Seals := by
  unfold importMember
  refine .skip fun start => .skip fun _ => .skip fun _ => .ite ?_ (.skip fun _ => .ite ?_ .fail)
  · exact .skip fun _ => .skip fun _ => subscripts_seals hr (by simp) _
  · refine .bind (arguments_seals hr) fun given hgiven => .skip fun _ => ?_
    exact subscripts_seals hr (by simpa using hgiven) _

theorem creation_seals : r.creation.Seals := by
  unfold creation
  refine .skip fun start => .skip fun _ => .skip fun _ => .ite ?_ ?_
  · exact .skip fun _ => .skip fun _ => subscripts_seals hr (by simp) _
  · refine .bind hr.member fun callee hcallee => .ite (.give hcallee) ?_
    refine .join (.skip fun _ => .join (.skip fun _ => .ite ?_ ?_))
    · refine .bind (arguments_seals hr) fun given hgiven => .skip fun _ => ?_
      exact subscripts_seals hr (by simpa using ⟨hcallee, hgiven⟩) _
    · exact .skip fun _ => .give (by simpa using hcallee)

theorem memberRule_seals : r.memberRule.Seals := by
  unfold memberRule
  refine .skip fun t => .ite (creation_seals hr) (.ite (superMember_seals hr _) ?_)
  refine .ite (importMember_seals hr _) (.bind (primary_seals hr) fun base hbase => ?_)
  refine .ite (.give hbase) (.skip fun _ => .ite ?_ (.given (subscripts_seals hr hbase _)))
  exact .skip fun _ => .given (subscripts_seals hr (by simpa using hbase) _)

theorem wholeMarkup_seals : r.wholeMarkup.Seals :=
  .rescue hr.markup fun _ => .skip fun _ => .join (.raise _)

theorem operandRule_seals : r.operandRule.Seals := by
  unfold operandRule
  refine .skip fun t => .skip fun _ => .skip fun _ => .ite ?_ (.ite ?_ (.ite ?_ ?_))
  · refine .bind (wholeMarkup_seals hr) fun inside hinside => .skip fun _ => ?_
    exact .skip fun _ => .give (by simpa using hinside)
  · exact superMember_seals hr _
  · exact importMember_seals hr _
  · refine .bind hr.member fun callee hcallee => .ite (.give hcallee) ?_
    refine .skip fun typed => .skip fun _ => .ite (.join (.give hcallee)) ?_
    refine .skip fun _ => .ite ?_ (.ite .fail (.give hcallee))
    refine .bind (arguments_seals hr) fun given hgiven => .skip fun _ => ?_
    exact subscripts_seals hr (by simpa using ⟨hcallee, hgiven⟩) _

end Primary

section Markup

variable {r : Rules} (hr : r.Seals)
include hr

theorem container_seals : r.container.Seals := by
  unfold container
  refine .skip fun _ => .skip fun _ => .ite (.give (by simp)) (.skip fun _ => ?_)
  refine .bind (fullExpression_seals hr) fun value hvalue => .skip fun _ => .ite ?_ .fail
  exact .give fun e he => by cases he; exact hvalue

theorem attributeValue_seals : r.attributeValue.Seals := by
  unfold attributeValue
  refine .skip fun _ => .skip fun t => .ite ?_ (.ite ?_ (.ite ?_ .fail))
  · exact .skip fun _ => .give (by simp)
  · refine .bind (container_seals hr) fun value hvalue => ?_
    cases value with
    | none => exact .failAt _
    | some e => exact .skip fun _ => .give (by simpa using hvalue e rfl)
  · refine .bind hr.markup fun inside hinside => .skip fun _ => .give ?_
    simpa using hinside

theorem tagAttribute_seals : r.tagAttribute.Seals := by
  unfold tagAttribute
  refine .skip fun _ => .ite (.skip fun _ => ?_) (.skip fun _ => ?_)
  · refine .bind hr.assignment fun value hvalue => .skip fun _ => .give ?_
    simpa using hvalue
  · exact .skip fun _ => .ite (attributeValue_seals hr) (.give (by simp))

theorem attributes_seals : r.attributes.Seals := by
  unfold attributes
  refine .bind (many_seals ?_) fun all hall => .give ?_
  · refine .skip fun _ => .skip fun _ => .skip fun _ => .ite (.give (by simp)) ?_
    exact .bind (tagAttribute_seals hr) fun parts h => .give (by simpa using h)
  · simpa using fun p l hl hp => hall l hl p hp

theorem child_seals (name : Text) : (r.child name).Seals := by
  unfold child
  refine .skip fun t => .ite ?_ (.ite (.skip fun _ => .ite ?_ ?_) .fail)
  · refine .bind (container_seals hr) fun value hvalue => .give ⟨?_, trivial⟩
    cases value with
    | none => simp
    | some e => simpa using hvalue e rfl
  · refine .skip fun _ => .skip fun _ => .skip fun _ => .ite (.given ?_) (.skip fun _ => ?_)
    all_goals exact .skip fun _ => .join (.ite (.give (by simp)) (.failAt _))
  · exact .bind hr.markup fun inside hinside => .give ⟨hinside, trivial⟩

theorem children_seals (name : Text) : (r.children name).Seals := by
  refine iterate_seals (by simp) fun parts hparts => ?_
  refine .skip fun _ => .skip fun _ => .ite (.give ⟨hparts, trivial⟩) ?_
  refine .bind (child_seals hr name) fun x hx => .give ⟨?_, trivial⟩
  simpa [or_imp, forall_and] using ⟨hparts, hx.1⟩

theorem markupRule_seals : r.markupRule.Seals := by
  refine .within _ (.skip fun _ => .skip fun _ => .ite (children_seals hr _) ?_)
  refine .skip fun name => .skip fun _ => .join ?_
  refine .bind (attributes_seals hr) fun parts hparts => .skip fun _ => .ite ?_ ?_
  · exact .skip fun _ => .ite (.give hparts) .fail
  · refine .skip fun _ => .ite ?_ .fail
    refine .bind (children_seals hr name) fun more hmore => .give ?_
    simpa [or_imp, forall_and] using ⟨hparts, hmore⟩

end Markup

end Rules
end RoutePages.Script
