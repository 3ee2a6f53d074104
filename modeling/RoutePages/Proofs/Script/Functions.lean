import RoutePages.Proofs.Script.Nests
import RoutePages.Script.Grammar.Class

/-!
# Functions and classes are read as nested trees

One lemma for each rule of the grammar that reads a pattern, a function or a class or a part of
one, under the assumption that the rules it refers to read nested trees.
-/
namespace RoutePages.Script

open Nested
open Script.Parser (Nests)

/-- The mutually dependent rules read nested trees. -/
structure Rules.Nests (r : Rules) : Prop where
  assignment (lo hi : Nat) : r.assignment.Nests lo hi
  unary (lo hi : Nat) : r.unary.Nests lo hi
  operators {lo hi : Nat} {e : Expr} (tight : Nat) (he : between lo hi e) :
    (r.operators e tight).Nests lo hi
  member (lo hi : Nat) : r.member.Nests lo hi
  operand (lo hi : Nat) : r.operand.Nests lo hi
  markup (lo hi : Nat) : r.markup.Nests lo hi
  target (lo hi : Nat) : r.target.Nests lo hi
  statement (declarations : Bool) (lo hi : Nat) : (r.statement declarations).Nests lo hi
  item (top : Bool) (lo hi : Nat) : (r.item top).Nests lo hi

namespace Rules

theorem many_nests {α : Type} [Nested α] {r : Rules} {lo hi : Nat} {step : Parser (Option α)}
    (h : ∀ hi', hi ≤ hi' → step.Nests lo hi') : (r.many step).Nests lo hi := .many h _

theorem iterate_nests {α : Type} [Nested α] {r : Rules} {lo hi : Nat} {a : α}
    {step : α → Parser (α × Bool)} (ha : between lo hi a)
    (h : ∀ a hi', hi ≤ hi' → between lo hi' a → (step a).Nests lo hi') :
    (r.iterate step a).Nests lo hi := .iterate h _ ha

section Functions

variable {r : Rules} (hr : r.Nests) {lo hi : Nat}
include hr

theorem fullAssignment_nests : r.fullAssignment.Nests lo hi := .within _ (hr.assignment lo hi)

omit hr in
theorem between_sequence {first : Expr} {more : List Expr} {mid : Nat}
    (hfirst : between lo mid first) (hmore : ∀ e ∈ more, between mid hi e) (hle : mid ≤ hi) :
    between lo hi (Expr.compound .sequence ((first :: more).map .expr)
      ⟨first.start, (more.getLast?.getD first).stop⟩) := by
  have hparts : ∀ e ∈ first :: more, e.IsNested :=
    List.forall_mem_cons.2 ⟨hfirst.1, fun e he => (hmore e he).1⟩
  refine between_compound (by simpa using hparts) fun hb => ?_
  have hown := hfirst.2 (hb first (by simp))
  cases hlast : more.getLast? with
  | none => exact hown.mono (Nat.le_refl _) hle
  | some last =>
    have hmem := List.mem_of_getLast? hlast
    exact hown.join ((hmore last hmem).2 (hb last (by simp [hmem])))

theorem expression_nests : r.expression.Nests lo hi := by
  unfold expression
  refine .bind (hr.assignment lo hi) fun first hi _ hfirst => .skip fun _ hi hle => .ite ?_ ?_
  · have hfirst := mono hfirst (Nat.le_refl _) hle
    refine .bindBehind (many_nests fun hi _ => ?_) fun more hi hle hmore => .give ?_
    · refine .skip fun _ hi _ => .ite ?_ (.give (by simp))
      exact .bind (hr.assignment _ hi) fun e _ _ he => .give (by simpa using he)
    · exact between_sequence hfirst hmore hle
  · exact .give (mono hfirst (Nat.le_refl _) hle)

theorem fullExpression_nests : r.fullExpression.Nests lo hi := .within _ (expression_nests hr)

theorem initialiser?_nests : r.initialiser?.Nests lo hi := by
  unfold initialiser?
  refine .skip fun _ hi _ => .ite ?_ (.give (by simp))
  exact .bind (fullAssignment_nests hr) fun e _ _ he => .give (by simpa using he)

theorem bindingElement_nests : r.bindingElement.Nests lo hi := by
  unfold bindingElement
  refine .bind (hr.target lo hi) fun target hi _ htarget => ?_
  refine .bind (initialiser?_nests hr) fun value hi _ hvalue => ?_
  cases value with
  | none => exact .give ⟨htarget, trivial⟩
  | some e =>
    simp only [between_target, between_option, between_expr] at htarget hvalue
    exact .give (by simpa [or_imp, forall_and, (hvalue e rfl).1] using htarget)

theorem propertyKey_nests : r.propertyKey.Nests lo hi := by
  unfold propertyKey
  refine .token fun t ht => ?_
  split
  · exact .advance fun hspan => .give ⟨trivial, hspan⟩
  · exact .advance fun hspan => .give ⟨trivial, hspan⟩
  · exact .advance fun hspan => .give ⟨trivial, hspan⟩
  · exact .advance fun hspan => .give ⟨trivial, hspan⟩
  · refine .ite (.pass .advance fun _ hi _ hstart => ?_) (.of .fail)
    refine .bind (fullAssignment_nests hr) fun value hi _ hvalue => ?_
    refine .bind (many_nests fun hi _ => ?_) fun more hi _ hmore => ?_
    · refine .skip fun _ hi _ => .ite ?_ (.give (by simp))
      exact .bind (fullAssignment_nests hr) fun e _ _ he => .give (by simpa using he)
    · refine .skip fun _ hi _ => .spanFrom _ fun hi _ => .give ⟨?_, .upTo ht (by omega)⟩
      simp only [between_list, between_expr] at hvalue hmore
      simpa [Key.IsNested, hvalue.1] using fun e he => (hmore e he).1
  · exact .of .fail

theorem arrayPattern_nests : r.arrayPattern.Nests lo hi := by
  unfold arrayPattern
  refine .skip fun _ hi _ => .bind (many_nests fun hi _ => ?_) fun parts hi _ hparts => ?_
  · refine .skip fun _ hi _ => .skip fun _ hi _ => .ite (.give (by simp)) ?_
    refine .skip fun _ hi _ => .ite (.give (by simp)) (.skip fun _ hi _ => .ite ?_ ?_)
    · refine .bind (hr.target lo hi) fun t hi _ ht => .given (.skip fun _ _ _ => .give ?_)
      simpa using ht
    · refine .bind (bindingElement_nests hr) fun t hi _ ht => .given (.skip fun _ _ _ => .give ?_)
      simpa using ht
  · refine .skip fun _ hi _ => .skip fun _ hi _ => .give ?_
    simpa using fun p l hl hp => hparts l hl p hp

theorem patternProperty_nests : r.patternProperty.Nests lo hi := by
  unfold patternProperty
  refine .skip fun _ hi _ => .ite ?_ (.bind (propertyKey_nests hr) fun key hi _ hkey => ?_)
  · exact .bind (hr.target lo hi) fun t _ _ ht => .give (by simpa using ht)
  · refine .skip fun _ hi _ => .ite ?_ ?_
    · refine .bind (bindingElement_nests hr) fun t _ _ ht => .give ?_
      simpa [or_imp, forall_and, hkey.1] using ht
    · split
      · refine .bind (initialiser?_nests hr) fun value _ _ hvalue => ?_
        cases value with
        | none => exact .give (by simp)
        | some e => exact .give (by simpa using (hvalue e rfl).1)
      · exact .fail

theorem objectPattern_nests : r.objectPattern.Nests lo hi := by
  unfold objectPattern
  refine .skip fun _ hi _ => .bind (many_nests fun hi _ => ?_) fun parts hi _ hparts => ?_
  · refine .skip fun _ hi _ => .ite (.give (by simp)) ?_
    refine .bind (patternProperty_nests hr) fun inside hi _ hinside => ?_
    exact .skip fun _ _ _ => .give (by simpa using hinside)
  · refine .skip fun _ hi _ => .skip fun _ hi _ => .give ?_
    simpa using fun p l hl hp => hparts l hl p hp

theorem targetRule_nests : r.targetRule.Nests lo hi := by
  unfold targetRule
  refine .skip fun t hi _ => .ite ?_ (.ite ?_ (.ite ?_ .fail))
  · exact .skip fun name _ _ => .give (by simp)
  · exact .bind (arrayPattern_nests hr) fun inside _ _ h => .give (by simpa using h)
  · exact .bind (objectPattern_nests hr) fun inside _ _ h => .give (by simpa using h)

theorem arguments_nests : r.arguments.Nests lo hi := by
  refine .within _ (.skip fun _ hi _ => .bind (many_nests fun hi _ => ?_) fun parts hi _ h => ?_)
  · refine .skip fun _ hi _ => .skip fun _ hi _ => .ite (.give (by simp)) (.skip fun _ hi _ => ?_)
    refine .bind (fullAssignment_nests hr) fun e hi _ he => .skip fun _ _ _ => .give ?_
    simpa using he.1
  · exact .skip fun _ _ hle => .give h

theorem decorator_nests : r.decorator.Nests lo hi := by
  unfold decorator
  refine .skip fun _ hi _ => .skip fun _ hi _ => .ite ?_ ?_
  · refine .bind (expression_nests hr) fun e hi _ he => .skip fun _ hi _ => .given ?_
    refine .skip fun _ hi _ => .join fun hi _ => .skip fun _ hi _ => .ite ?_ (.give (by simpa using he.1))
    refine .bind (arguments_nests hr) fun given _ _ h => .give ?_
    simpa [or_imp, forall_and, he.1] using h
  · refine .skip fun _ hi _ => .skip fun _ hi _ => .given ?_
    refine .skip fun _ hi _ => .join fun hi _ => .skip fun _ hi _ => .ite ?_ (.give (by simp))
    exact .bind (arguments_nests hr) fun given _ _ h => .give (by simpa using h)

theorem decorators_nests (exports : Bool) : (r.decorators exports).Nests lo hi := by
  unfold decorators
  refine .bind (many_nests fun hi _ => ?_) fun all hi _ hall => .skip fun _ hi _ => ?_
  · refine .skip fun _ hi _ => .ite ?_ (.give (by simp))
    exact .bind (decorator_nests hr) fun parts _ _ h => .give (by simpa using h)
  · refine .join fun hi _ => .give ?_
    simpa using fun p l hl hp => hall l hl p hp

theorem blockRest_nests (top : Bool) : (r.blockRest top).Nests lo hi := by
  unfold blockRest
  refine .bind (many_nests fun hi _ => ?_) fun all hi _ hall => .skip fun _ hi _ => .give ?_
  · refine .skip fun _ hi _ => .skip fun _ hi _ => .skip fun _ hi _ => .ite (.give (by simp)) ?_
    exact .bind (hr.item top _ _) fun parts _ _ h => .give (by simpa using h)
  · simpa using fun p l hl hp => hall l hl p hp

theorem block_nests : r.block.Nests lo hi := .skip fun _ _ _ => blockRest_nests hr false

theorem functionBody_nests (inAsync inGenerator : Bool) :
    (r.functionBody inAsync inGenerator).Nests lo hi := by
  refine .within _ (.skip fun _ hi _ => .ite (.skip fun _ hi _ => .ite (.give (by simp)) ?_) ?_)
  · exact .within _ (block_nests hr)
  · exact .within _ (block_nests hr)

theorem parameter_nests (isProperty : Bool) : (r.parameter isProperty).Nests lo hi := by
  unfold parameter
  refine .skip fun _ hi _ => .skip fun start hi _ => ?_
  refine .bind (bindingElement_nests hr) fun x hi _ hx => .skip fun _ hi _ => ?_
  refine .ite (.ite (.skip fun _ hi _ => .skip fun _ hi _ => ?_) (.skip fun _ hi _ => ?_)) ?_
  all_goals
    refine .skip fun _ hi _ => .bind (initialiser?_nests hr) fun value hi _ hvalue => ?_
    simp only [between_prod, between_target, between_bool, and_true] at hx
    cases value with
    | none => exact .join fun hi _ => .give (by simpa using hx)
    | some e => exact .give (by simpa [or_imp, forall_and, (hvalue e rfl).1] using hx)

theorem restParameter_nests : r.restParameter.Nests lo hi := by
  unfold restParameter
  refine .bind (hr.target lo hi) fun target hi _ htarget => ?_
  refine .bind (initialiser?_nests hr) fun value hi _ hvalue => ?_
  refine .skip fun _ hi _ => .skip fun _ hi _ => .give ?_
  simp only [between_target] at htarget
  cases value with
  | none => simpa using htarget
  | some e => simpa [or_imp, forall_and, (hvalue e rfl).1] using htarget

omit hr in
theorem parameterList_nests {decorators : Parser (List Part)} {last one : Parser (List Part × Bool)}
    (h : ∀ lo hi, decorators.Nests lo hi) (hlast : ∀ lo hi, last.Nests lo hi)
    (hone : ∀ lo hi, one.Nests lo hi) : (r.parameterList decorators last one).Nests lo hi := by
  unfold parameterList
  refine .bind (many_nests fun hi _ => ?_) fun all hi _ hall => .give ?_
  · refine .skip fun _ hi _ => .skip fun _ hi _ => .ite (.give (by simp)) ?_
    refine .bind (h lo hi) fun before hi _ hbefore => .skip fun _ hi _ => .ite ?_ ?_
    · refine .bind (hlast lo hi) fun x hi _ hx => .skip fun _ _ _ => .give ?_
      simpa [or_imp, forall_and] using ⟨hbefore, hx.1⟩
    · refine .bind (hone lo hi) fun x hi _ hx => .skip fun _ _ _ => .give ?_
      simpa [or_imp, forall_and] using ⟨hbefore, hx.1⟩
  · simp only [between_prod, between_list, between_bool, and_true, List.mem_flatMap]
    rintro p ⟨x, hx, hp⟩
    exact (hall x hx).1 p hp

theorem parameters_nests {decorators : Parser (List Part)}
    (h : ∀ lo hi, decorators.Nests lo hi) : (r.parameters decorators).Nests lo hi :=
  parameterList_nests h (fun _ _ => restParameter_nests hr) fun _ _ => parameter_nests hr false

theorem functionRest_nests (inAsync inGenerator : Bool) :
    (r.functionRest inAsync inGenerator).Nests lo hi := by
  unfold functionRest
  refine .skip fun _ hi _ => .skip fun _ hi _ => ?_
  refine .bind (.within _ (parameters_nests hr fun lo hi => decorators_nests hr false)) ?_
  intro x hi _ hx
  refine .skip fun _ hi _ => .skip fun _ hi _ => .join fun hi _ => ?_
  refine .bind (functionBody_nests hr inAsync inGenerator) fun body hi _ hbody => .give ?_
  simpa [or_imp, forall_and] using ⟨hx.1, hbody⟩

end Functions

theorem inScope_nested {decorators : List Part} (h : ∀ p ∈ decorators, p.IsNested) :
    ∀ p ∈ inScope decorators, p.IsNested := by
  unfold inScope
  split
  · exact nofun
  · simpa using h

section Classes

theorem function_moves (r : Rules) (inAsync named : Bool) : (r.function inAsync named).Moves :=
  .first (.expectWord _)

theorem classRest_moves (r : Rules) (named : Bool) : (r.classRest named).Moves :=
  .first (.first (.expectWord _))

variable {r : Rules} (hr : r.Nests) {lo hi : Nat}
include hr

theorem function_nests (inAsync named : Bool) : (r.function inAsync named).Nests lo hi := by
  unfold function
  refine .skip fun _ hi _ => .skip fun _ hi _ => .skip fun _ hi _ => .join fun hi _ => ?_
  refine .bind (functionRest_nests hr _ _) fun inside _ _ h => .give ?_
  simpa using h

theorem arrowBody_nests (inAsync : Bool) : (r.arrowBody inAsync).Nests lo hi := by
  refine .within _ (.skip fun _ hi _ => .ite ?_ ?_)
  · exact .bind (.within _ (block_nests hr)) fun body _ _ h => .give ⟨h, trivial⟩
  · refine .bind (hr.assignment lo hi) fun value _ _ h => .give ⟨?_, trivial⟩
    simpa using h.1

theorem constructorParameters_nests {decorators : Parser (List Part)}
    (h : ∀ lo hi, decorators.Nests lo hi) : (r.constructorParameters decorators).Nests lo hi := by
  refine parameterList_nests h (fun lo hi => ?_) fun lo hi => ?_
  · refine .bind (hr.target lo hi) fun target hi _ htarget => .skip fun _ hi _ => .give ?_
    exact ⟨by simpa using htarget, trivial⟩
  · exact .skip fun _ hi _ => .skip fun _ hi _ => .skip fun _ hi _ => parameter_nests hr _

theorem constructorRest_nests : r.constructorRest.Nests lo hi := by
  unfold constructorRest
  refine .skip fun _ hi _ => .skip fun _ hi _ => ?_
  refine .bind (constructorParameters_nests hr fun lo hi => decorators_nests hr false) ?_
  intro x hi _ hx
  refine .skip fun _ hi _ => .skip fun _ hi _ => ?_
  refine .bind (functionBody_nests hr false false) fun body hi _ hbody => .give ?_
  simpa [or_imp, forall_and] using ⟨hx.1, hbody⟩

theorem classProperty_nests {key : Key} (h : key.IsNested) (isPrivate optional : Bool) :
    (r.classProperty key isPrivate optional).Nests lo hi := by
  unfold classProperty
  refine .join fun hi _ => .join fun hi _ => .skip fun _ hi _ => ?_
  refine .bind (initialiser?_nests hr) fun value hi _ hvalue => .skip fun _ hi _ => .give ?_
  cases value with
  | none => simpa using h
  | some e => simpa [or_imp, forall_and, h] using (hvalue e rfl).1

theorem classMethod_nests {key : Key} (h : key.IsNested) (inAsync inGenerator : Bool) :
    (r.classMethod key inAsync inGenerator).Nests lo hi := by
  unfold classMethod
  refine .bind (functionRest_nests hr _ _) fun inside hi _ hinside => .give ?_
  simpa [or_imp, forall_and, h] using hinside

theorem modifierMember?_nests (name : Text) (lenient : Bool) :
    (r.modifierMember? name lenient).Nests lo hi := by
  have hkey : (Key.name name ⟨0, 0⟩).IsNested := trivial
  unfold modifierMember?
  refine .skip fun _ hi _ => .ite ?_ (.skip fun _ hi _ => .skip fun _ hi _ => .ite ?_ (.give nofun))
  · exact .bind (classMethod_nests hr hkey _ _) fun parts _ _ h => .give fun _ hp => by cases hp; exact h
  · refine .skip fun _ hi _ => .skip fun _ hi _ => .ite ?_ ?_
    · exact .bind (classMethod_nests hr hkey _ _) fun parts _ _ h => .give fun _ hp => by cases hp; exact h
    · exact .bind (classProperty_nests hr hkey _ _) fun parts _ _ h => .give fun _ hp => by cases hp; exact h

theorem memberKey_nests : r.memberKey.Nests lo hi := by
  unfold memberKey
  refine .hereFrom fun start _ => .skip fun _ hi _ => .ite (.pass .anyWord fun name hi _ hstart => ?_) ?_
  · exact .spanFrom _ fun hi _ => .give ⟨⟨trivial, .upTo (Nat.le_refl _) (by omega)⟩, trivial⟩
  · exact .bind (propertyKey_nests hr) fun key _ _ hkey => .give ⟨hkey, trivial⟩

theorem plainMember_nests (isStatic : Bool) : (r.plainMember isStatic).Nests lo hi := by
  have hword : ∀ (name : Text) (m : Mode) (c : Cursor) (x : Key × Bool) (d : Cursor), c.Ordered →
      (pure (Key.name name ⟨0, 0⟩, false) : Parser (Key × Bool)).run m c = .done x d →
        x.1.IsNested := by
    intro name m c x d _ h
    cases h
    trivial
  have hkey : ∀ (m : Mode) (c : Cursor) (x : Key × Bool) (d : Cursor), c.Ordered →
      r.memberKey.run m c = .done x d → x.1.IsNested := fun m c x d hc h =>
    (memberKey_nests hr m c x d hc (Nat.zero_le _) (Nat.zero_le _) h).1.1
  unfold plainMember
  refine .skip fun modifiers hi _ => .skip fun _ hi _ => .early (fun hi _ => ?_) fun hrest => ?_
  · refine .skip fun _ hi _ => .ite (block_nests hr) (.skip fun _ hi _ => .skip fun _ hi _ => ?_)
    refine .ite (.skip fun _ hi _ => block_nests hr) (.skip fun _ hi _ => .ite (.give nofun) ?_)
    refine .skip fun _ hi _ => .ite (.bindOwn hkey fun x hi _ hx => ?_) (.skip fun _ hi _ => ?_)
    · exact classMethod_nests hr hx _ _
    refine .fork (hword _) hkey fun x hi _ hx => .skip fun _ hi _ => .skip fun _ hi _ => .ite ?_ ?_
    · exact .ite (constructorRest_nests hr) (classMethod_nests hr hx _ _)
    refine .skip fun t hi _ => .skip fun _ hi _ => .ite (classProperty_nests hr hx _ _) (.ite ?_ ?_)
    · refine .skip fun _ hi _ => .skip fun _ hi _ => .bindOwn hkey fun x hi _ hx => ?_
      exact .join fun hi _ => .skip fun _ hi _ => classMethod_nests hr hx _ _
    · exact .ite (.bindOwn hkey fun x hi _ hx => classMethod_nests hr hx _ _) .fail
  · refine .bind (modifierMember?_nests hr _ _) fun parts hi hle hparts => ?_
    cases parts with
    | some parts => exact .give (hparts parts rfl)
    | none => exact hrest hi hle

theorem classMember_nests : r.classMember.Nests lo hi := by
  unfold classMember
  refine .bind (decorators_nests hr false) fun before hi _ hbefore => .skip fun _ hi _ => ?_
  refine .early (fun hi _ => .skip fun _ hi _ => .skip fun _ hi _ => .skip fun isStatic hi _ => ?_) ?_
  · refine .early (fun hi _ => .bind (plainMember_nests hr _) fun parts hi _ hparts => .give ?_) ?_
    · simpa [or_imp, forall_and] using ⟨hbefore, hparts⟩
    · refine fun hrest => .bind (modifierMember?_nests hr _ _) fun parts hi hle hparts => ?_
      cases parts with
      | some parts => exact .give (by simpa [or_imp, forall_and] using ⟨hbefore, hparts parts rfl⟩)
      | none => exact hrest hi hle
  · refine fun hrest => .bind (modifierMember?_nests hr _ _) fun parts hi hle hparts => ?_
    cases parts with
    | some parts => exact .give (by simpa [or_imp, forall_and] using ⟨hbefore, hparts parts rfl⟩)
    | none => exact hrest hi hle

theorem classParts_nests (named : Bool) : (r.classParts named).Nests lo hi := by
  unfold classParts
  refine .skip fun _ hi _ => .skip fun _ hi _ => .join fun hi _ => .skip fun _ hi _ => ?_
  refine .skip fun _ hi _ => .ite (.bind ?_ fun parts hi _ hparts => .skip fun _ hi _ => .join
    fun hi _ => .bind (.give hparts) fun above hi _ habove => ?_)
    (.bind (.give (List.forall_mem_nil _)) fun above hi _ habove => ?_)
  · refine .bind (hr.operand lo hi) fun value hi _ hvalue => .skip fun _ hi _ => .join fun hi _ => ?_
    exact .give (by simpa using hvalue.1)
  -- with a superclass or without one the class goes on in the same way
  all_goals
    refine .skip fun _ hi _ => .join fun hi _ => .skip fun _ hi _ => .join fun hi _ => ?_
    refine .skip fun _ hi _ => .join fun hi _ => .skip fun _ hi _ => .join fun hi _ => ?_
    refine .skip fun _ hi _ => .bind (many_nests fun hi _ => ?_) fun body hi _ hbody => ?_
    · refine .skip fun _ hi _ => .skip fun _ hi _ => .skip fun _ hi _ => .ite (.give nofun) ?_
      refine .skip fun _ hi _ => .ite (.give (by simp)) ?_
      refine .bind (.within _ (classMember_nests hr)) fun parts _ _ hparts => .give ?_
      simpa using hparts
    · refine .skip fun _ hi _ => .give (List.forall_mem_append.2 ⟨fun p hp => ?_, habove⟩)
      obtain ⟨parts, hparts, hp⟩ := List.mem_flatten.1 hp
      exact hbody parts hparts p hp

theorem classRest_nests (named : Bool) : (r.classRest named).Nests lo hi :=
  .bind (classParts_nests hr named) fun parts _ _ h => .give (by simpa using h)

end Classes

end Rules
end RoutePages.Script
