import RoutePages.Proofs.Script.Functions
import RoutePages.Proofs.Script.Gives
import RoutePages.Script.Grammar.Markup

/-!
# Expressions are read as nested trees

One lemma for each rule of the grammar that reads an expression or a part of one, under
the assumption that the rules it refers to read nested trees.
-/
namespace RoutePages.Script

open Nested
open Script.Parser (Nests)

namespace Rules

section Literals

variable {r : Rules} (hr : r.Nests) {lo hi : Nat}
include hr

theorem arrayLiteral_nests : r.arrayLiteral.Nests lo hi := by
  unfold arrayLiteral
  refine .here_advance fun start hi hlo hstart => ?_
  refine .manyChained (fun lo hi => ?_) fun elements hi helements => ?_
  · refine .skip fun _ hi _ => .skip fun _ hi _ => .ite (.give (by simp)) ?_
    refine .skip fun _ hi _ => .ite (.give (by simp)) (.skip fun _ hi _ => .ite ?_ ?_)
    · refine .bind (fullAssignment_nests hr) fun e hi _ he => .given (.skip fun _ _ _ => .give ?_)
      simpa using he.1
    · refine .bind (fullAssignment_nests hr) fun e hi _ he => .given (.skip fun _ _ hle => .give ?_)
      simpa using ⟨he.1, he.2.mono (Nat.le_refl _) hle⟩
  · have hall := helements.mono hstart (Nat.le_refl _)
    have hend := hall.le
    refine .skip fun _ hi hle => .spanFrom _ fun hi' hle' => .give ⟨?_, fun _ => .upTo hlo (by omega)⟩
    rw [Expr.IsNested, Element.allNested_iff]
    exact hall.mono (Nat.le_refl _) (Nat.le_trans hle hle')

theorem objectMethod_nests {key : Key} (hkey : key.IsNested) {start : Nat} (hlo : lo ≤ start)
    (hstart : start ≤ hi) (isScope inAsync inGenerator : Bool) :
    (r.objectMethod start key isScope inAsync inGenerator).Nests lo hi := by
  unfold objectMethod
  refine .bind (functionRest_nests hr inAsync inGenerator) fun inside hi _ hinside => ?_
  refine .spanFrom _ fun hi _ => .give (Property.isNested_method.2 ⟨?_, .upTo hlo (by omega)⟩)
  cases isScope with
  | true => simpa [or_imp, forall_and, hkey] using hinside
  | false => simpa [or_imp, forall_and, hkey] using hinside

theorem namedProperty_nests {s : Span} (hs : s.Between lo hi) {start : Nat} (hlo : lo ≤ start)
    (hstart : start ≤ hi) (name : Text) : (r.namedProperty start name s).Nests lo hi := by
  unfold namedProperty
  refine .skip fun _ hi _ => .skip fun _ hi _ => .ite ?_ (.skip fun _ hi _ => ?_)
  · refine .bindBehind (fullAssignment_nests hr) fun e hi' _ he => .give ?_
    have hname : s.Between lo hi := hs.mono (Nat.le_refl _) (by omega)
    exact Property.isNested_default.2 ⟨he.1, fun hb => hname.join (he.2 hb)⟩
  · have hshorthand : s.Between lo hi := hs.mono (Nat.le_refl _) (by omega)
    refine .ite (.give (by simpa using hshorthand)) (.ite ?_ (.ite (.skip fun _ hi _ => ?_) .fail))
    · exact .bind (propertyKey_nests hr) fun key hi _ hkey =>
        objectMethod_nests hr hkey.1 hlo (by omega) _ _ _
    · exact .bind (propertyKey_nests hr) fun key hi _ hkey =>
        objectMethod_nests hr hkey.1 hlo (by omega) _ _ _

theorem objectProperty_nests : r.objectProperty.Nests lo hi := by
  unfold objectProperty
  refine .hereFrom fun start _ => .skip fun _ hi _ => .ite ?_ (.skip fun _ hi _ => .ite ?_ ?_)
  · exact .bind (fullAssignment_nests hr) fun e _ _ he => .give (by simpa using he.1)
  · exact .bind (propertyKey_nests hr) fun key hi _ hkey =>
      objectMethod_nests hr hkey.1 (Nat.le_refl _) hkey.2.le _ _ _
  · refine .skip fun _ hi _ => .bind (propertyKey_nests hr) fun key hi _ hkey => ?_
    have hstart : start ≤ hi := hkey.2.le
    have hkey := fun hi' (hle : hi ≤ hi') => mono (a := key) hkey (Nat.le_refl _) hle
    refine .skip fun _ hi _ => .ite (.spanFrom _ fun hi _ => .give ?_) ?_
    · have hvalue : between start hi (Expr.compound .other [] ⟨start, hi⟩) :=
        between_compound (by simp) fun _ => .upTo (Nat.le_refl _) (by omega)
      exact Property.isNested_field.2 ⟨hkey hi (by omega), hvalue.1, hvalue.2, nofun⟩
    refine .skip fun _ hi _ => .ite ?_ (.skip fun _ hi _ => .ite ?_ ?_)
    · refine .bindBehind (fullAssignment_nests hr) fun e hi' _ he => .give ?_
      have hown := hkey hi (by omega)
      have hinside := he.2.mono (Nat.le_trans hown.2.le (Nat.le_refl _)) (Nat.le_refl hi')
      have hbehind := he.2.mono hown.2.stop (Nat.le_refl hi')
      exact Property.isNested_field.2 ⟨hkey hi' (by omega), he.1, hinside, fun _ => hbehind⟩
    · exact objectMethod_nests hr (hkey hi (by omega)).1 (Nat.le_refl _) (by omega) _ _ _
    · split
      · exact namedProperty_nests hr (hkey hi (by omega)).2 (Nat.le_refl _) (by omega) _
      · exact .fail

theorem objectLiteral_nests : r.objectLiteral.Nests lo hi := by
  refine .within _ (.here_advance fun start hi hlo hstart => ?_)
  refine .manyChained (fun lo hi => ?_) fun props hi hprops => ?_
  · refine .skip fun _ hi _ => .ite (.give (by simp)) ?_
    refine .bind (objectProperty_nests hr) fun p hi _ hp => .skip fun _ hi hle => .give ?_
    exact fun q hq => by cases hq; exact mono hp (Nat.le_refl _) hle
  · have hall := hprops.mono hstart (Nat.le_refl _)
    have hend := hall.le
    refine .skip fun _ hi hle => .spanFrom _ fun hi' hle' => .give ⟨?_, fun _ => .upTo hlo (by omega)⟩
    rw [Expr.IsNested, Property.allNested_iff]
    exact hall.mono (Nat.le_refl _) (Nat.le_trans hle hle')

theorem templateRest_nests (raw : Bool) : (r.templateRest raw).Nests lo hi := by
  refine .within _ (.skip fun _ hi _ => iterate_nests (by simp) fun x hi _ hx => ?_)
  obtain ⟨texts, holes⟩ := x
  refine .skip fun _ hi _ => .skip fun _ hi _ => .ite ?_ ?_
  · refine .skip fun _ hi _ => .skip fun _ hi _ => .give ?_
    simpa using mono hx.2 (Nat.le_refl _) (by omega)
  · refine .skip fun _ hi _ => .skip fun _ hi _ => ?_
    refine .bind (fullExpression_nests hr) fun value hi _ hvalue => .skip fun _ hi _ => ?_
    refine .join fun hi _ => .give ⟨⟨by simp, fun e he => ?_⟩, trivial⟩
    rcases List.mem_append.1 he with he | he
    · exact mono (hx.2 e he) (Nat.le_refl _) (by omega)
    · rw [List.mem_singleton.1 he]
      exact mono hvalue (Nat.le_refl _) (by omega)

omit hr in
theorem templateRest_moves (raw : Bool) : (r.templateRest raw).Moves := by
  refine .within _ (.andThen fun _ => .iterate (fun x => ?_) _ _)
  obtain ⟨texts, holes⟩ := x
  refine .andThen fun _ => .andThen fun _ => .ite ?_ ?_
  · exact .first (.moveTo _)
  · exact .first (.moveTo _)

theorem templateLiteral_nests : r.templateLiteral.Nests lo hi := by
  refine .here_bind (templateRest_moves false) (fun _ => templateRest_nests hr false) ?_
  intro start x hi hlo hstart _ hx
  refine .spanFrom _ fun hi _ => .give ⟨?_, fun _ => .upTo hlo (by omega)⟩
  rw [Expr.IsNested, Expr.allNested_iff]
  exact fun e he => (hx.2 e he).1

end Literals

section Operators

variable {r : Rules} (hr : r.Nests) {lo hi : Nat}
include hr

theorem branches_nests {test : Expr} (h : test.IsNested) : (r.branches test lo).Nests lo hi := by
  unfold branches
  refine .bind (.within _ (hr.assignment lo hi)) fun first hi _ hfirst => .skip fun _ hi _ => ?_
  refine .bind (.within _ (hr.assignment lo hi)) fun second hi _ hsecond => .give ?_
  refine between_compound (by simpa using ⟨h, hfirst.1, hsecond.1⟩) fun hb => ?_
  exact (hsecond.2 (hb second (by simp))).back

omit hr in
theorem between_missing (offset : Nat) : between lo hi (missing offset) :=
  ⟨by simp [missing], by simp [Expr.Between, Expr.isBounded, Expr.isMissing, missing]⟩

theorem binary_nests : r.binary.Nests lo hi := by
  unfold binary
  refine .bind (.rescue (hr.unary lo hi) fun offset => ?_) fun left hi _ hleft => ?_
  · exact .skip fun _ hi _ => .ite (.give (between_missing offset)) (.raise _)
  · exact .ite (.give hleft) (hr.operators 0 hleft)

theorem operatorStep_nests {left : Expr} (h : between lo hi left) (tight : Nat) :
    (r.operatorStep tight left).Nests lo hi := by
  have hleft := fun hi' (hle : hi ≤ hi') => mono (a := left) h (Nat.le_refl _) hle
  have hasserted := fun hi' (hle : hi ≤ hi') (hb : left.isBounded = true) =>
    ((hleft hi' hle).2 hb).extend
  have hinside : ∀ hi', hi ≤ hi' → left.Inside left.start hi' := fun hi' hle hb =>
    ⟨Nat.le_refl _, ((hleft hi' hle).2 hb).stop⟩
  unfold operatorStep
  refine .skip fun _ hi _ => .ite (.skip fun _ hi _ => .skip fun _ hi _ => .ite ?_ ?_) ?_
  · refine .skip fun _ hi _ => .spanFrom _ fun hi _ => .give ⟨⟨?_, hasserted hi (by omega)⟩, trivial⟩
    exact Expr.isNested_asConst.2 ⟨h.1, hinside hi (by omega)⟩
  · refine .skip fun _ hi _ => .spanFrom _ fun hi _ => .give ⟨?_, trivial⟩
    split
    · exact ⟨Expr.isNested_asType.2 ⟨h.1, hinside hi (by omega)⟩, hasserted hi (by omega)⟩
    · exact between_behind h (by simpa using h.1) (by simp) (by omega)
  · refine .skip fun _ hi _ => .skip fun power hi _ => ?_
    split
    · exact .give ⟨hleft _ (by omega), trivial⟩
    · refine .ite (.give ⟨hleft _ (by omega), trivial⟩) ?_
      refine .skip fun _ hi _ => .skip fun _ hi _ => .join fun mid _ => ?_
      refine .bindBehind (hr.unary mid mid) fun inner hi hle hinner => ?_
      refine .bindFrom hle (hr.operators _ hinner) fun right hi _ hright => .give ⟨?_, trivial⟩
      refine between_compound (by simpa using ⟨h.1, hright.1⟩) fun hb => ?_
      have hbehind := hright.2 (hb right (by simp))
      exact ((hleft mid (by omega)).2 (hb left (by simp))).join hbehind

theorem operatorsRule_nests {left : Expr} (h : between lo hi left) (tight : Nat) :
    (r.operatorsRule left tight).Nests lo hi :=
  iterate_nests h fun _ _ _ ha => operatorStep_nests hr ha tight

theorem await_nests : r.await.Nests lo hi := by
  unfold await
  refine .here_advance fun start hi hlo hstart => .skip fun _ hi _ => .join fun hi _ => ?_
  refine .skip fun _ hi _ => .skip fun _ hi _ => .ite (.spanFrom _ fun hi _ => .give ?_) ?_
  · exact ⟨trivial, fun _ => .upTo hlo (by omega)⟩
  · refine .bind (hr.unary lo hi) fun value hi _ hvalue => .spanFrom _ fun hi _ => .give ?_
    exact between_compound (by simpa using hvalue.1) fun _ => .upTo hlo (by omega)

theorem assertion_nests : r.assertion.Nests lo hi := by
  unfold assertion
  refine .hereFrom fun start _ => .pass .advance fun _ hi _ hstart => .skip fun _ hi _ => ?_
  refine .ite (.skip fun _ hi _ => ?_) (.skip fun _ hi _ => .skip fun _ hi _ => ?_)
  · refine .bind (hr.unary start hi) fun value hi _ hvalue => .spanFrom _ fun hi hle => .give ?_
    have hvalue := mono (a := value) hvalue (Nat.le_refl _) hle
    exact ⟨Expr.isNested_asConst.2 ⟨hvalue.1, hvalue.2.inside⟩,
      fun _ => .upTo (Nat.le_refl _) (by omega)⟩
  · refine .bind (hr.unary start hi) fun value hi _ hvalue => .spanFrom _ fun hi _ => .give ?_
    exact between_compound (by simpa using hvalue.1) fun _ => .upTo (Nat.le_refl _) (by omega)

theorem unaryRule_nests : r.unaryRule.Nests lo hi := by
  unfold unaryRule
  refine .tokenFrom fun t _ => .skip fun _ hi _ => .ite (assertion_nests hr) ?_
  refine .skip fun _ hi _ => .ite (.skip fun _ hi _ => ?_) (.skip fun _ hi _ => .ite ?_ ?_)
  · refine .bind (hr.unary _ hi) fun value hi _ hvalue => .give ?_
    refine between_compound (by simpa using hvalue.1) fun hb => ?_
    exact (hvalue.2 (hb value (by simp))).back
  · refine .skip fun _ hi _ => .skip fun start hi _ => ?_
    refine .bind (.recover (hr.unary _ hi)) fun value? hi _ hvalue => ?_
    have hvalue : between t.start.pos hi (value?.getD (missing (start - 1))) := by
      cases value? with
      | none => exact between_missing _
      | some e => exact hvalue e rfl
    refine .join fun hi hle => ?_
    have hvalue := mono hvalue (Nat.le_refl _) hle
    refine .ite (.give ⟨?_, fun hb => (hvalue.2 hb).back⟩) (.give ?_)
    · rw [Expr.IsNested]
      exact hvalue.1
    · refine between_compound (by simpa using hvalue.1) fun hb => ?_
      exact (hvalue.2 (hb _ (by simp))).back
  · refine .ite (await_nests hr) (.bind (hr.operand _ hi) fun value hi _ hvalue => ?_)
    refine .skip fun _ hi _ => .ite (.give (mono hvalue (Nat.le_refl _) (by omega))) ?_
    refine .skip fun _ hi _ => .ite ?_ (.give (mono hvalue (Nat.le_refl _) (by omega)))
    refine .skip fun _ hi _ => .spanFrom _ fun hi _ => .give ?_
    exact between_behind hvalue (by simpa using hvalue.1) (by simp) (by omega)

theorem conditional_nests : r.conditional.Nests lo hi := by
  unfold conditional
  refine .hereFrom fun start _ => .bind (binary_nests hr) fun test hi _ htest => ?_
  refine .ite (.give htest) (.skip fun _ hi _ => .ite (branches_nests hr htest.1) ?_)
  exact .give (mono htest (Nat.le_refl _) (by omega))

theorem assignmentRest_nests {left : Expr} (h : between lo hi left) :
    (r.assignmentRest lo left).Nests lo hi := by
  have hleft := fun hi' (hle : hi ≤ hi') => mono (a := left) h (Nat.le_refl _) hle
  unfold assignmentRest
  refine .skip fun _ hi _ => .skip fun _ hi _ => .skip fun _ hi _ => ?_
  split
  · refine .ite (.join fun hi _ => .join fun hi _ => .skip fun _ hi _ => ?_) ?_
    · refine .bind (hr.assignment lo hi) fun right hi _ hright => .spanFrom _ fun hi hle => .give ?_
      refine between_compound (by simpa using ⟨h.1, hright.1⟩) fun hb => ?_
      have hown := hright.2 (hb right (by simp))
      exact .upTo (Nat.le_refl _) (Nat.le_trans hown.le hle)
    · exact .give (hleft _ (by omega))
  · exact .give (hleft _ (by omega))

theorem yielding_nests : r.yielding.Nests lo hi := by
  unfold yielding
  refine .here_advance fun start hi hlo hstart => .skip fun _ hi _ => .skip fun _ hi _ => ?_
  refine .ite (.spanFrom _ fun hi _ => .give ?_) (.skip fun _ hi _ => ?_)
  · exact between_compound (by simp) fun _ => .upTo hlo (by omega)
  · refine .bind (hr.assignment lo hi) fun value hi _ hvalue => .spanFrom _ fun hi _ => .give ?_
    exact between_compound (by simpa using hvalue.1) fun _ => .upTo hlo (by omega)

theorem genericArrow?_nests : (r.genericArrow? r.assignment).Nests lo hi := by
  refine .attempt (.hereFrom fun start _ => .skip fun _ hi _ => ?_)
  refine .bind (hr.assignment start hi) fun value hi _ hvalue => ?_
  split
  · refine .give (between_compound (by simpa using hvalue.1) fun hb => ?_)
    exact (hvalue.2 (Expr.isBounded_compound.2 ⟨rfl, hb⟩)).back
  · exact .fail

theorem assignmentBase_nests : r.assignmentBase.Nests lo hi := by
  unfold assignmentBase
  refine .tokenFrom fun t _ => .skip fun _ hi _ => .ite (yielding_nests hr) ?_
  refine .skip fun _ hi _ => .skip fun _ hi _ => ?_
  refine .bind (conditional_nests hr) fun value hi _ hvalue => .ite (.give hvalue) ?_
  split
  · exact .give hvalue
  · exact .give hvalue
  · exact .give hvalue
  · exact .give hvalue
  · split
    · exact .give hvalue
    · exact assignmentRest_nests hr hvalue

theorem assignmentRule_nests : r.assignmentRule.Nests lo hi := by
  unfold assignmentRule
  refine .skip fun _ hi _ => .skip fun _ hi _ => .ite ?_ (assignmentBase_nests hr)
  refine .bind (.within _ (genericArrow?_nests hr)) fun value hi _ hvalue => ?_
  cases value with
  | none => exact assignmentBase_nests hr
  | some e => exact .give (hvalue e rfl)

end Operators

section Arrows

theorem isNested_of_value? {item : Item} {e : Expr} (h : Part.AllNested item.parts)
    (he : item.value? = some e) : e.IsNested := by
  cases item with
  | value e' =>
    cases he
    simpa [Item.parts] using h
  | spread e' => cases he
  | parameter inside => cases he

theorem grouped_nests {start lo hi : Nat} (hlo : lo ≤ start) (hstart : start ≤ hi)
    {items : List Item} (h : between start hi items) : (grouped start items).Nests lo hi := by
  have hvalues : ∀ e ∈ items.filterMap Item.value?, between start hi e := by
    intro e he
    obtain ⟨item, hitem, he⟩ := List.mem_filterMap.1 he
    exact ⟨isNested_of_value? (h item hitem).1 he, (h item hitem).2 e he⟩
  unfold grouped
  refine .join fun hi _ => .skip fun _ hi _ => .spanFrom _ fun hi hle => ?_
  have hvalues := fun e he => mono (a := e) (hvalues e he) (Nat.le_refl _) (show _ ≤ hi by omega)
  have hspan : Span.Between lo hi ⟨start, hi⟩ := .upTo hlo (by omega)
  split
  · rename_i e heq
    have he := hvalues e (by simp [heq])
    exact .give ⟨Expr.isNested_paren.2 ⟨he.1, he.2.inside⟩, fun _ => hspan⟩
  · rename_i e more _ heq
    rw [heq] at hvalues ⊢
    have hnested : ∀ p ∈ (e :: more).map Part.expr, p.IsNested := by
      simpa using fun x hx => (hvalues x hx).1
    refine .give ⟨Expr.isNested_paren.2 ⟨Expr.isNested_compound.2 hnested, fun hb => ?_⟩, fun _ => hspan⟩
    have hown := fun x (hx : x ∈ e :: more) =>
      (hvalues x hx).2 ((Expr.isBounded_compound.1 hb).2 x (List.mem_map_of_mem hx))
    refine ⟨(hown e (by simp)).start, ?_⟩
    cases hlast : more.getLast? with
    | none => exact (hown e (by simp)).stop
    | some last => exact (hown last (List.mem_cons_of_mem e (List.mem_of_getLast? hlast))).stop
  · exact .fail

variable {r : Rules} (hr : r.Nests) {lo hi : Nat}
include hr

omit hr in
theorem asParameters_nests {items : List Item} (h : ∀ p ∈ items.flatMap Item.parts, p.IsNested) :
    (asParameters items).Nests lo hi := by
  unfold asParameters
  exact .skip fun _ hi _ => .skip fun _ hi _ => .give h

theorem typedArrow?_nests {start : Nat} (hlo : lo ≤ start) (hstart : start ≤ hi) (inAsync : Bool)
    {items : List Item} (h : ∀ p ∈ items.flatMap Item.parts, p.IsNested) :
    (r.typedArrow? start inAsync items).Nests lo hi := by
  refine .attempt (.skip fun _ hi _ => .skip fun _ hi _ => ?_)
  refine .bind (asParameters_nests h) fun params hi _ hparams => ?_
  refine .bind (arrowBody_nests hr _) fun x hi _ hx => .skip fun _ hi _ => .skip fun _ hi _ => ?_
  refine .join fun hi _ => .spanFrom _ fun hi _ => .give (between_compound ?_ fun _ => ?_)
  · simpa [or_imp, forall_and] using ⟨hparams, hx.1⟩
  · exact .upTo hlo (by omega)

theorem conditionalArrow?_nests {start : Nat} (hlo : lo ≤ start) (hstart : start ≤ hi)
    (inAsync : Bool) {items : List Item} (h : ∀ p ∈ items.flatMap Item.parts, p.IsNested) :
    (r.conditionalArrow? start inAsync items).Nests lo hi := by
  unfold conditionalArrow?
  refine .skip fun _ hi _ => .skip fun _ hi _ => .ite ?_ (.give (by simp))
  exact typedArrow?_nests hr hlo (by omega) inAsync h

theorem nameArrow_nests {start : Nat} (hlo : lo ≤ start) (hstart : start ≤ hi) (inAsync : Bool) :
    (r.nameArrow start inAsync).Nests lo hi := by
  unfold nameArrow
  refine .skip fun _ hi _ => .bind (arrowBody_nests hr _) fun x hi _ hx => .spanFrom _ fun hi _ => ?_
  exact .give (between_compound (by simpa using hx.1) fun _ => .upTo hlo (by omega))

theorem genericAsyncArrow_nests {start : Nat} (hlo : lo ≤ start) (hstart : start ≤ hi) :
    (r.genericAsyncArrow start).Nests lo hi := by
  unfold genericAsyncArrow
  refine .skip fun _ hi _ => .skip fun _ hi _ => ?_
  refine .bind (parameters_nests hr fun lo hi => decorators_nests hr false) fun params hi _ hparams => ?_
  refine .skip fun _ hi _ => .skip fun _ hi _ => .join fun hi _ => .skip fun _ hi _ => ?_
  refine .bind (arrowBody_nests hr _) fun x hi _ hx => .spanFrom _ fun hi _ => .give ?_
  refine between_compound ?_ fun _ => .upTo hlo (by omega)
  simpa [or_imp, forall_and] using ⟨hparams.1, hx.1⟩

omit hr in
theorem parenItems_moves (r : Rules) : r.parenItems.Moves := .within _ (.first (.expect _))

theorem itemValue_nests : r.itemValue.Nests lo hi := by
  unfold itemValue
  refine .hereFrom fun start _ => .skip fun _ hi _ => .skip fun _ hi _ => .ite ?_ ?_
  · refine .skip fun _ hi _ => .ite ?_ ?_
    · exact .bind (binary_nests hr) fun e hi _ he => .give ⟨he, trivial⟩
    · refine .bind (binary_nests hr) fun e hi _ he => ?_
      exact .bind (assignmentRest_nests hr he) fun e hi _ he => .give ⟨he, trivial⟩
  · refine .skip fun _ hi _ => ?_
    exact .bind (hr.assignment start hi) fun e hi _ he => .give ⟨he, trivial⟩

theorem itemBranches_nests {value : Expr} (h : between lo hi value) (isTest : Bool) :
    (r.itemBranches isTest value lo).Nests lo hi := by
  unfold itemBranches
  exact .ite (.skip fun _ _ _ => branches_nests hr h.1) (.give h)

theorem parenItem_nests : r.parenItem.Nests lo hi := by
  unfold parenItem
  refine .hereFrom fun start _ => .skip fun _ hi _ => .skip fun _ hi _ => .skip fun _ hi _ => ?_
  refine .bind (itemValue_nests hr) fun x hi _ hx => .skip fun _ hi _ => .skip fun _ hi _ => ?_
  refine .join fun hi _ => ?_
  have hvalue := mono hx.1 (Nat.le_refl _) (show _ ≤ hi by omega)
  refine .bind (itemBranches_nests hr hvalue _) fun value hi _ hvalue => .skip fun _ hi hle => ?_
  refine .ite (.skip fun _ hi _ => .skip fun _ hi _ => ?_) (.ite (.give ?_) (.give ?_))
  · refine .bind (initialiser?_nests hr) fun given hi _ hgiven => .give (between_item.2 ⟨?_, nofun⟩)
    cases given with
    | none => simpa [Item.parts] using hvalue.1
    | some e => simpa [Item.parts] using ⟨hvalue.1, (hgiven e rfl).1⟩
  · exact between_item.2 ⟨by simpa [Item.parts] using hvalue.1, nofun⟩
  · refine between_item.2 ⟨by simpa [Item.parts] using hvalue.1, fun e he => ?_⟩
    cases he
    exact hvalue.2.mono (Nat.le_refl _) hle

theorem parenItems_nests : r.parenItems.Nests lo hi := by
  refine .within _ (.skip fun _ hi _ => .bind (many_nests fun hi _ => ?_) fun items hi _ h => ?_)
  · refine .skip fun _ hi _ => .skip fun _ hi _ => .ite (.give (by simp)) ?_
    refine .bind (parenItem_nests hr) fun item hi _ hitem => .skip fun _ _ hle => .give ?_
    exact fun i hi => by cases hi; exact mono hitem (Nat.le_refl _) hle
  · exact .skip fun _ _ hle => .give (mono h (Nat.le_refl _) hle)

theorem arrowRest_nests {start : Nat} (hlo : lo ≤ start) (hstart : start ≤ hi) (inAsync : Bool)
    {params : List Part} (h : ∀ p ∈ params, p.IsNested) :
    (r.arrowRest start inAsync params).Nests lo hi := by
  unfold arrowRest
  refine .bind (arrowBody_nests hr _) fun x hi _ hx => .spanFrom _ fun stop hstop => ?_
  refine .skip fun _ hi hle => ?_
  have hspan : Span.Between lo stop ⟨start, stop⟩ := .upTo hlo (by omega)
  have hparts : ∀ p ∈ [Part.scope (params ++ x.1)], p.IsNested := by
    simpa [or_imp, forall_and] using ⟨h, hx.1⟩
  have hvalue : between lo hi (Expr.compound .arrow [.scope (params ++ x.1)] ⟨start, stop⟩) :=
    between_compound hparts fun _ => hspan.mono (Nat.le_refl _) hle
  exact .ite (hr.operators 0 hvalue) (.give hvalue)

theorem parenthesised_nests (canBeArrow : Bool) {asyncStart : Option Nat}
    (hasync : ∀ s ∈ asyncStart, lo ≤ s ∧ s ≤ hi) :
    (r.parenthesised canBeArrow asyncStart).Nests lo hi := by
  refine .here_bind (parenItems_moves r) (fun _ => parenItems_nests hr) ?_
  intro here items hi hhere hpassed hle hitems
  obtain ⟨hlo, hstart⟩ : lo ≤ asyncStart.getD here ∧ asyncStart.getD here ≤ hi := by
    cases asyncStart with
    | none => exact ⟨hhere, hpassed⟩
    | some s => exact ⟨(hasync s rfl).1, Nat.le_trans (hasync s rfl).2 hle⟩
  have hparts : ∀ p ∈ items.flatMap Item.parts, p.IsNested := by
    simpa using fun p item hitem hp => Part.allNested_iff.1 (hitems item hitem).1 p hp
  refine .bind (conditionalArrow?_nests hr hlo hstart _ hparts) fun value hi _ hvalue => ?_
  cases value with
  | some e => exact .give (hvalue e rfl)
  | none =>
    refine .skip fun _ hi _ => .skip fun _ hi _ => .ite (.skip fun _ hi _ => ?_) ?_
    · refine .join fun hi _ => .skip fun _ hi _ => ?_
      refine .bind (asParameters_nests hparts) fun params hi _ hparams => ?_
      exact arrowRest_nests hr hlo (by omega) _ hparams
    · cases asyncStart with
      | some _ =>
        exact .spanFrom _ fun hi _ => .give (between_compound hparts fun _ => .upTo hlo (by omega))
      | none => exact grouped_nests hlo (by omega) (mono hitems (Nat.le_refl _) (by omega))

end Arrows

section Primary

variable {r : Rules} (hr : r.Nests) {lo hi : Nat}
include hr

theorem genericAsync?_nests (canBeArrow : Bool) :
    (r.genericAsync? canBeArrow lo).Nests lo hi := by
  unfold genericAsync?
  refine .skip fun _ hi _ => .ite ?_ (.give (by simp))
  exact .attempt (.pass .advance fun _ hi _ hlo => genericAsyncArrow_nests hr (Nat.le_refl _) hlo)

theorem namePrimary_nests (canBeArrow : Bool) : (r.namePrimary canBeArrow).Nests lo hi := by
  unfold namePrimary
  refine .token fun t ht => .pass .identifier fun name hi _ hstart => ?_
  refine .spanFrom _ fun stop hstop => .skip fun _ hi hle => ?_
  have hspan : ∀ hi', hi ≤ hi' → Span.Between lo hi' ⟨t.start.pos, stop⟩ := fun hi' hle' =>
    (Span.Between.upTo ht (by omega)).mono (Nat.le_refl _) (Nat.le_trans hle hle')
  have hident : ∀ hi', hi ≤ hi' → between lo hi' (Expr.ident name ⟨t.start.pos, stop⟩) :=
    fun hi' hle' => ⟨trivial, fun _ => hspan hi' hle'⟩
  refine .ite (.skip fun _ hi _ => .skip fun _ hi _ => ?_) ?_
  · refine .ite (.give (hident hi (by omega))) (.skip fun _ hi _ => ?_)
    refine .skip fun _ hi _ => .ite (.skip fun _ hi _ => ?_) (nameArrow_nests hr ht (by omega) _)
    refine .spanFrom _ fun hi _ => .give ⟨Expr.isNested_asType.2 ⟨trivial, fun _ => ?_⟩, fun _ => ?_⟩
    · exact ⟨Nat.le_refl _, (hspan hi (by omega)).stop⟩
    · exact .upTo ht (by omega)
  · exact .ite (.join fun hi _ => nameArrow_nests hr ht (by omega) _) (.give (hident _ (Nat.le_refl _)))

theorem asyncPrimary?_nests (canBeArrow : Bool) : (r.asyncPrimary? canBeArrow).Nests lo hi := by
  unfold asyncPrimary?
  refine .hereFrom fun start _ => .skip fun _ hi _ => .ite (.pass .advance fun _ hi _ hstart => ?_) ?_
  · refine .bind (function_nests hr true false) fun part hi _ hpart => .spanFrom _ fun hi _ => ?_
    have hvalue : between start hi (Expr.compound .function [part] ⟨start, hi⟩) :=
      between_compound (by simpa using hpart) fun _ => .upTo (Nat.le_refl _) (by omega)
    exact .give fun e he => by cases he; exact hvalue
  · refine .bind (genericAsync?_nests hr _) fun value hi _ hvalue => ?_
    cases value with
    | some e => exact .give hvalue
    | none =>
      refine .ite (.pass .advance fun _ hi _ hstart => ?_) (.give (by simp))
      have hasync : ∀ s ∈ some start, start ≤ s ∧ s ≤ hi := by
        intro s hs
        cases hs
        exact ⟨Nat.le_refl _, hstart⟩
      refine .bind (parenthesised_nests hr _ hasync) fun e hi _ he => .give ?_
      exact fun _ h => by cases h; exact he

theorem wordPrimary_nests (name : Text) (canBeArrow : Bool) :
    (r.wordPrimary name canBeArrow).Nests lo hi := by
  unfold wordPrimary
  refine .token fun t ht => .ite (.pass .advance fun _ hi _ hstart => ?_) ?_
  · exact .spanFrom _ fun hi _ => .give ⟨trivial, fun _ => .upTo ht (by omega)⟩
  refine .ite (.pass .advance fun _ hi _ hstart => ?_) (.ite ?_ (.behind ht (.ite ?_ (.ite ?_ ?_))))
  · exact .spanFrom _ fun hi _ => .give ⟨trivial, fun _ => .upTo ht (by omega)⟩
  · exact .advance fun hspan => .give (between_compound (by simp) fun _ => hspan)
  · refine .bindPass (function_moves r _ _) (function_nests hr _ _) fun part hi _ hstart hpart => ?_
    refine .spanFrom _ fun hi _ => .give (between_compound (by simpa using hpart) fun _ => ?_)
    exact .upTo (Nat.le_refl _) (by omega)
  · refine .bindPass (classRest_moves r _) (classRest_nests hr _) fun part hi _ hstart hpart => ?_
    refine .spanFrom _ fun hi _ => .give (between_compound (by simpa using hpart) fun _ => ?_)
    exact .upTo (Nat.le_refl _) (by omega)
  · refine .ite (.bind (asyncPrimary?_nests hr _) fun value hi _ hvalue => ?_) (.given ?_)
    · cases value with
      | some e => exact .give (hvalue e rfl)
      | none => exact .ite (namePrimary_nests hr _) .fail
    · exact .ite (namePrimary_nests hr _) .fail

theorem primary_nests : r.primary.Nests lo hi := by
  unfold primary
  refine .token fun t ht => .look fun _ => ?_
  dsimp only
  split
  · exact .of (wordPrimary_nests hr _ _)
  · refine .pass .advance fun _ hi _ hstart => .spanFrom _ fun hi _ => .give ?_
    exact ⟨trivial, fun _ => .upTo ht (by omega)⟩
  · refine .pass .advance fun _ hi _ hstart => .spanFrom _ fun hi _ => .give ?_
    exact ⟨trivial, fun _ => .upTo ht (by omega)⟩
  · refine .pass .advance fun _ hi _ hstart => .spanFrom _ fun hi _ => .give ?_
    exact ⟨trivial, fun _ => .upTo ht (by omega)⟩
  · refine .ite (.of (parenthesised_nests hr _ nofun)) (.ite (.of (arrayLiteral_nests hr)) ?_)
    refine .ite (.of (objectLiteral_nests hr)) (.ite (.of (templateLiteral_nests hr)) ?_)
    refine .ite (.reread fun t' ht' => .refuseFault (.pass .advance fun _ hi _ hstart => ?_)) ?_
    · rw [ht'] at hstart
      exact .spanFrom _ fun hi _ => .give ⟨trivial, fun _ => .upTo ht (by omega)⟩
    · refine .behind ht (.ite ?_ (.ite ?_ .fail))
      · refine .bind (decorators_nests hr false) fun before hi _ hbefore => ?_
        have hbefore := inScope_nested hbefore
        refine .here_bind (classRest_moves r _) (fun _ => classRest_nests hr _) ?_
        intro start part hi hlo hstart _ hpart
        refine .spanFrom _ fun hi _ => .give (between_compound ?_ fun _ => .upTo hlo (by omega))
        simpa [or_imp, forall_and] using ⟨hbefore, hpart⟩
      · refine .pass .advance fun _ hi _ hstart => .skip fun _ hi _ => .spanFrom _ fun hi _ => .give ?_
        exact between_compound (by simp) fun _ => .upTo (Nat.le_refl _) (by omega)
  · exact .of .fail

theorem taggedTemplate_nests {tag : Expr} (h : between lo hi tag) :
    (r.taggedTemplate tag.start tag).Nests lo hi := by
  unfold taggedTemplate
  refine .bind (templateRest_nests hr true) fun x hi _ hx => .spanFrom _ fun hi _ => .give ?_
  refine between_behind h ?_ (by simp) (by omega)
  simpa using ⟨h.1, fun e he => (hx.2 e he).1⟩

theorem typedCall?_nests {callee : Expr} (h : between lo hi callee) (noCall : Bool) :
    (r.typedCall? callee.start noCall callee).Nests lo hi := by
  unfold typedCall?
  refine .skip fun _ hi _ => .ite (.give (by simp)) (.attempt (.skip fun _ hi _ => ?_))
  have hcallee := mono (a := callee) h (Nat.le_refl _) (show _ ≤ hi by omega)
  refine .skip fun _ hi _ => .ite ?_ (.skip fun _ hi _ => .ite ?_ .fail)
  · refine .bind (arguments_nests hr) fun given hi _ hgiven => .spanFrom _ fun hi _ => .give ?_
    exact between_behind h (by simpa using ⟨h.1, hgiven⟩) (by simp) (by omega)
  · exact taggedTemplate_nests hr (mono hcallee (Nat.le_refl _) (by omega))

theorem memberStep_nests {base : Expr} (h : between lo hi base) (noCall optional : Bool) :
    (r.memberStep base.start noCall optional base).Nests lo hi := by
  have hbase := fun hi' (hle : hi ≤ hi') => mono (a := base) h (Nat.le_refl _) hle
  unfold memberStep
  refine .skip fun _ hi _ => .ite (.skip fun _ hi _ => ?_) (.skip fun _ hi _ => .join fun hi _ => ?_)
  · refine .bind (fullExpression_nests hr) fun index hi _ hindex => .skip fun _ hi _ => ?_
    refine .spanFrom _ fun hi _ => .give ⟨between_behind h ?_ (by simp) (by omega), trivial⟩
    simpa using ⟨h.1, hindex.1⟩
  · refine .skip fun _ hi _ => .ite ?_ (.skip fun _ hi _ => .ite ?_ (.skip fun _ hi _ => .ite ?_ ?_))
    · refine .bind (arguments_nests hr) fun given hi _ hgiven => .spanFrom _ fun hi _ => .give ?_
      exact ⟨between_behind h (by simpa using ⟨h.1, hgiven⟩) (by simp) (by omega), trivial⟩
    · refine .skip fun _ hi _ => .skip fun _ hi _ => .spanFrom _ fun hi _ => .give ?_
      exact ⟨between_behind h (by simpa using h.1) (by simp) (by omega), trivial⟩
    · refine .bind (taggedTemplate_nests hr (hbase _ (by omega))) fun e _ _ he => .give ?_
      exact ⟨he, trivial⟩
    · exact .give ⟨hbase _ (by omega), trivial⟩

theorem subscript_nests {base : Expr} (h : between lo hi base) (noCall : Bool) :
    (r.subscript base.start noCall base).Nests lo hi := by
  have hbase := fun hi' (hle : hi ≤ hi') => mono (a := base) h (Nat.le_refl _) hle
  unfold subscript
  refine .skip fun _ hi _ => .ite (.skip fun _ hi _ => .spanFrom _ fun hi _ => .give ?_) ?_
  · exact ⟨between_behind h (by simpa using h.1) (by simp) (by omega), trivial⟩
  · refine .bind (typedCall?_nests hr (hbase _ (by omega)) noCall) fun value hi _ hvalue => ?_
    cases value with
    | some e => exact .give ⟨hvalue e rfl, trivial⟩
    | none => exact .skip fun _ hi _ => memberStep_nests hr (hbase _ (by omega)) _ _

omit hr in
theorem taggedTemplate_starts (r : Rules) (start : Nat) (tag : Expr) :
    (r.taggedTemplate start tag).Gives fun e => e.start = start := by
  unfold taggedTemplate
  exact .skip fun _ => .spanFrom _ fun s hs => .give hs

omit hr in
/-- What stands behind an expression is read with it, from its start. -/
theorem subscript_starts (r : Rules) (start : Nat) (noCall : Bool) {base : Expr}
    (h : base.start = start) :
    (r.subscript start noCall base).Gives fun x => x.1.start = start := by
  have htagged := taggedTemplate_starts r start base
  have htyped : (r.typedCall? start noCall base).Gives fun o => ∀ e ∈ o, e.start = start := by
    unfold typedCall?
    refine .skip fun _ => .ite (.give nofun) (.attempt (.skip fun _ => .skip fun _ => .ite ?_ ?_))
    · exact .skip fun _ => .spanFrom _ fun s hs => .give hs
    · exact .skip fun _ => .ite htagged .fail
  unfold subscript
  refine .skip fun _ => .ite (.skip fun _ => .spanFrom _ fun s hs => .give hs) ?_
  refine .bind htyped fun value hvalue => ?_
  cases value with
  | some e => exact .give (hvalue e rfl)
  | none =>
    refine .skip fun _ => ?_
    unfold memberStep
    refine .skip fun _ => .ite (.skip fun _ => .skip fun _ => .skip fun _ => ?_) ?_
    · exact .spanFrom _ fun s hs => .give hs
    refine .skip fun _ => .join (.skip fun _ => .ite (.skip fun _ => ?_) (.skip fun _ => .ite ?_ ?_))
    · exact .spanFrom _ fun s hs => .give hs
    · exact .skip fun _ => .skip fun _ => .spanFrom _ fun s hs => .give hs
    · exact .skip fun _ => .ite (.bind htagged fun e he => .give he) (.give h)

theorem subscripts_nests {base : Expr} (h : between lo hi base) (noCall : Bool) :
    (r.subscripts noCall base).Nests lo hi := by
  have hkept : ∀ a : Expr, a.start = base.start →
      (r.subscript base.start noCall a).Gives fun x => x.1.start = base.start := fun a ha =>
    subscript_starts r base.start noCall ha
  refine .iterate_keeping hkept (fun a hi _ ha hstart => ?_) _ h rfl
  rw [← hstart]
  exact subscript_nests hr ha noCall

theorem superMember_nests (noCall : Bool) : (r.superMember noCall).Nests lo hi := by
  unfold superMember
  refine .hereFrom fun start _ => .pass .advance fun _ hi _ hpassed => .skip fun _ hi _ => ?_
  refine .ite ?_ (.ite ?_ ?_)
  · refine .skip fun _ hi _ => .bind (fullExpression_nests hr) fun index hi _ hindex => ?_
    refine .skip fun _ hi _ => .spanFrom _ fun hi _ => subscripts_nests hr ?_ _
    exact between_compound (by simpa using hindex.1) fun _ => .upTo (Nat.le_refl _) (by omega)
  · refine .skip fun _ hi _ => .skip fun _ hi _ => .skip fun _ hi _ => .spanFrom _ fun hi _ => ?_
    refine subscripts_nests hr (between_compound (by simp) fun _ => ?_) _
    exact .upTo (Nat.le_refl _) (by omega)
  · refine .ite (.bind (arguments_nests hr) fun given hi _ hgiven => .spanFrom _ fun hi _ => ?_) .fail
    refine subscripts_nests hr (between_compound (by simpa using hgiven) fun _ => ?_) _
    exact .upTo (Nat.le_refl _) (by omega)

theorem importMember_nests (noCall : Bool) : (r.importMember noCall).Nests lo hi := by
  unfold importMember
  refine .hereFrom fun start _ => .pass .advance fun _ hi _ hpassed => .skip fun _ hi _ => .ite ?_ ?_
  · refine .skip fun _ hi _ => .spanFrom _ fun hi _ => ?_
    refine subscripts_nests hr (between_compound (by simp) fun _ => ?_) _
    exact .upTo (Nat.le_refl _) (by omega)
  · refine .skip fun _ hi _ => .ite ?_ .fail
    refine .bind (arguments_nests hr) fun given hi _ hgiven => .spanFrom _ fun hi _ => ?_
    refine subscripts_nests hr (between_compound (by simpa using hgiven) fun _ => ?_) _
    exact .upTo (Nat.le_refl _) (by omega)

theorem creation_nests : r.creation.Nests lo hi := by
  unfold creation
  refine .hereFrom fun start _ => .pass .advance fun _ hi _ hpassed => .skip fun _ hi _ => .ite ?_ ?_
  · refine .skip fun _ hi _ => .spanFrom _ fun hi _ => ?_
    refine subscripts_nests hr (between_compound (by simp) fun _ => ?_) _
    exact .upTo (Nat.le_refl _) (by omega)
  · refine .bind (hr.member start hi) fun callee hi _ hcallee => .ite (.give hcallee) ?_
    refine .join fun hi _ => .skip fun _ hi _ => .join fun hi _ => .skip fun _ hi _ => .ite ?_ ?_
    · refine .bind (arguments_nests hr) fun given hi _ hgiven => .spanFrom _ fun hi _ => ?_
      refine subscripts_nests hr (between_compound ?_ fun _ => ?_) _
      · simpa using ⟨hcallee.1, hgiven⟩
      · exact .upTo (Nat.le_refl _) (by omega)
    · refine .spanFrom _ fun hi _ => .give (between_compound (by simpa using hcallee.1) fun _ => ?_)
      exact .upTo (Nat.le_refl _) (by omega)

theorem memberRule_nests : r.memberRule.Nests lo hi := by
  unfold memberRule
  refine .tokenFrom fun t _ => .ite (creation_nests hr) (.ite (superMember_nests hr _) ?_)
  refine .ite (importMember_nests hr _) (.bind (primary_nests hr) fun base hi _ hbase => ?_)
  refine .ite (.give hbase) (.skip fun _ hi _ => .ite ?_ (.given ?_))
  · refine .spanFrom _ fun hi _ => .given (subscripts_nests hr ?_ _)
    refine between_compound (by simpa using hbase.1) fun hb => ?_
    have hown := hbase.2 (hb base (by simp))
    exact .upTo (Nat.le_refl _) (Nat.le_trans hown.le (by omega))
  · exact subscripts_nests hr (mono hbase (Nat.le_refl _) (by omega)) _

theorem wholeMarkup_nests : r.wholeMarkup.Nests lo hi := by
  refine .rescue (hr.markup lo hi) fun offset => .skip fun _ hi _ => ?_
  exact .join fun hi _ => .raise _

theorem operandRule_nests : r.operandRule.Nests lo hi := by
  unfold operandRule
  refine .tokenFrom fun t _ => .skip fun _ hi _ => .skip fun _ hi _ => .ite ?_ (.ite ?_ (.ite ?_ ?_))
  · refine .bind (wholeMarkup_nests hr) fun inside hi _ hinside => .pass .advance fun _ hi _ hpassed => ?_
    refine .spanFrom _ fun hi _ => .give (between_compound (by simpa using hinside) fun _ => ?_)
    exact .upTo (Nat.le_refl _) (by omega)
  · exact superMember_nests hr _
  · exact importMember_nests hr _
  · refine .bind (hr.member _ hi) fun callee hi _ hcallee => .ite (.give hcallee) ?_
    have hcallee := fun hi' (hle : hi ≤ hi') => mono (a := callee) hcallee (Nat.le_refl _) hle
    refine .skip fun typed hi _ => .skip fun _ hi _ => .ite (.join fun hi _ => .give ?_) ?_
    · exact hcallee _ (by omega)
    · refine .skip fun _ hi _ => .ite ?_ (.ite .fail (.give (hcallee _ (by omega))))
      refine .bind (arguments_nests hr) fun given hi _ hgiven => .spanFrom _ fun hi _ => ?_
      have hown := hcallee hi (by omega)
      refine subscripts_nests hr (between_compound (by simpa using ⟨hown.1, hgiven⟩) fun hb => ?_) _
      exact .upTo (Nat.le_refl _) (hown.2 (hb callee (by simp))).le

end Primary

section Markup

variable {r : Rules} (hr : r.Nests) {lo hi : Nat}
include hr

theorem container_nests : r.container.Nests lo hi := by
  unfold container
  refine .skip fun _ hi _ => .skip fun _ hi _ => .ite (.give (by simp)) (.skip fun _ hi _ => ?_)
  refine .bind (fullExpression_nests hr) fun value hi _ hvalue => .skip fun _ hi _ => .ite ?_ .fail
  refine .give fun e he => ?_
  cases he
  exact mono hvalue (Nat.le_refl _) (by omega)

theorem attributeValue_nests : r.attributeValue.Nests lo hi := by
  unfold attributeValue
  refine .skip fun _ hi _ => .skip fun t hi _ => .ite ?_ (.ite ?_ (.ite ?_ .fail))
  · exact .skip fun _ hi _ => .give (by simp)
  · refine .bind (container_nests hr) fun value hi _ hvalue => ?_
    cases value with
    | none => exact .failAt _
    | some e => exact .skip fun _ hi _ => .give (by simpa using (hvalue e rfl).1)
  · refine .bind (hr.markup lo hi) fun inside hi _ hinside => .skip fun _ hi _ => .give ?_
    simpa using hinside

theorem tagAttribute_nests : r.tagAttribute.Nests lo hi := by
  unfold tagAttribute
  refine .skip fun _ hi _ => .ite (.skip fun _ hi _ => ?_) (.skip fun _ hi _ => ?_)
  · refine .bind (hr.assignment lo hi) fun value hi _ hvalue => .skip fun _ hi _ => .give ?_
    simpa using hvalue.1
  · exact .skip fun _ hi _ => .ite (attributeValue_nests hr) (.give (by simp))

theorem attributes_nests : r.attributes.Nests lo hi := by
  unfold attributes
  refine .bind (many_nests fun hi _ => ?_) fun all hi _ hall => .give ?_
  · refine .skip fun _ hi _ => .skip fun _ hi _ => .skip fun _ hi _ => .ite (.give (by simp)) ?_
    exact .bind (tagAttribute_nests hr) fun parts _ _ h => .give (by simpa using h)
  · simpa using fun p l hl hp => hall l hl p hp

theorem child_nests (name : Text) : (r.child name).Nests lo hi := by
  unfold child
  refine .skip fun t hi _ => .ite ?_ (.ite (.skip fun _ hi _ => .ite ?_ ?_) .fail)
  · refine .bind (container_nests hr) fun value hi _ hvalue => .give ⟨?_, trivial⟩
    cases value with
    | none => simp
    | some e => simpa using (hvalue e rfl).1
  · refine .skip fun _ hi _ => .skip fun _ hi _ => .skip fun _ hi _ => ?_
    refine .ite (.given ?_) (.skip fun _ hi _ => ?_)
    all_goals exact .skip fun _ hi _ => .join fun hi _ => .ite (.give (by simp)) (.failAt _)
  · exact .bind (hr.markup lo hi) fun inside hi _ hinside => .give ⟨hinside, trivial⟩

theorem children_nests (name : Text) : (r.children name).Nests lo hi := by
  refine iterate_nests (by simp) fun parts hi _ hparts => ?_
  refine .skip fun _ hi _ => .skip fun _ hi _ => .ite (.give ⟨hparts, trivial⟩) ?_
  refine .bind (child_nests hr name) fun x hi _ hx => .give ⟨?_, trivial⟩
  simpa [or_imp, forall_and] using ⟨hparts, hx.1⟩

theorem markupRule_nests : r.markupRule.Nests lo hi := by
  refine .within _ (.skip fun _ hi _ => .skip fun _ hi _ => .ite (children_nests hr _) ?_)
  refine .skip fun name hi _ => .skip fun _ hi _ => .join fun hi _ => ?_
  refine .bind (attributes_nests hr) fun parts hi _ hparts => .skip fun _ hi _ => .ite ?_ ?_
  · exact .skip fun _ hi _ => .ite (.give hparts) .fail
  · refine .skip fun _ hi _ => .ite ?_ .fail
    refine .bind (children_nests hr name) fun more hi _ hmore => .give ?_
    simpa [or_imp, forall_and] using ⟨hparts, hmore⟩

end Markup

end Rules
end RoutePages.Script
