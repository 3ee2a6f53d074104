import RoutePages.Proofs.Script.Gives
import RoutePages.Script.Grammar.Arrow

/-!
# Where declarations stand

A declaration stands at the top of a module, up to blocks and loops, or inside a function, a
class or a method. In an expression it is sealed: it can be met only inside one of these. A
parser seals what it reads if all expressions in its values are like that. The rules follow
the shape of the parsers.
-/
namespace RoutePages.Script

mutual

/-- The declarators in the expression that stand in no function, class or method of an object, in
source order. -/
def Expr.declarators : Expr → List Declarator
  | .template _ holes _ => Expr.allDeclarators holes
  | .paren inner _ => inner.declarators
  | .asType inner _ => inner.declarators
  | .asConst inner _ => inner.declarators
  | .minus operand _ => operand.declarators
  | .array elements _ => Element.allDeclarators elements
  | .object props _ => Property.allDeclarators props
  | .compound _ parts _ => Part.allDeclarators parts
  | _ => []

def Expr.allDeclarators : List Expr → List Declarator
  | [] => []
  | e :: rest => e.declarators ++ Expr.allDeclarators rest

def Element.declarators : Element → List Declarator
  | .hole => []
  | .item e => e.declarators
  | .spread e => e.declarators

def Element.allDeclarators : List Element → List Declarator
  | [] => []
  | e :: rest => e.declarators ++ Element.allDeclarators rest

def Property.declarators : Property → List Declarator
  | .field key e => key.declarators ++ e.declarators
  | .spread e => e.declarators
  | .default _ e _ => e.declarators
  | .shorthand _ _ => []
  | .method _ _ => []

def Property.allDeclarators : List Property → List Declarator
  | [] => []
  | p :: rest => p.declarators ++ Property.allDeclarators rest

def Key.declarators : Key → List Declarator
  | .computed parts _ => Part.allDeclarators parts
  | _ => []

def Part.declarators : Part → List Declarator
  | .expr e => e.declarators
  | .declaration declarators => Declarator.allDeclarators declarators
  | .imports _ _ _ => []
  | .scope _ => []

def Part.allDeclarators : List Part → List Declarator
  | [] => []
  | p :: rest => p.declarators ++ Part.allDeclarators rest

/-- The declarators in the pattern and in the initialiser. -/
def Declarator.nested : Declarator → List Declarator
  | .mk _ _ inPattern none => Part.allDeclarators inPattern
  | .mk _ _ inPattern (some e) => Part.allDeclarators inPattern ++ e.declarators

def Declarator.allDeclarators : List Declarator → List Declarator
  | [] => []
  | d :: rest => d :: (d.nested ++ Declarator.allDeclarators rest)

end

/-- Values that hold trees: what it means that the declarations in these are sealed. -/
class Sealed (α : Type) where
  isSealed : α → Prop

namespace Sealed

instance : Sealed Bool := ⟨fun _ => True⟩

instance : Sealed Char := ⟨fun _ => True⟩

instance : Sealed Expr := ⟨fun e => e.declarators = []⟩

instance : Sealed Element := ⟨fun e => e.declarators = []⟩

instance : Sealed Property := ⟨fun p => p.declarators = []⟩

instance : Sealed Key := ⟨fun k => k.declarators = []⟩

instance : Sealed Part := ⟨fun p => p.declarators = []⟩

instance : Sealed Declarator := ⟨fun d => d.nested = []⟩

variable {α β : Type} [Sealed α] [Sealed β]

instance : Sealed (List α) := ⟨fun l => ∀ a ∈ l, isSealed a⟩

instance : Sealed (Option α) := ⟨fun o => ∀ a ∈ o, isSealed a⟩

instance : Sealed (α × β) := ⟨fun x => isSealed x.1 ∧ isSealed x.2⟩

instance : Sealed Target := ⟨fun t => isSealed t.inside⟩

instance : Sealed Item := ⟨fun i => isSealed i.parts⟩

end Sealed

open Sealed

section Forms

variable {α β : Type} [Sealed α] [Sealed β]

@[simp] theorem isSealed_bool (b : Bool) : isSealed b := trivial

@[simp] theorem isSealed_char (c : Char) : isSealed c := trivial

@[simp] theorem isSealed_list {l : List α} : isSealed l ↔ ∀ a ∈ l, isSealed a := Iff.rfl

@[simp] theorem isSealed_option {o : Option α} : isSealed o ↔ ∀ a, o = some a → isSealed a :=
  Iff.rfl

@[simp] theorem isSealed_prod {x : α × β} : isSealed x ↔ isSealed x.1 ∧ isSealed x.2 := Iff.rfl

@[simp] theorem isSealed_target {t : Target} : isSealed t ↔ ∀ p ∈ t.inside, isSealed p := Iff.rfl

@[simp] theorem isSealed_item {i : Item} : isSealed i ↔ ∀ p ∈ i.parts, isSealed p := Iff.rfl

theorem Expr.allDeclarators_eq (l : List Expr) : Expr.allDeclarators l = l.flatMap declarators := by
  induction l with
  | nil => rfl
  | cons e l ih => exact congrArg (e.declarators ++ ·) ih

theorem Element.allDeclarators_eq (l : List Element) :
    Element.allDeclarators l = l.flatMap declarators := by
  induction l with
  | nil => rfl
  | cons e l ih => exact congrArg (e.declarators ++ ·) ih

theorem Property.allDeclarators_eq (l : List Property) :
    Property.allDeclarators l = l.flatMap declarators := by
  induction l with
  | nil => rfl
  | cons p l ih => exact congrArg (p.declarators ++ ·) ih

theorem Part.allDeclarators_eq (l : List Part) : Part.allDeclarators l = l.flatMap declarators := by
  induction l with
  | nil => rfl
  | cons p l ih => exact congrArg (p.declarators ++ ·) ih

@[simp] theorem isSealed_expr {e : Expr} : isSealed (Part.expr e) ↔ isSealed e := Iff.rfl

@[simp] theorem isSealed_scope (parts : List Part) : isSealed (Part.scope parts) :=
  (rfl : (Part.scope parts).declarators = [])

@[simp] theorem isSealed_imports (locals : List Text) (source : Text) (s : Span) :
    isSealed (Part.imports locals source s) :=
  (rfl : (Part.imports locals source s).declarators = [])

@[simp] theorem isSealed_compound {form : Form} {parts : List Part} {s : Span} :
    isSealed (Expr.compound form parts s) ↔ ∀ p ∈ parts, isSealed p := by
  change Part.allDeclarators parts = [] ↔ _
  rw [Part.allDeclarators_eq, List.flatMap_eq_nil_iff]
  rfl

@[simp] theorem isSealed_template {pieces : List Text} {holes : List Expr} {s : Span} :
    isSealed (Expr.template pieces holes s) ↔ ∀ e ∈ holes, isSealed e := by
  change Expr.allDeclarators holes = [] ↔ _
  rw [Expr.allDeclarators_eq, List.flatMap_eq_nil_iff]
  rfl

@[simp] theorem isSealed_array {elements : List Element} {s : Span} :
    isSealed (Expr.array elements s) ↔ ∀ e ∈ elements, isSealed e := by
  change Element.allDeclarators elements = [] ↔ _
  rw [Element.allDeclarators_eq, List.flatMap_eq_nil_iff]
  rfl

@[simp] theorem isSealed_object {props : List Property} {s : Span} :
    isSealed (Expr.object props s) ↔ ∀ p ∈ props, isSealed p := by
  change Property.allDeclarators props = [] ↔ _
  rw [Property.allDeclarators_eq, List.flatMap_eq_nil_iff]
  rfl

@[simp] theorem isSealed_paren {e : Expr} {s : Span} : isSealed (Expr.paren e s) ↔ isSealed e :=
  Iff.rfl

@[simp] theorem isSealed_asType {e : Expr} {s : Span} : isSealed (Expr.asType e s) ↔ isSealed e :=
  Iff.rfl

@[simp] theorem isSealed_asConst {e : Expr} {s : Span} : isSealed (Expr.asConst e s) ↔ isSealed e :=
  Iff.rfl

@[simp] theorem isSealed_minus {e : Expr} {s : Span} : isSealed (Expr.minus e s) ↔ isSealed e :=
  Iff.rfl

@[simp] theorem isSealed_hole : isSealed Element.hole :=
  (rfl : Element.hole.declarators = [])

@[simp] theorem isSealed_element {e : Expr} : isSealed (Element.item e) ↔ isSealed e := Iff.rfl

@[simp] theorem isSealed_spreadElement {e : Expr} : isSealed (Element.spread e) ↔ isSealed e :=
  Iff.rfl

@[simp] theorem isSealed_field {key : Key} {e : Expr} :
    isSealed (Property.field key e) ↔ isSealed key ∧ isSealed e := List.append_eq_nil_iff

@[simp] theorem isSealed_shorthand (name : Text) (s : Span) :
    isSealed (Property.shorthand name s) :=
  (rfl : (Property.shorthand name s).declarators = [])

@[simp] theorem isSealed_spread {e : Expr} : isSealed (Property.spread e) ↔ isSealed e := Iff.rfl

@[simp] theorem isSealed_default {name : Text} {e : Expr} {s : Span} :
    isSealed (Property.default name e s) ↔ isSealed e := Iff.rfl

@[simp] theorem isSealed_method (parts : List Part) (s : Span) :
    isSealed (Property.method parts s) :=
  (rfl : (Property.method parts s).declarators = [])

@[simp] theorem isSealed_key {k : Key} : isSealed k ↔ ∀ p ∈ k.parts, isSealed p := by
  cases k with
  | computed parts s =>
    change Part.allDeclarators parts = [] ↔ _
    rw [Part.allDeclarators_eq, List.flatMap_eq_nil_iff]
    rfl
  | _ => exact ⟨fun _ => List.forall_mem_nil _, fun _ => rfl⟩

@[simp] theorem isSealed_declarator {name : Option Text} {isArray : Bool} {inPattern : List Part}
    {init : Option Expr} :
    isSealed (Declarator.mk name isArray inPattern init) ↔
      (∀ p ∈ inPattern, isSealed p) ∧ ∀ e, init = some e → isSealed e := by
  have hpattern : Part.allDeclarators inPattern = [] ↔ ∀ p ∈ inPattern, isSealed p := by
    rw [Part.allDeclarators_eq, List.flatMap_eq_nil_iff]
    rfl
  rw [← hpattern]
  cases init with
  | none => exact ⟨fun h => ⟨h, nofun⟩, And.left⟩
  | some value =>
    refine List.append_eq_nil_iff.trans (and_congr_right fun _ => ?_)
    refine ⟨fun h e he => ?_, fun h => h _ rfl⟩
    cases he
    exact h

end Forms

namespace Parser

/-- The parser seals what it reads. -/
abbrev Seals {α : Type} [Sealed α] (p : Parser α) : Prop := p.Gives isSealed

end Parser
end RoutePages.Script
