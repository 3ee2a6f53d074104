import RoutePages.Script.Grammar.Arrow

/-!
# Trees whose spans are nested

The elements of an array and the properties of an object stand one behind the other
between its brackets, and so do the values in them. The span of an expression is that of
the text it was read from, but for operands that were let pass and what is put together from
these.
-/
namespace RoutePages

/-- The span starts and stops between two positions, and does not stop before it starts. -/
structure Span.Between (lo hi : Nat) (s : Span) : Prop where
  start : lo ≤ s.start
  ordered : s.start ≤ s.stop
  stop : s.stop ≤ hi

theorem Span.Between.mono {lo hi lo' hi' : Nat} {s : Span} (h : s.Between lo hi) (hlo : lo' ≤ lo)
    (hhi : hi ≤ hi') : s.Between lo' hi' :=
  ⟨Nat.le_trans hlo h.start, h.ordered, Nat.le_trans h.stop hhi⟩

theorem Span.Between.upTo {lo hi start : Nat} (hlo : lo ≤ start) (hhi : start ≤ hi) :
    Span.Between lo hi ⟨start, hi⟩ := ⟨hlo, hhi, Nat.le_refl _⟩

theorem Span.Between.extend {lo hi : Nat} {s : Span} (h : s.Between lo hi) :
    Span.Between lo hi ⟨s.start, hi⟩ := .upTo h.start (Nat.le_trans h.ordered h.stop)

theorem Span.Between.le {lo hi : Nat} {s : Span} (h : s.Between lo hi) : lo ≤ hi :=
  Nat.le_trans h.start (Nat.le_trans h.ordered h.stop)

theorem Span.Between.back {lo hi : Nat} {s : Span} (h : s.Between lo hi) :
    Span.Between lo hi ⟨lo, s.stop⟩ := ⟨Nat.le_refl _, Nat.le_trans h.start h.ordered, h.stop⟩

/-- From the start of one span to the end of another behind it. -/
theorem Span.Between.join {lo mid hi : Nat} {a b : Span} (ha : a.Between lo mid)
    (hb : b.Between mid hi) : Span.Between lo hi ⟨a.start, b.stop⟩ :=
  ⟨ha.start, Nat.le_trans ha.ordered (Nat.le_trans ha.stop (Nat.le_trans hb.start hb.ordered)),
    hb.stop⟩

namespace Script

/-- The expression is one that could not be read and was let pass. -/
def Expr.isMissing : Expr → Bool
  | .compound .other [] s => s.start == s.stop
  | _ => false

mutual

/-- Does the span of the expression tell where it was read? It need not where an operand was let
pass. -/
def Expr.isBounded : Expr → Bool
  | .compound form parts s => !(Expr.compound form parts s).isMissing && Part.allBounded parts
  | .minus e _ | .asType e _ | .asConst e _ => e.isBounded
  | _ => true

def Part.allBounded : List Part → Bool
  | [] => true
  | .expr e :: rest => e.isBounded && Part.allBounded rest
  | _ :: rest => Part.allBounded rest

end

/-- A bounded expression starts and stops between two positions. -/
def Expr.Between (lo hi : Nat) (e : Expr) : Prop := e.isBounded = true → e.span.Between lo hi

theorem Expr.Between.mono {lo hi lo' hi' : Nat} {e : Expr} (h : e.Between lo hi) (hlo : lo' ≤ lo)
    (hhi : hi ≤ hi') : e.Between lo' hi' := fun he => (h he).mono hlo hhi

/-- A bounded expression reaches neither before nor behind two positions. -/
def Expr.Inside (lo hi : Nat) (e : Expr) : Prop := e.isBounded = true → lo ≤ e.start ∧ e.stop ≤ hi

theorem Expr.Between.inside {lo hi : Nat} {e : Expr} (h : e.Between lo hi) : e.Inside lo hi :=
  fun he => ⟨(h he).start, (h he).stop⟩

mutual

/-- All trees in the expression are nested. -/
def Expr.IsNested : Expr → Prop
  | .array elements s => Element.AllNested s.start s.stop elements
  | .object props s => Property.AllNested s.start s.stop props
  | .template _ holes _ => Expr.AllNested holes
  | .paren e s | .asType e s | .asConst e s => e.IsNested ∧ e.Inside s.start s.stop
  | .minus e _ => e.IsNested
  | .compound _ parts _ => Part.AllNested parts
  | _ => True

def Expr.AllNested : List Expr → Prop
  | [] => True
  | e :: rest => e.IsNested ∧ Expr.AllNested rest

/-- The element is nested, and its value stands between two positions. -/
def Element.IsNested (lo hi : Nat) : Element → Prop
  | .hole => True
  | .item e => e.IsNested ∧ e.Between lo hi
  | .spread e => e.IsNested

/-- The elements stand one behind the other between two positions. -/
def Element.AllNested : (lo hi : Nat) → List Element → Prop
  | lo, hi, [] => lo ≤ hi
  | lo, hi, e :: rest => ∃ mid, lo ≤ mid ∧ e.IsNested lo mid ∧ Element.AllNested mid hi rest

/-- The property is nested, and its key and its value stand between two positions, a value that was
read behind the key. -/
def Property.IsNested (lo hi : Nat) : Property → Prop
  | .field key e => (key.IsNested ∧ key.span.Between lo hi) ∧ e.IsNested ∧ e.Between lo hi ∧
    (e.form? = none → e.Between key.span.stop hi)
  | .shorthand _ s => s.Between lo hi
  | .spread e => e.IsNested
  | .default _ e s => e.IsNested ∧ (e.isBounded = true → s.Between lo hi)
  | .method parts s => Part.AllNested parts ∧ s.Between lo hi

/-- The properties stand one behind the other between two positions. -/
def Property.AllNested : (lo hi : Nat) → List Property → Prop
  | lo, hi, [] => lo ≤ hi
  | lo, hi, p :: rest => ∃ mid, lo ≤ mid ∧ p.IsNested lo mid ∧ Property.AllNested mid hi rest

def Key.IsNested : Key → Prop
  | .computed parts _ => Part.AllNested parts
  | _ => True

/-- All trees in the part are nested. -/
def Part.IsNested : Part → Prop
  | .expr e => e.IsNested
  | .declaration declarators => Declarator.AllNested declarators
  | .imports _ _ _ => True
  | .scope parts => Part.AllNested parts

def Part.AllNested : List Part → Prop
  | [] => True
  | p :: rest => p.IsNested ∧ Part.AllNested rest

def Declarator.IsNested : Declarator → Prop
  | .mk _ _ inPattern none => Part.AllNested inPattern
  | .mk _ _ inPattern (some e) => Part.AllNested inPattern ∧ e.IsNested

def Declarator.AllNested : List Declarator → Prop
  | [] => True
  | d :: rest => d.IsNested ∧ Declarator.AllNested rest

end

/-- Values that hold trees: what it means that these are nested and stand between two
positions. -/
class Nested (α : Type) where
  between : (lo hi : Nat) → α → Prop
  mono {lo hi lo' hi' : Nat} {a : α} (h : between lo hi a) (hlo : lo' ≤ lo) (hhi : hi ≤ hi') :
    between lo' hi' a

namespace Nested

instance : Nested Bool := ⟨fun _ _ _ => True, fun _ _ _ => trivial⟩

instance : Nested Unit := ⟨fun _ _ _ => True, fun _ _ _ => trivial⟩

instance : Nested Char := ⟨fun _ _ _ => True, fun _ _ _ => trivial⟩

instance : Nested Expr :=
  ⟨fun lo hi e => e.IsNested ∧ e.Between lo hi, fun h hlo hhi => ⟨h.1, h.2.mono hlo hhi⟩⟩

instance : Nested Element where
  between lo hi e := e.IsNested lo hi
  mono {_ _ _ _ e} h hlo hhi := by
    cases e with
    | hole => trivial
    | item e => exact ⟨h.1, h.2.mono hlo hhi⟩
    | spread e => exact h

instance : Nested Property where
  between lo hi p := p.IsNested lo hi
  mono {_ _ _ _ p} h hlo hhi := by
    cases p with
    | field key e =>
      obtain ⟨⟨hkey, hspan⟩, he, hvalue, hbehind⟩ := h
      exact ⟨⟨hkey, hspan.mono hlo hhi⟩, he, hvalue.mono hlo hhi, fun hform =>
        (hbehind hform).mono (Nat.le_refl _) hhi⟩
    | shorthand name s => exact Span.Between.mono h hlo hhi
    | spread e => exact h
    | default name e s => exact ⟨h.1, fun hb => (h.2 hb).mono hlo hhi⟩
    | method parts s => exact ⟨h.1, h.2.mono hlo hhi⟩

instance : Nested Key :=
  ⟨fun lo hi k => k.IsNested ∧ k.span.Between lo hi, fun h hlo hhi => ⟨h.1, h.2.mono hlo hhi⟩⟩

instance : Nested Part := ⟨fun _ _ p => p.IsNested, fun h _ _ => h⟩

instance : Nested Declarator := ⟨fun _ _ d => d.IsNested, fun h _ _ => h⟩

instance : Nested Target := ⟨fun _ _ t => Part.AllNested t.inside, fun h _ _ => h⟩

instance : Nested Item where
  between lo hi i := Part.AllNested i.parts ∧ ∀ e, i.value? = some e → e.Between lo hi
  mono h hlo hhi := ⟨h.1, fun e he => (h.2 e he).mono hlo hhi⟩

variable {α β : Type} [Nested α] [Nested β]

instance : Nested (List α) :=
  ⟨fun lo hi l => ∀ a ∈ l, between lo hi a, fun h hlo hhi a ha => mono (h a ha) hlo hhi⟩

instance : Nested (Option α) :=
  ⟨fun lo hi o => ∀ a ∈ o, between lo hi a, fun h hlo hhi a ha => mono (h a ha) hlo hhi⟩

instance : Nested (α × β) :=
  ⟨fun lo hi x => between lo hi x.1 ∧ between lo hi x.2, fun h hlo hhi =>
    ⟨mono h.1 hlo hhi, mono h.2 hlo hhi⟩⟩

/-- Values that stand one behind the other between two positions. -/
def Chained : (lo hi : Nat) → List α → Prop
  | lo, hi, [] => lo ≤ hi
  | lo, hi, a :: rest => ∃ mid, lo ≤ mid ∧ between lo mid a ∧ Chained mid hi rest

theorem Chained.mono {lo hi lo' hi' : Nat} {l : List α} (h : Chained lo hi l) (hlo : lo' ≤ lo)
    (hhi : hi ≤ hi') : Chained lo' hi' l := by
  induction l generalizing lo lo' with
  | nil => exact Nat.le_trans hlo (Nat.le_trans h hhi)
  | cons a l ih =>
    obtain ⟨mid, hmid, ha, hl⟩ := h
    exact ⟨mid, Nat.le_trans hlo hmid, Nested.mono ha hlo (Nat.le_refl _), ih hl (Nat.le_refl _)⟩

theorem Chained.le {lo hi : Nat} {l : List α} (h : Chained lo hi l) : lo ≤ hi := by
  induction l generalizing lo with
  | nil => exact h
  | cons a l ih =>
    obtain ⟨mid, hmid, -, hl⟩ := h
    exact Nat.le_trans hmid (ih hl)

end Nested

open Nested

@[simp] theorem Expr.allNested_iff {l : List Expr} : Expr.AllNested l ↔ ∀ e ∈ l, e.IsNested := by
  induction l with
  | nil => simp [Expr.AllNested]
  | cons e l ih => simp [Expr.AllNested, ih]

@[simp] theorem Part.allNested_iff {l : List Part} : Part.AllNested l ↔ ∀ p ∈ l, p.IsNested := by
  induction l with
  | nil => simp [Part.AllNested]
  | cons p l ih => simp [Part.AllNested, ih]

@[simp] theorem Declarator.allNested_iff {l : List Declarator} :
    Declarator.AllNested l ↔ ∀ d ∈ l, d.IsNested := by
  induction l with
  | nil => simp [Declarator.AllNested]
  | cons d l ih => simp [Declarator.AllNested, ih]

theorem Element.allNested_iff {lo hi : Nat} {l : List Element} :
    Element.AllNested lo hi l ↔ Chained lo hi l := by
  induction l generalizing lo with
  | nil => rw [Element.AllNested, Chained]
  | cons e l ih => simp only [Element.AllNested, Chained, ih]; rfl

theorem Property.allNested_iff {lo hi : Nat} {l : List Property} :
    Property.AllNested lo hi l ↔ Chained lo hi l := by
  induction l generalizing lo with
  | nil => rw [Property.AllNested, Chained]
  | cons p l ih => simp only [Property.AllNested, Chained, ih]; rfl

section Forms

variable {α β : Type} [Nested α] [Nested β] {lo hi : Nat}

@[simp] theorem between_bool (b : Bool) : between lo hi b := trivial

@[simp] theorem between_char (c : Char) : between lo hi c := trivial

@[simp] theorem between_expr {e : Expr} : between lo hi e ↔ e.IsNested ∧ e.Between lo hi := Iff.rfl

@[simp] theorem between_element {e : Element} : between lo hi e ↔ e.IsNested lo hi := Iff.rfl

@[simp] theorem between_property {p : Property} : between lo hi p ↔ p.IsNested lo hi := Iff.rfl

@[simp] theorem between_part {p : Part} : between lo hi p ↔ p.IsNested := Iff.rfl

@[simp] theorem between_declarator {d : Declarator} : between lo hi d ↔ d.IsNested := Iff.rfl

@[simp] theorem between_key {k : Key} : between lo hi k ↔ k.IsNested ∧ k.span.Between lo hi := Iff.rfl

@[simp] theorem between_target {t : Target} : between lo hi t ↔ ∀ p ∈ t.inside, p.IsNested :=
  Part.allNested_iff

@[simp] theorem between_item {i : Item} : between lo hi i ↔
    (∀ p ∈ i.parts, p.IsNested) ∧ ∀ e, i.value? = some e → e.Between lo hi :=
  and_congr_left' Part.allNested_iff

@[simp] theorem between_list {l : List α} : between lo hi l ↔ ∀ a ∈ l, between lo hi a := Iff.rfl

@[simp] theorem between_option {o : Option α} :
    between lo hi o ↔ ∀ a, o = some a → between lo hi a := Iff.rfl

@[simp] theorem between_prod {x : α × β} :
    between lo hi x ↔ between lo hi x.1 ∧ between lo hi x.2 := Iff.rfl

@[simp] theorem Part.isNested_expr {e : Expr} : (Part.expr e).IsNested ↔ e.IsNested := by
  rw [Part.IsNested]

@[simp] theorem Part.isNested_scope {parts : List Part} :
    (Part.scope parts).IsNested ↔ ∀ p ∈ parts, p.IsNested := by
  rw [Part.IsNested, Part.allNested_iff]

@[simp] theorem Part.isNested_imports (locals : List Text) (source : Text) (s : Span) :
    (Part.imports locals source s).IsNested := by
  rw [Part.IsNested]
  trivial

@[simp] theorem Part.isNested_declaration {declarators : List Declarator} :
    (Part.declaration declarators).IsNested ↔ ∀ d ∈ declarators, d.IsNested := by
  rw [Part.IsNested, Declarator.allNested_iff]

@[simp] theorem Declarator.isNested_mk {name : Option Text} {isArray : Bool}
    {inPattern : List Part} {init : Option Expr} :
    (Declarator.mk name isArray inPattern init).IsNested ↔
      (∀ p ∈ inPattern, p.IsNested) ∧ ∀ e, init = some e → e.IsNested := by
  cases init <;> simp [Declarator.IsNested]

@[simp] theorem Expr.isNested_compound {form : Form} {parts : List Part} {s : Span} :
    (Expr.compound form parts s).IsNested ↔ ∀ p ∈ parts, p.IsNested := by
  rw [Expr.IsNested, Part.allNested_iff]

theorem Part.allBounded_iff {l : List Part} :
    Part.allBounded l = true ↔ ∀ e, Part.expr e ∈ l → e.isBounded = true := by
  induction l with
  | nil => simp [Part.allBounded]
  | cons p l ih => cases p <;> simp [Part.allBounded, ih, or_imp, forall_and]

theorem Expr.isBounded_compound {form : Form} {parts : List Part} {s : Span} :
    (Expr.compound form parts s).isBounded = true ↔
      (Expr.compound form parts s).isMissing = false ∧ ∀ e, Part.expr e ∈ parts → e.isBounded = true := by
  rw [Expr.isBounded, Bool.and_eq_true, Bool.not_eq_true', Part.allBounded_iff]

/-- The span of a compound expression has to be known only where those of its operands are. -/
theorem between_compound {form : Form} {parts : List Part} {s : Span}
    (hparts : ∀ p ∈ parts, p.IsNested)
    (hspan : (∀ e, Part.expr e ∈ parts → e.isBounded = true) → s.Between lo hi) :
    between lo hi (Expr.compound form parts s) :=
  ⟨Expr.isNested_compound.2 hparts, fun hb => hspan (Expr.isBounded_compound.1 hb).2⟩

/-- What is put together from an expression on reaches from its start. -/
theorem between_behind {base : Expr} (h : between lo hi base) {form : Form} {parts : List Part}
    (hparts : ∀ p ∈ parts, p.IsNested) (hbase : Part.expr base ∈ parts) {hi' : Nat} (hle : hi ≤ hi') :
    between lo hi' (Expr.compound form parts ⟨base.start, hi'⟩) :=
  between_compound hparts fun hb => ((h.2 (hb base hbase)).mono (Nat.le_refl _) hle).extend

@[simp] theorem Expr.isNested_paren {e : Expr} {s : Span} :
    (Expr.paren e s).IsNested ↔ e.IsNested ∧ e.Inside s.start s.stop := by rw [Expr.IsNested]

@[simp] theorem Expr.isNested_asType {e : Expr} {s : Span} :
    (Expr.asType e s).IsNested ↔ e.IsNested ∧ e.Inside s.start s.stop := by rw [Expr.IsNested]

@[simp] theorem Expr.isNested_asConst {e : Expr} {s : Span} :
    (Expr.asConst e s).IsNested ↔ e.IsNested ∧ e.Inside s.start s.stop := by rw [Expr.IsNested]

@[simp] theorem Element.isNested_hole : Element.hole.IsNested lo hi := by
  rw [Element.IsNested]
  trivial

@[simp] theorem Element.isNested_item {e : Expr} :
    (Element.item e).IsNested lo hi ↔ e.IsNested ∧ e.Between lo hi := by rw [Element.IsNested]

@[simp] theorem Element.isNested_spread {e : Expr} :
    (Element.spread e).IsNested lo hi ↔ e.IsNested := by rw [Element.IsNested]

@[simp] theorem Property.isNested_field {key : Key} {e : Expr} :
    (Property.field key e).IsNested lo hi ↔
      (key.IsNested ∧ key.span.Between lo hi) ∧ e.IsNested ∧ e.Between lo hi ∧
        (e.form? = none → e.Between key.span.stop hi) := by
  rw [Property.IsNested]

@[simp] theorem Property.isNested_shorthand {name : Text} {s : Span} :
    (Property.shorthand name s).IsNested lo hi ↔ s.Between lo hi := by
  rw [Property.IsNested]

@[simp] theorem Property.isNested_spread {e : Expr} :
    (Property.spread e).IsNested lo hi ↔ e.IsNested := by rw [Property.IsNested]

@[simp] theorem Property.isNested_default {name : Text} {e : Expr} {s : Span} :
    (Property.default name e s).IsNested lo hi ↔
      e.IsNested ∧ (e.isBounded = true → s.Between lo hi) := by rw [Property.IsNested]

@[simp] theorem Property.isNested_method {parts : List Part} {s : Span} :
    (Property.method parts s).IsNested lo hi ↔ (∀ p ∈ parts, p.IsNested) ∧ s.Between lo hi := by
  rw [Property.IsNested, Part.allNested_iff]

@[simp] theorem Key.isNested_parts {k : Key} : (∀ p ∈ k.parts, p.IsNested) ↔ k.IsNested := by
  cases k <;> simp [Key.parts, Key.IsNested]

end Forms

end Script
end RoutePages
