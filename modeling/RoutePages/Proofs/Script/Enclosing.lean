import RoutePages.Proofs.Script.PlainData
import RoutePages.Proofs.Script.Statements

/-!
# Where parsed data is rejected

In the trees of a module the spans of values lie within those of what holds them, where no
operand was let pass. A construct that is no data is then rejected within the expression that is
evaluated, at whatever depth of the module this stands.
-/
namespace RoutePages

theorem Span.Between.within {lo hi : Nat} {inner outer : Span} (h : inner.Between lo hi)
    (hlo : outer.start ≤ lo) (hhi : hi ≤ outer.stop) : inner.Within outer :=
  ⟨Nat.le_trans hlo h.start, Nat.le_trans h.stop hhi⟩

namespace Script

/-- Every operand of the expression, at any depth, was read. -/
def Expr.IsWhole (e : Expr) : Prop := ∀ x : Expr, x.StandsIn e → x.isMissing = false

theorem Expr.IsWhole.values {outer inner : Expr} (h : outer.IsWhole) (hinner : inner ∈ outer.values) :
    inner.IsWhole := fun x hx => h x (hx.tail hinner)

mutual

theorem Expr.IsWhole.isBounded : (e : Expr) → e.IsWhole → e.isBounded = true
  | .minus e _, h | .asType e _, h | .asConst e _, h =>
    Expr.IsWhole.isBounded e (h.values (List.mem_singleton_self e))
  | .compound form parts s, h => by
    rw [Expr.isBounded, h _ .refl]
    exact Part.allBounded_of_isWhole parts fun x hx => h.values hx
  | .null _, _ | .bool _ _, _ | .number _ _, _ | .bigint _, _ | .string _ _, _ | .regex _, _
  | .template _ _ _, _ | .ident _ _, _ | .array _ _, _ | .object _ _, _ | .paren _ _, _ => rfl

theorem Part.allBounded_of_isWhole :
    (parts : List Part) → (∀ x ∈ Part.allValues parts, x.IsWhole) → Part.allBounded parts = true
  | [], _ => rfl
  | .expr e :: rest, h => by
    obtain ⟨he, hrest⟩ := List.forall_mem_append.1 h
    rw [Part.allBounded, Expr.IsWhole.isBounded e (he e (List.mem_singleton_self e))]
    exact Part.allBounded_of_isWhole rest hrest
  | .declaration _ :: rest, h | .imports _ _ _ :: rest, h | .scope _ :: rest, h =>
    Part.allBounded_of_isWhole rest (List.forall_mem_append.1 h).2

end

/-! ## What stands in nested trees -/

mutual

theorem Part.nested_of_mem_values {x : Expr} : (p : Part) → p.IsNested → x ∈ p.values → x.IsNested
  | .expr e, h, hx => by
    cases List.mem_singleton.1 hx
    exact h
  | .declaration declarators, h, hx => Declarator.nested_of_mem_allValues declarators h hx
  | .scope parts, h, hx => Part.nested_of_mem_allValues parts h hx

theorem Part.nested_of_mem_allValues {x : Expr} :
    (parts : List Part) → Part.AllNested parts → x ∈ Part.allValues parts → x.IsNested
  | p :: rest, h, hx => by
    rcases List.mem_append.1 hx with hx | hx
    · exact Part.nested_of_mem_values p h.1 hx
    · exact Part.nested_of_mem_allValues rest h.2 hx

theorem Declarator.nested_of_mem_allValues {x : Expr} : (declarators : List Declarator) →
    Declarator.AllNested declarators → x ∈ Declarator.allValues declarators → x.IsNested
  | .mk name isArray inPattern none :: rest, h, hx => by
    rcases List.mem_append.1 hx with hx | hx
    · rw [Option.toList_none, List.append_nil] at hx
      exact Part.nested_of_mem_allValues inPattern h.1 hx
    · exact Declarator.nested_of_mem_allValues rest h.2 hx
  | .mk name isArray inPattern (some e) :: rest, h, hx => by
    obtain ⟨⟨hpattern, he⟩, hrest⟩ := h
    rcases List.mem_append.1 hx with hx | hx
    · rcases List.mem_append.1 hx with hx | hx
      · exact Part.nested_of_mem_allValues inPattern hpattern hx
      · cases List.mem_singleton.1 hx
        exact he
    · exact Declarator.nested_of_mem_allValues rest hrest hx

end

theorem Element.nested_of_mem_values {x : Expr} {lo hi : Nat} {elements : List Element}
    (h : Element.AllNested lo hi elements) (hx : x ∈ elements.flatMap Element.values) :
    x.IsNested := by
  induction elements generalizing lo with
  | nil => cases hx
  | cons element rest ih =>
    obtain ⟨mid, -, helement, hrest⟩ := h
    rcases List.mem_append.1 hx with hx | hx
    · cases element with
      | hole => cases hx
      | item e =>
        cases List.mem_singleton.1 hx
        exact helement.1
      | spread e =>
        cases List.mem_singleton.1 hx
        exact helement
    · exact ih hrest hx

theorem Key.nested_of_mem_parts {x : Expr} {key : Key} (h : key.IsNested)
    (hx : x ∈ Part.allValues key.parts) : x.IsNested := by
  cases key with
  | name | string | number | bigint => cases hx
  | computed parts s => exact Part.nested_of_mem_allValues parts h hx

theorem Property.nested_of_mem_values {x : Expr} {lo hi : Nat} {props : List Property}
    (h : Property.AllNested lo hi props) (hx : x ∈ props.flatMap Property.values) :
    x.IsNested := by
  induction props generalizing lo with
  | nil => cases hx
  | cons prop rest ih =>
    obtain ⟨mid, -, hprop, hrest⟩ := h
    rcases List.mem_append.1 hx with hx | hx
    · cases prop with
      | field key e =>
        obtain ⟨⟨hkey, -⟩, he, -⟩ := hprop
        rcases List.mem_append.1 hx with hx | hx
        · exact Key.nested_of_mem_parts hkey hx
        · cases List.mem_singleton.1 hx
          exact he
      | shorthand name s => cases hx
      | spread e =>
        cases List.mem_singleton.1 hx
        exact hprop
      | default name e s =>
        cases List.mem_singleton.1 hx
        exact hprop.1
      | method parts s => exact Part.nested_of_mem_allValues parts hprop.1 hx
    · exact ih hrest hx

theorem Expr.IsNested.values {outer inner : Expr} (h : outer.IsNested)
    (hinner : inner ∈ outer.values) : inner.IsNested := by
  cases outer with
  | null | bool | number | bigint | string | regex | ident => cases hinner
  | template pieces holes s => exact Expr.allNested_iff.1 h inner hinner
  | paren e s | asType e s | asConst e s =>
    cases List.mem_singleton.1 hinner
    exact h.1
  | minus e s =>
    cases List.mem_singleton.1 hinner
    exact h
  | array elements s => exact Element.nested_of_mem_values h hinner
  | object props s => exact Property.nested_of_mem_values h hinner
  | compound form parts s => exact Part.nested_of_mem_allValues parts h hinner

theorem Expr.IsNested.standsIn {outer e : Expr} (h : outer.IsNested) (he : e.StandsIn outer) :
    e.IsNested := by
  induction he using Relation.ReflTransGen.head_induction_on with
  | refl => exact h
  | head he _ ih => exact ih.values he

/-! ## Spans within spans -/

mutual

theorem Expr.isEnclosing_of_isNested : (e : Expr) → e.IsNested → e.IsWhole → e.IsEnclosing
  | .paren inner s, h, hwhole | .asType inner s, h, hwhole | .asConst inner s, h, hwhole => by
    have hinner := hwhole.values (List.mem_singleton_self inner)
    obtain ⟨hstart, hstop⟩ := h.2 hinner.isBounded
    exact ⟨⟨hstart, hstop⟩, Expr.isEnclosing_of_isNested inner h.1 hinner⟩
  | .array elements s, h, hwhole =>
    Element.allEnclosed_of_allNested s elements (Nat.le_refl _) h fun x hx => hwhole.values hx
  | .object props s, h, hwhole =>
    Property.allEnclosed_of_allNested s props (Nat.le_refl _) h fun x hx => hwhole.values hx
  | .null _, _, _ | .bool _ _, _, _ | .number _ _, _, _ | .bigint _, _, _ | .string _ _, _, _
  | .regex _, _, _ | .template _ _ _, _, _ | .ident _ _, _, _ | .minus _ _, _, _
  | .compound _ _ _, _, _ => trivial

theorem Element.allEnclosed_of_allNested (whole : Span) {lo : Nat} : (elements : List Element) →
    whole.start ≤ lo → Element.AllNested lo whole.stop elements →
    (∀ x ∈ elements.flatMap Element.values, x.IsWhole) → Element.AllEnclosed whole elements
  | [], _, _, _ => trivial
  | .hole :: rest, hlo, ⟨_, hmid, _, hrest⟩, hwhole =>
    Element.allEnclosed_of_allNested whole rest (Nat.le_trans hlo hmid) hrest hwhole
  | .spread e :: rest, hlo, ⟨_, hmid, _, hrest⟩, hwhole =>
    Element.allEnclosed_of_allNested whole rest (Nat.le_trans hlo hmid) hrest
      (List.forall_mem_cons.1 hwhole).2
  | .item e :: rest, hlo, ⟨mid, hmid, ⟨he, hbetween⟩, hrest⟩, hwhole => by
    obtain ⟨hvalue, hmore⟩ := List.forall_mem_cons.1 hwhole
    have hstop : mid ≤ whole.stop := (Element.allNested_iff.1 hrest).le
    exact ⟨⟨(hbetween hvalue.isBounded).within hlo hstop, Expr.isEnclosing_of_isNested e he hvalue⟩,
      Element.allEnclosed_of_allNested whole rest (Nat.le_trans hlo hmid) hrest hmore⟩

theorem Property.allEnclosed_of_allNested (whole : Span) {lo : Nat} : (props : List Property) →
    whole.start ≤ lo → Property.AllNested lo whole.stop props →
    (∀ x ∈ props.flatMap Property.values, x.IsWhole) → Property.AllEnclosed whole props
  | [], _, _, _ => trivial
  | .shorthand _ _ :: rest, hlo, ⟨_, hmid, _, hrest⟩, hwhole =>
    Property.allEnclosed_of_allNested whole rest (Nat.le_trans hlo hmid) hrest hwhole
  | .spread e :: rest, hlo, ⟨_, hmid, _, hrest⟩, hwhole =>
    Property.allEnclosed_of_allNested whole rest (Nat.le_trans hlo hmid) hrest
      (List.forall_mem_cons.1 hwhole).2
  | .default _ e s :: rest, hlo, ⟨mid, hmid, ⟨_, hbetween⟩, hrest⟩, hwhole => by
    obtain ⟨hvalue, hmore⟩ := List.forall_mem_cons.1 hwhole
    have hstop : mid ≤ whole.stop := (Property.allNested_iff.1 hrest).le
    exact ⟨(hbetween hvalue.isBounded).within hlo hstop,
      Property.allEnclosed_of_allNested whole rest (Nat.le_trans hlo hmid) hrest hmore⟩
  | .method parts s :: rest, hlo, ⟨mid, hmid, ⟨_, hbetween⟩, hrest⟩, hwhole => by
    have hstop : mid ≤ whole.stop := (Property.allNested_iff.1 hrest).le
    exact ⟨hbetween.within hlo hstop,
      Property.allEnclosed_of_allNested whole rest (Nat.le_trans hlo hmid) hrest
        (List.forall_mem_append.1 hwhole).2⟩
  | .field key e :: rest, hlo, ⟨mid, hmid, ⟨⟨_, hkey⟩, he, hbetween, _⟩, hrest⟩, hwhole => by
    obtain ⟨hhere, hmore⟩ := List.forall_mem_append.1 hwhole
    have hvalue : e.IsWhole := hhere e (List.mem_append_right _ (List.mem_singleton_self e))
    have hstop : mid ≤ whole.stop := (Property.allNested_iff.1 hrest).le
    exact ⟨⟨hkey.within hlo hstop, (hbetween hvalue.isBounded).within hlo hstop,
      Expr.isEnclosing_of_isNested e he hvalue⟩,
      Property.allEnclosed_of_allNested whole rest (Nat.le_trans hlo hmid) hrest hmore⟩

end

/-! ## Modules -/

section Modules

variable {markup : Bool} {source : Text} {parts : List Part} {outer e : Expr}

/-- In every expression of a module, at any depth, spans lie within those of what holds them, where
no operand was let pass. -/
theorem parseModule_isEnclosing (h : parseModule markup source = .ok parts)
    (houter : outer ∈ Part.allValues parts) (he : e.StandsIn outer) (hwhole : e.IsWhole) :
    e.IsEnclosing := by
  have hparts : Part.AllNested parts := Part.allNested_iff.2 (parseModule_nested h)
  have hnested := (Part.nested_of_mem_allValues parts hparts houter).standsIn he
  exact e.isEnclosing_of_isNested hnested hwhole

/-- What is rejected in a module lies in the expression that is evaluated. -/
theorem parseModule_rejects_within (h : parseModule markup source = .ok parts)
    (houter : outer ∈ Part.allValues parts) (he : e.StandsIn outer) (hwhole : e.IsWhole)
    {r : Rejection} (hr : e.evaluate = .error r) : r.span.Within e.span := by
  have hfirst : e.offences.head? = some r := by rw [← e.failure?_evaluate, failure?_eq_some, hr]
  exact e.within_of_mem_offences (parseModule_isEnclosing h houter he hwhole)
    (List.mem_of_head? hfirst)

end Modules

end Script
end RoutePages
