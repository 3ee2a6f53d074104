import RoutePages.Proofs.Succeeds
import RoutePages.Script.Literal

/-!
# Trees without their spans

Two trees are the same but for where they were read when they agree once all spans are
taken away. What an expression evaluates to does not depend on its spans.
-/
namespace RoutePages.Script

/-- The span of what was read nowhere. -/
def nowhere : Span := ⟨0, 0⟩

mutual

def Expr.bare : Expr → Expr
  | .null _ => .null nowhere
  | .bool value _ => .bool value nowhere
  | .number value _ => .number value nowhere
  | .bigint _ => .bigint nowhere
  | .string value _ => .string value nowhere
  | .regex _ => .regex nowhere
  | .ident name _ => .ident name nowhere
  | .template pieces holes _ => .template pieces (Expr.allBare holes) nowhere
  | .paren inner _ => .paren inner.bare nowhere
  | .asType inner _ => .asType inner.bare nowhere
  | .asConst inner _ => .asConst inner.bare nowhere
  | .minus operand _ => .minus operand.bare nowhere
  | .array elements _ => .array (Element.allBare elements) nowhere
  | .object props _ => .object (Property.allBare props) nowhere
  | .compound form parts _ => .compound form (Part.allBare parts) nowhere

def Expr.allBare : List Expr → List Expr
  | [] => []
  | e :: rest => e.bare :: Expr.allBare rest

def Element.bare : Element → Element
  | .hole => .hole
  | .item e => .item e.bare
  | .spread e => .spread e.bare

def Element.allBare : List Element → List Element
  | [] => []
  | e :: rest => e.bare :: Element.allBare rest

def Property.bare : Property → Property
  | .field key e => .field key.bare e.bare
  | .shorthand name _ => .shorthand name nowhere
  | .spread e => .spread e.bare
  | .default name e _ => .default name e.bare nowhere
  | .method parts _ => .method (Part.allBare parts) nowhere

def Property.allBare : List Property → List Property
  | [] => []
  | p :: rest => p.bare :: Property.allBare rest

def Key.bare : Key → Key
  | .name value _ => .name value nowhere
  | .string value _ => .string value nowhere
  | .number value _ => .number value nowhere
  | .bigint _ => .bigint nowhere
  | .computed parts _ => .computed (Part.allBare parts) nowhere

def Part.bare : Part → Part
  | .expr e => .expr e.bare
  | .declaration declarators => .declaration (Declarator.allBare declarators)
  | .imports locals source _ => .imports locals source nowhere
  | .scope parts => .scope (Part.allBare parts)

def Part.allBare : List Part → List Part
  | [] => []
  | p :: rest => p.bare :: Part.allBare rest

def Declarator.bare : Declarator → Declarator
  | .mk name isArray inPattern none => .mk name isArray (Part.allBare inPattern) none
  | .mk name isArray inPattern (some e) =>
    .mk name isArray (Part.allBare inPattern) (some e.bare)

def Declarator.allBare : List Declarator → List Declarator
  | [] => []
  | d :: rest => d.bare :: Declarator.allBare rest

end

@[simp] theorem Key.bare_text? (k : Key) : k.bare.text? = k.text? := by
  cases k <;> simp [Key.bare, Key.text?]

theorem Key.bare_span (k : Key) : k.bare.span = nowhere := by
  cases k <;> rfl

theorem Expr.bare_span (e : Expr) : e.bare.span = nowhere := by
  cases e <;> rfl

mutual

/-- What an expression evaluates to does not depend on where it was read. -/
theorem Expr.evaluate_bare : (e : Expr) → e.bare.evaluate.toOption = e.evaluate.toOption
  | .paren inner _ => by
    rw [Expr.bare, Expr.evaluate, Expr.evaluate]
    exact Expr.evaluate_bare inner
  | .asType inner _ => by
    rw [Expr.bare, Expr.evaluate, Expr.evaluate]
    exact Expr.evaluate_bare inner
  | .asConst inner _ => by
    rw [Expr.bare, Expr.evaluate, Expr.evaluate]
    exact Expr.evaluate_bare inner
  | .minus operand _ => by cases operand <;> rfl
  | .template pieces holes _ => by
    rw [Expr.bare]
    cases holes with
    | cons => rcases pieces with _ | ⟨_, _ | _⟩ <;> rfl
    | nil => rcases pieces with _ | ⟨_, _ | _⟩ <;> rfl
  | .array elements whole => by
    rw [Expr.bare, Expr.evaluate, Expr.evaluate, toOption_map, toOption_map,
      Element.evaluateAll_bare whole nowhere elements]
  | .object props whole => by
    rw [Expr.bare, Expr.evaluate, Expr.evaluate, toOption_map, toOption_map,
      Property.evaluateAll_bare whole nowhere props]
  | .null _ | .bool _ _ | .number _ _ | .bigint _ | .string _ _ | .regex _ | .ident _ _
  | .compound _ _ _ => rfl

theorem Element.evaluateAll_bare (whole whole' : Span) : (elements : List Element) →
    (Element.evaluateAll whole' (Element.allBare elements)).toOption =
      (Element.evaluateAll whole elements).toOption
  | [] => rfl
  | .hole :: _ => rfl
  | .spread _ :: _ => rfl
  | .item e :: rest => by
    rw [Element.allBare, Element.bare, Element.evaluateAll, Element.evaluateAll, toOption_bind, toOption_bind,
      Expr.evaluate_bare e]
    simp only [toOption_bind, Element.evaluateAll_bare whole whole' rest]

theorem Property.evaluateAll_bare (whole whole' : Span) : (props : List Property) →
    (Property.evaluateAll whole' (Property.allBare props)).toOption =
      (Property.evaluateAll whole props).toOption
  | [] => rfl
  | .spread _ :: _ => rfl
  | .default _ _ _ :: _ => rfl
  | .method _ _ :: _ => rfl
  | .shorthand name _ :: rest => by
    rw [Property.allBare, Property.bare, Property.evaluateAll, Property.evaluateAll, toOption_bind, toOption_bind,
      Property.evaluateAll_bare whole whole' rest]
  | .field key e :: rest => by
    rw [Property.allBare, Property.bare, Property.evaluateAll, Property.evaluateAll, Key.bare_text?]
    cases key.text? with
    | none => rfl
    | some name =>
      simp only [toOption_bind, Expr.evaluate_bare e, Property.evaluateAll_bare whole whole' rest]

end

end RoutePages.Script
