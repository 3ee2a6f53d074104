import RoutePages.Proofs.Route.Data
import RoutePages.Proofs.Route.Read

/-!
# What is passed over

Some of a route array is passed over when its entries are read, although it is evaluated: objects
and arrays in parentheses or with an asserted type, and most shorthand fields. What is left is an
array of its own.
-/
namespace RoutePages

namespace Script

/-- The expression inside parentheses and type assertions. -/
def Expr.unwrapped : Expr → Expr
  | .paren inner _ | .asType inner _ | .asConst inner _ => inner.unwrapped
  | value => value

def Expr.isObject : Expr → Bool
  | .object _ _ => true
  | _ => false

def Expr.isArray : Expr → Bool
  | .array _ _ => true
  | _ => false

/-- Is the shorthand field passed over, while a field `name: name` would be read? -/
def isUnread (name : Text) : Bool := name == "name" || (Directive.ofKey? name).isSome

mutual

/-- What of an element is not passed over. -/
def Element.read : Element → List Element
  | .item (.object props span) => [.item (.object (Property.allRead props) span)]
  | .item value => if value.unwrapped.isObject then [] else [.item value]
  | element => [element]

def Element.allRead : List Element → List Element
  | [] => []
  | element :: rest => element.read ++ Element.allRead rest

/-- What of a property is not passed over. -/
def Property.read : Property → List Property
  | .field key (.array elements span) =>
    if key.text?.any holdsChildren then [.field key (.array (Element.allRead elements) span)]
    else [.field key (.array elements span)]
  | .field key value =>
    if key.text?.any holdsChildren && value.unwrapped.isArray then [] else [.field key value]
  | .shorthand name span => if isUnread name then [] else [.shorthand name span]
  | prop => [prop]

def Property.allRead : List Property → List Property
  | [] => []
  | prop :: rest => prop.read ++ Property.allRead rest

end

theorem Property.read_field {key : Key} {value : Expr} (h : key.text?.any holdsChildren = false) :
    (Property.field key value).read = [.field key value] := by
  obtain ⟨elements, span, rfl⟩ | hno := exists_array value
  · rw [Property.read, h, if_neg Bool.false_ne_true]
  · rw [Property.read, h, Bool.false_and, if_neg Bool.false_ne_true]
    exact hno

/-! ## Values of what is left -/

/-- What is an object or an array inside its wrappers is one of those as a value. -/
theorem Expr.evaluate_unwrapped {value : Expr} {l : Literal} (h : value.evaluate = .ok l) :
    (value.unwrapped.isObject = false → l.entryOf? = none) ∧
      (value.unwrapped.isArray = false → ∀ items, l ≠ .array items) := by
  induction value using Expr.unwrapped.induct with
  | case1 inner span ih => exact ih h
  | case2 inner span ih => exact ih h
  | case3 inner span ih => exact ih h
  | case4 value hparen htype hconst =>
    have hself : value.unwrapped = value := by
      rw [Expr.unwrapped] <;> assumption
    rw [hself]
    cases value with
    | paren inner span => exact absurd rfl (hparen inner span)
    | asType inner span => exact absurd rfl (htype inner span)
    | asConst inner span => exact absurd rfl (hconst inner span)
    | array elements span =>
      obtain ⟨items, -, rfl⟩ := map_eq_ok.1 h
      exact ⟨fun _ => rfl, nofun⟩
    | object props span =>
      obtain ⟨fields, -, rfl⟩ := map_eq_ok.1 h
      exact ⟨nofun, fun _ => nofun⟩
    | template pieces holes span =>
      rcases pieces with _ | ⟨piece, _ | _⟩ <;> cases holes <;> cases h
      exact ⟨fun _ => rfl, fun _ => nofun⟩
    | minus operand span =>
      cases operand <;> cases h
      exact ⟨fun _ => rfl, fun _ => nofun⟩
    | _ =>
      cases h
      try exact ⟨fun _ => rfl, fun _ => nofun⟩

/-- The value that an element is. -/
inductive Element.Yields : Element → Literal → Prop
  | item {value : Expr} {l : Literal} (hvalue : value.evaluate = .ok l) : Yields (.item value) l

theorem Element.evaluateAll_cons (whole : Span) (element : Element) (rest : List Element)
    (items : List Literal) :
    Element.evaluateAll whole (element :: rest) = .ok items ↔ ∃ item more,
      element.Yields item ∧ Element.evaluateAll whole rest = .ok more ∧ items = item :: more := by
  cases element with
  | item value =>
    rw [Element.evaluateAll, bind_eq_ok]
    constructor
    · rintro ⟨l, hl, h⟩
      obtain ⟨more, hmore, hitems⟩ := bind_eq_ok.1 h
      cases hitems
      exact ⟨l, more, .item hl, hmore, rfl⟩
    · rintro ⟨l, more, ⟨hl⟩, hmore, rfl⟩
      exact ⟨l, hl, bind_eq_ok.2 ⟨more, hmore, rfl⟩⟩
  | _ =>
    constructor
    · intro h
      cases h
    · rintro ⟨_, _, ⟨⟩, -⟩

theorem Element.evaluateAll_singleton {whole : Span} {element : Element} {items : List Literal} :
    Element.evaluateAll whole [element] = .ok items ↔
      ∃ item, element.Yields item ∧ items = [item] := by
  rw [Element.evaluateAll_cons]
  constructor
  · rintro ⟨item, more, hitem, hmore, rfl⟩
    cases hmore
    exact ⟨item, hitem, rfl⟩
  · rintro ⟨item, hitem, rfl⟩
    exact ⟨item, [], hitem, rfl, rfl⟩

theorem Element.evaluateAll_append {whole : Span} {l₁ l₂ : List Element} {items : List Literal} :
    Element.evaluateAll whole (l₁ ++ l₂) = .ok items ↔ ∃ first more,
      Element.evaluateAll whole l₁ = .ok first ∧ Element.evaluateAll whole l₂ = .ok more ∧
        items = first ++ more :=
  @append_eq_ok _ _ _ (Element.evaluateAll whole) Element.Yields rfl
    (Element.evaluateAll_cons whole) _ _ _

/-- The field that a property is as a value. -/
inductive Property.Yields : Property → Text × Literal → Prop
  | field {key : Key} {name : Text} {value : Expr} {l : Literal} (hkey : key.text? = some name)
    (hvalue : value.evaluate = .ok l) : Yields (.field key value) (name, l)
  | shorthand (name : Text) (span : Span) : Yields (.shorthand name span) (name, .ident name)

theorem Property.evaluateAll_cons (whole : Span) (prop : Property) (rest : List Property)
    (fields : List (Text × Literal)) :
    Property.evaluateAll whole (prop :: rest) = .ok fields ↔ ∃ field more,
      prop.Yields field ∧ Property.evaluateAll whole rest = .ok more ∧ fields = field :: more := by
  cases prop with
  | field key value =>
    rw [Property.evaluateAll]
    constructor
    · intro h
      split at h
      · cases h
      · rename_i name hkey
        obtain ⟨l, hl, h⟩ := bind_eq_ok.1 h
        obtain ⟨more, hmore, hfields⟩ := bind_eq_ok.1 h
        cases hfields
        exact ⟨_, more, .field hkey hl, hmore, rfl⟩
    · rintro ⟨_, more, ⟨hkey, hl⟩, hmore, rfl⟩
      rw [hkey]
      exact bind_eq_ok.2 ⟨_, hl, bind_eq_ok.2 ⟨more, hmore, rfl⟩⟩
  | shorthand name span =>
    rw [Property.evaluateAll, bind_eq_ok]
    constructor
    · rintro ⟨more, hmore, hfields⟩
      cases hfields
      exact ⟨_, more, .shorthand name span, hmore, rfl⟩
    · rintro ⟨_, more, ⟨⟩, hmore, rfl⟩
      exact ⟨more, hmore, rfl⟩
  | _ =>
    constructor
    · intro h
      cases h
    · rintro ⟨_, _, ⟨⟩, -⟩

theorem Property.evaluateAll_singleton {whole : Span} {prop : Property}
    {fields : List (Text × Literal)} :
    Property.evaluateAll whole [prop] = .ok fields ↔
      ∃ field, prop.Yields field ∧ fields = [field] := by
  rw [Property.evaluateAll_cons]
  constructor
  · rintro ⟨field, more, hfield, hmore, rfl⟩
    cases hmore
    exact ⟨field, hfield, rfl⟩
  · rintro ⟨field, hfield, rfl⟩
    exact ⟨field, [], hfield, rfl, rfl⟩

theorem Property.evaluateAll_append {whole : Span} {l₁ l₂ : List Property}
    {fields : List (Text × Literal)} :
    Property.evaluateAll whole (l₁ ++ l₂) = .ok fields ↔ ∃ first more,
      Property.evaluateAll whole l₁ = .ok first ∧ Property.evaluateAll whole l₂ = .ok more ∧
        fields = first ++ more :=
  @append_eq_ok _ _ _ (Property.evaluateAll whole) Property.Yields rfl
    (Property.evaluateAll_cons whole) _ _ _

/-- What is not passed over of data is data. -/
theorem allRead_evaluates :
    (∀ element whole items, Element.evaluateAll whole [element] = .ok items →
      ∃ seen, Element.evaluateAll whole element.read = .ok seen) ∧
    (∀ props whole fields, Property.evaluateAll whole props = .ok fields →
      ∃ seen, Property.evaluateAll whole (Property.allRead props) = .ok seen) ∧
    (∀ prop whole fields, Property.evaluateAll whole [prop] = .ok fields →
      ∃ seen, Property.evaluateAll whole prop.read = .ok seen) ∧
    (∀ elements whole items, Element.evaluateAll whole elements = .ok items →
      ∃ seen, Element.evaluateAll whole (Element.allRead elements) = .ok seen) := by
  apply Element.read.mutual_induct
  -- an element: an object keeps what its properties keep
  · intro props span ih whole items h
    obtain ⟨_, ⟨hvalue⟩, -⟩ := Element.evaluateAll_singleton.1 h
    obtain ⟨fields, hfields, -⟩ := map_eq_ok.1 hvalue
    obtain ⟨seen, hseen⟩ := ih span fields hfields
    have hobject : (Expr.object (Property.allRead props) span).evaluate = .ok (.object seen) :=
      map_eq_ok.2 ⟨seen, hseen, rfl⟩
    rw [Element.read]
    exact ⟨_, Element.evaluateAll_singleton.2 ⟨_, .item hobject, rfl⟩⟩
  · intro value hno hobject whole items h
    rw [Element.read, if_pos hobject]
    · exact ⟨[], rfl⟩
    · exact hno
  · intro value hno hobject whole items h
    rw [Element.read, if_neg hobject]
    · exact ⟨items, h⟩
    · exact hno
  · intro element hno hitem whole items h
    rw [Element.read]
    · exact ⟨items, h⟩
    · exact hno
    · exact hitem
  -- a property: an array of children keeps what its elements keep
  · intro key elements span hchildren ih whole fields h
    obtain ⟨_, ⟨hkey, hvalue⟩, -⟩ := Property.evaluateAll_singleton.1 h
    obtain ⟨items, hitems, -⟩ := map_eq_ok.1 hvalue
    obtain ⟨seen, hseen⟩ := ih span items hitems
    have harray : (Expr.array (Element.allRead elements) span).evaluate = .ok (.array seen) :=
      map_eq_ok.2 ⟨seen, hseen, rfl⟩
    rw [Property.read, if_pos hchildren]
    exact ⟨_, Property.evaluateAll_singleton.2 ⟨_, .field hkey harray, rfl⟩⟩
  · intro key elements span hchildren whole fields h
    rw [Property.read, if_neg hchildren]
    exact ⟨fields, h⟩
  · intro key value hno hwrapped whole fields h
    rw [Property.read, if_pos hwrapped]
    · exact ⟨[], rfl⟩
    · exact hno
  · intro key value hno hwrapped whole fields h
    rw [Property.read, if_neg hwrapped]
    · exact ⟨fields, h⟩
    · exact hno
  · intro name span hunread whole fields h
    rw [Property.read, if_pos hunread]
    exact ⟨[], rfl⟩
  · intro name span hunread whole fields h
    rw [Property.read, if_neg hunread]
    exact ⟨fields, h⟩
  · intro prop harray hfield hshorthand whole fields h
    rw [Property.read]
    · exact ⟨fields, h⟩
    · exact harray
    · exact hfield
    · exact hshorthand
  -- rows of elements and of properties: one after the other
  · intro whole items h
    exact ⟨items, h⟩
  · intro element rest ih ihRest whole items h
    have hparts := (@Element.evaluateAll_append whole [element] rest items).1 h
    obtain ⟨first, more, hfirst, hmore, -⟩ := hparts
    obtain ⟨seen, hseen⟩ := ih whole first hfirst
    obtain ⟨seenRest, hseenRest⟩ := ihRest whole more hmore
    exact ⟨_, Element.evaluateAll_append.2 ⟨seen, seenRest, hseen, hseenRest, rfl⟩⟩
  · intro whole fields h
    exact ⟨fields, h⟩
  · intro prop rest ih ihRest whole fields h
    have hparts := (@Property.evaluateAll_append whole [prop] rest fields).1 h
    obtain ⟨first, more, hfirst, hmore, -⟩ := hparts
    obtain ⟨seen, hseen⟩ := ih whole first hfirst
    obtain ⟨seenRest, hseenRest⟩ := ihRest whole more hmore
    exact ⟨_, Property.evaluateAll_append.2 ⟨seen, seenRest, hseen, hseenRest, rfl⟩⟩

end Script
end RoutePages
