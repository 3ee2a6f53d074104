import Mathlib.Logic.Relation
import RoutePages.Proofs.Succeeds
import RoutePages.Script.Literal

/-!
# Expressions that are plain data

Which literal an expression denotes is said by a relation with one rule for each form of data.
The constructs that are no data are listed in source order, whether or not another one stands
before them. The evaluator gives the literal exactly where there is one, and rejects the first
construct of the list everywhere else.
-/
namespace RoutePages

/-- The inner span reaches neither before nor behind the outer one. -/
structure Span.Within (inner outer : Span) : Prop where
  start : outer.start ≤ inner.start
  stop : inner.stop ≤ outer.stop

instance (a b : Span) : Decidable (a.Within b) :=
  decidable_of_iff (b.start ≤ a.start ∧ a.stop ≤ b.stop) ⟨fun h => ⟨h.1, h.2⟩, fun h => ⟨h.1, h.2⟩⟩

theorem Span.Within.refl (s : Span) : s.Within s := ⟨Nat.le_refl _, Nat.le_refl _⟩

theorem Span.Within.trans {a b c : Span} (hab : a.Within b) (hbc : b.Within c) : a.Within c :=
  ⟨Nat.le_trans hbc.start hab.start, Nat.le_trans hab.stop hbc.stop⟩

namespace Script

/-! ## The literal that an expression denotes -/

/-- The text that a key stands for: a name, a string, or a number as it is displayed. -/
inductive Key.Spells : Key → Text → Prop
  | name (value : Text) (s : Span) : Spells (.name value s) value
  | string (value : Text) (s : Span) : Spells (.string value s) value
  | number (value : Double) (s : Span) : Spells (.number value s) value.display

mutual

/-- The expression is plain data, and the literal mirrors it. Parentheses and assertions are looked
through, a minus may stand before a number only, and a template has no substitutions. -/
inductive Expr.Denotes : Expr → Literal → Prop
  | null (s : Span) : Expr.Denotes (.null s) .null
  | bool (value : Bool) (s : Span) : Expr.Denotes (.bool value s) (.bool value)
  | number (value : Double) (s : Span) : Expr.Denotes (.number value s) (.number value)
  | string (value : Text) (s : Span) : Expr.Denotes (.string value s) (.text value)
  | ident (name : Text) (s : Span) : Expr.Denotes (.ident name s) (.ident name)
  | negated (value : Double) (inner s : Span) :
    Expr.Denotes (.minus (.number value inner) s) (.number value.neg)
  | template (piece : Text) (s : Span) : Expr.Denotes (.template [piece] [] s) (.text piece)
  | paren {e : Expr} {v : Literal} (s : Span) (h : e.Denotes v) : Expr.Denotes (.paren e s) v
  | asType {e : Expr} {v : Literal} (s : Span) (h : e.Denotes v) : Expr.Denotes (.asType e s) v
  | asConst {e : Expr} {v : Literal} (s : Span) (h : e.Denotes v) : Expr.Denotes (.asConst e s) v
  | array {elements : List Element} {items : List Literal} (s : Span)
    (h : Element.AllDenote elements items) : Expr.Denotes (.array elements s) (.array items)
  | object {props : List Property} {fields : List (Text × Literal)} (s : Span)
    (h : Property.AllDenote props fields) : Expr.Denotes (.object props s) (.object fields)

/-- The elements are values, neither spread nor left out, and the literals are theirs in order. -/
inductive Element.AllDenote : List Element → List Literal → Prop
  | nil : Element.AllDenote [] []
  | cons {e : Expr} {v : Literal} {rest : List Element} {items : List Literal} (h : e.Denotes v)
    (hrest : Element.AllDenote rest items) : Element.AllDenote (.item e :: rest) (v :: items)

/-- The properties are keys with values, or names that stand for themselves, and the fields are
theirs in order, those of one key each for itself. -/
inductive Property.AllDenote : List Property → List (Text × Literal) → Prop
  | nil : Property.AllDenote [] []
  | field {key : Key} {name : Text} {e : Expr} {v : Literal} {rest : List Property}
    {fields : List (Text × Literal)} (hkey : key.Spells name) (h : e.Denotes v)
    (hrest : Property.AllDenote rest fields) :
    Property.AllDenote (.field key e :: rest) ((name, v) :: fields)
  | shorthand {rest : List Property} {fields : List (Text × Literal)} (name : Text) (s : Span)
    (hrest : Property.AllDenote rest fields) :
    Property.AllDenote (.shorthand name s :: rest) ((name, .ident name) :: fields)

end

/-! ## The constructs that are no data -/

mutual

/-- The constructs of the expression that are no data, in source order. What stands inside such a
construct is not looked at; one that is spread or left out is shown by the literal around it. -/
def Expr.offences : Expr → List Rejection
  | .bigint s => [⟨"BigInt", s⟩]
  | .regex s => [⟨"正規表現", s⟩]
  | .compound form _ s => [⟨form.construct, s⟩]
  | .minus (.number _ _) _ => []
  | .minus _ s => [⟨"単項演算", s⟩]
  | .template [_] [] _ => []
  | .template _ _ s => [⟨"テンプレートリテラル", s⟩]
  | .paren inner _ | .asType inner _ | .asConst inner _ => inner.offences
  | .array elements s => Element.offences s elements
  | .object props s => Property.offences s props
  | .null _ | .bool _ _ | .number _ _ | .string _ _ | .ident _ _ => []

def Element.offences (whole : Span) : List Element → List Rejection
  | [] => []
  | .hole :: rest => ⟨"配列の空要素", whole⟩ :: Element.offences whole rest
  | .spread _ :: rest => ⟨"スプレッド構文", whole⟩ :: Element.offences whole rest
  | .item e :: rest => e.offences ++ Element.offences whole rest

/-- A key that is no text stands before its value. -/
def Property.offences (whole : Span) : List Property → List Rejection
  | [] => []
  | .spread _ :: rest => ⟨"スプレッド構文", whole⟩ :: Property.offences whole rest
  | .default _ _ s :: rest | .method _ s :: rest =>
    ⟨"メソッド定義", s⟩ :: Property.offences whole rest
  | .shorthand _ _ :: rest => Property.offences whole rest
  | .field (.computed _ s) e :: rest | .field (.bigint s) e :: rest =>
    ⟨"計算されたプロパティ名", s⟩ :: (e.offences ++ Property.offences whole rest)
  | .field _ e :: rest => e.offences ++ Property.offences whole rest

end

mutual

/-- In the data of the expression the spans of values, keys and methods lie within that of what
holds them. -/
def Expr.IsEnclosing : Expr → Prop
  | .paren inner s | .asType inner s | .asConst inner s => inner.span.Within s ∧ inner.IsEnclosing
  | .array elements s => Element.AllEnclosed s elements
  | .object props s => Property.AllEnclosed s props
  | _ => True

def Element.AllEnclosed (whole : Span) : List Element → Prop
  | [] => True
  | .item e :: rest => (e.span.Within whole ∧ e.IsEnclosing) ∧ Element.AllEnclosed whole rest
  | _ :: rest => Element.AllEnclosed whole rest

def Property.AllEnclosed (whole : Span) : List Property → Prop
  | [] => True
  | .field key e :: rest =>
    (key.span.Within whole ∧ e.span.Within whole ∧ e.IsEnclosing) ∧
      Property.AllEnclosed whole rest
  | .default _ _ s :: rest | .method _ s :: rest =>
    s.Within whole ∧ Property.AllEnclosed whole rest
  | _ :: rest => Property.AllEnclosed whole rest

end

/-! ## What stands in an expression -/

mutual

/-- The outermost expressions in a part. -/
def Part.values : Part → List Expr
  | .expr e => [e]
  | .declaration declarators => Declarator.allValues declarators
  | .imports _ _ _ => []
  | .scope parts => Part.allValues parts

def Part.allValues : List Part → List Expr
  | [] => []
  | p :: rest => p.values ++ Part.allValues rest

def Declarator.allValues : List Declarator → List Expr
  | [] => []
  | .mk _ _ inPattern init :: rest =>
    Part.allValues inPattern ++ init.toList ++ Declarator.allValues rest

end

def Element.values : Element → List Expr
  | .hole => []
  | .item e | .spread e => [e]

def Property.values : Property → List Expr
  | .field key e => Part.allValues key.parts ++ [e]
  | .spread e | .default _ e _ => [e]
  | .shorthand _ _ => []
  | .method parts _ => Part.allValues parts

/-- The expressions that stand in this one and in no other one of it, those in functions and classes
included. -/
def Expr.values : Expr → List Expr
  | .template _ holes _ => holes
  | .paren inner _ | .asType inner _ | .asConst inner _ | .minus inner _ => [inner]
  | .array elements _ => elements.flatMap Element.values
  | .object props _ => props.flatMap Property.values
  | .compound _ parts _ => Part.allValues parts
  | _ => []

/-- The first expression is the second or stands somewhere in it, at any depth. -/
abbrev Expr.StandsIn : Expr → Expr → Prop :=
  Relation.ReflTransGen fun inner outer => inner ∈ outer.values

/-! ## The evaluator -/

theorem Key.text?_eq_some {key : Key} {name : Text} : key.text? = some name ↔ key.Spells name := by
  cases key with
  | name value s | string value s | number value s =>
    constructor
    · intro h
      cases h
      constructor
    · intro h
      cases h
      rfl
  | bigint s => exact ⟨nofun, nofun⟩
  | computed parts s => exact ⟨nofun, nofun⟩

mutual

theorem Expr.denotes_of_evaluate {v : Literal} : (e : Expr) → e.evaluate = .ok v → e.Denotes v
  | .null s, h => by
    cases h
    exact .null s
  | .bool value s, h => by
    cases h
    exact .bool value s
  | .number value s, h => by
    cases h
    exact .number value s
  | .string value s, h => by
    cases h
    exact .string value s
  | .ident name s, h => by
    cases h
    exact .ident name s
  | .paren inner s, h => .paren s (Expr.denotes_of_evaluate inner h)
  | .asType inner s, h => .asType s (Expr.denotes_of_evaluate inner h)
  | .asConst inner s, h => .asConst s (Expr.denotes_of_evaluate inner h)
  | .minus operand s, h => by
    cases operand with
    | number value inner =>
      cases h
      exact .negated value inner s
    | _ => cases h
  | .template pieces holes s, h => by
    rcases pieces with _ | ⟨piece, _ | _⟩ <;> cases holes <;> cases h
    exact .template piece s
  | .array elements s, h => by
    obtain ⟨items, hitems, rfl⟩ := map_eq_ok.1 h
    exact .array s (Element.allDenote_of_evaluate elements hitems)
  | .object props s, h => by
    obtain ⟨fields, hfields, rfl⟩ := map_eq_ok.1 h
    exact .object s (Property.allDenote_of_evaluate props hfields)

theorem Element.allDenote_of_evaluate {whole : Span} {items : List Literal} :
    (elements : List Element) → Element.evaluateAll whole elements = .ok items →
      Element.AllDenote elements items
  | [], h => by
    cases h
    exact .nil
  | .item e :: rest, h => by
    obtain ⟨v, hv, h⟩ := bind_eq_ok.1 h
    obtain ⟨more, hmore, h⟩ := bind_eq_ok.1 h
    cases h
    exact .cons (Expr.denotes_of_evaluate e hv) (Element.allDenote_of_evaluate rest hmore)

theorem Property.allDenote_of_evaluate {whole : Span} {fields : List (Text × Literal)} :
    (props : List Property) → Property.evaluateAll whole props = .ok fields →
      Property.AllDenote props fields
  | [], h => by
    cases h
    exact .nil
  | .shorthand name s :: rest, h => by
    obtain ⟨more, hmore, h⟩ := bind_eq_ok.1 h
    cases h
    exact .shorthand name s (Property.allDenote_of_evaluate rest hmore)
  | .field key e :: rest, h => by
    rw [Property.evaluateAll] at h
    split at h
    · cases h
    · rename_i name hkey
      obtain ⟨v, hv, h⟩ := bind_eq_ok.1 h
      obtain ⟨more, hmore, h⟩ := bind_eq_ok.1 h
      cases h
      exact .field (Key.text?_eq_some.1 hkey) (Expr.denotes_of_evaluate e hv)
        (Property.allDenote_of_evaluate rest hmore)

end

mutual

theorem Expr.evaluate_of_denotes {v : Literal} : (e : Expr) → e.Denotes v → e.evaluate = .ok v
  | .null _, .null _ | .bool _ _, .bool _ _ | .number _ _, .number _ _
  | .string _ _, .string _ _ | .ident _ _, .ident _ _ => rfl
  | .minus _ _, .negated _ _ _ => rfl
  | .template _ _ _, .template _ _ => rfl
  | .paren inner _, .paren _ h => Expr.evaluate_of_denotes inner h
  | .asType inner _, .asType _ h => Expr.evaluate_of_denotes inner h
  | .asConst inner _, .asConst _ h => Expr.evaluate_of_denotes inner h
  | .array elements s, .array _ h =>
    map_eq_ok.2 ⟨_, Element.evaluateAll_of_allDenote s elements h, rfl⟩
  | .object props s, .object _ h =>
    map_eq_ok.2 ⟨_, Property.evaluateAll_of_allDenote s props h, rfl⟩

theorem Element.evaluateAll_of_allDenote {items : List Literal} (whole : Span) :
    (elements : List Element) → Element.AllDenote elements items →
      Element.evaluateAll whole elements = .ok items
  | [], .nil => rfl
  | .item e :: rest, .cons h hrest =>
    bind_eq_ok.2 ⟨_, Expr.evaluate_of_denotes e h,
      bind_eq_ok.2 ⟨_, Element.evaluateAll_of_allDenote whole rest hrest, rfl⟩⟩

theorem Property.evaluateAll_of_allDenote {fields : List (Text × Literal)} (whole : Span) :
    (props : List Property) → Property.AllDenote props fields →
      Property.evaluateAll whole props = .ok fields
  | [], .nil => rfl
  | .shorthand _ _ :: rest, .shorthand _ _ hrest =>
    bind_eq_ok.2 ⟨_, Property.evaluateAll_of_allDenote whole rest hrest, rfl⟩
  | .field key e :: rest, .field hkey h hrest => by
    rw [Property.evaluateAll, Key.text?_eq_some.2 hkey]
    exact bind_eq_ok.2 ⟨_, Expr.evaluate_of_denotes e h,
      bind_eq_ok.2 ⟨_, Property.evaluateAll_of_allDenote whole rest hrest, rfl⟩⟩

end

theorem Property.offences_computed {key : Key} (h : key.text? = none) (e : Expr)
    (rest : List Property) (whole : Span) : Property.offences whole (.field key e :: rest) =
      ⟨"計算されたプロパティ名", key.span⟩ :: (e.offences ++ Property.offences whole rest) := by
  cases key with
  | name value s | string value s | number value s => cases h
  | bigint s | computed parts s => rfl

theorem Property.offences_field {key : Key} {name : Text} (h : key.text? = some name) (e : Expr)
    (rest : List Property) (whole : Span) : Property.offences whole (.field key e :: rest) =
      e.offences ++ Property.offences whole rest := by
  cases key with
  | name value s | string value s | number value s => rfl
  | bigint s | computed parts s => cases h

mutual

/-- The first construct that is no data ends the evaluation. -/
theorem Expr.failure?_evaluate : (e : Expr) → failure? e.evaluate = e.offences.head?
  | .null _ | .bool _ _ | .number _ _ | .string _ _ | .ident _ _ => rfl
  | .bigint _ | .regex _ | .compound _ _ _ => rfl
  | .paren inner _ => Expr.failure?_evaluate inner
  | .asType inner _ => Expr.failure?_evaluate inner
  | .asConst inner _ => Expr.failure?_evaluate inner
  | .minus operand _ => by cases operand <;> rfl
  | .template pieces holes _ => by
    rcases pieces with _ | ⟨piece, _ | _⟩ <;> cases holes <;> rfl
  | .array elements s => by
    rw [Expr.evaluate, failure?_map]
    exact Element.failure?_evaluateAll s elements
  | .object props s => by
    rw [Expr.evaluate, failure?_map]
    exact Property.failure?_evaluateAll s props

theorem Element.failure?_evaluateAll (whole : Span) : (elements : List Element) →
    failure? (Element.evaluateAll whole elements) = (Element.offences whole elements).head?
  | [] => rfl
  | .hole :: _ => rfl
  | .spread _ :: _ => rfl
  | .item e :: rest => by
    rw [Element.evaluateAll, failure?_bind, Expr.failure?_evaluate e,
      Element.failure?_evaluateAll whole rest, Element.offences, List.head?_append]

theorem Property.failure?_evaluateAll (whole : Span) : (props : List Property) →
    failure? (Property.evaluateAll whole props) = (Property.offences whole props).head?
  | [] => rfl
  | .spread _ :: _ => rfl
  | .default _ _ _ :: _ => rfl
  | .method _ _ :: _ => rfl
  | .shorthand _ _ :: rest => by
    have ih := Property.failure?_evaluateAll whole rest
    rw [Property.offences, ← ih, Property.evaluateAll]
    cases Property.evaluateAll whole rest <;> rfl
  | .field key e :: rest => by
    rw [Property.evaluateAll]
    cases hkey : key.text? with
    | none =>
      rw [Property.offences_computed hkey]
      rfl
    | some name =>
      dsimp only
      rw [failure?_bind, Expr.failure?_evaluate e, Property.failure?_evaluateAll whole rest,
        Property.offences_field hkey, List.head?_append]

end

/-! ## Where rejected constructs lie -/

mutual

/-- Where spans lie within each other, all constructs that are no data lie in the expression. -/
theorem Expr.within_of_mem_offences {r : Rejection} : (e : Expr) → e.IsEnclosing →
    r ∈ e.offences → r.span.Within e.span
  | .bigint s, _, h | .regex s, _, h | .compound _ _ s, _, h => by
    cases List.mem_singleton.1 h
    exact .refl s
  | .minus operand s, _, h => by
    cases operand with
    | number value inner => cases h
    | _ =>
      cases List.mem_singleton.1 h
      exact .refl s
  | .template pieces holes s, _, h => by
    have hr : r.span = s := by
      rcases pieces with _ | ⟨piece, _ | _⟩ <;> cases holes <;> simp_all [Expr.offences]
    rw [hr]
    exact .refl s
  | .paren inner _, he, h | .asType inner _, he, h | .asConst inner _, he, h =>
    (Expr.within_of_mem_offences inner he.2 h).trans he.1
  | .array elements s, he, h => Element.within_of_mem_offences s elements he h
  | .object props s, he, h => Property.within_of_mem_offences s props he h

theorem Element.within_of_mem_offences {r : Rejection} (whole : Span) : (elements : List Element) →
    Element.AllEnclosed whole elements → r ∈ Element.offences whole elements → r.span.Within whole
  | .hole :: rest, he, h => by
    rcases List.mem_cons.1 h with rfl | h
    · exact .refl whole
    · exact Element.within_of_mem_offences whole rest he h
  | .spread _ :: rest, he, h => by
    rcases List.mem_cons.1 h with rfl | h
    · exact .refl whole
    · exact Element.within_of_mem_offences whole rest he h
  | .item e :: rest, he, h => by
    obtain ⟨⟨hwithin, hinner⟩, hrest⟩ := he
    rcases List.mem_append.1 h with h | h
    · exact (Expr.within_of_mem_offences e hinner h).trans hwithin
    · exact Element.within_of_mem_offences whole rest hrest h

theorem Property.within_of_mem_offences {r : Rejection} (whole : Span) : (props : List Property) →
    Property.AllEnclosed whole props → r ∈ Property.offences whole props → r.span.Within whole
  | .spread _ :: rest, he, h => by
    rcases List.mem_cons.1 h with rfl | h
    · exact .refl whole
    · exact Property.within_of_mem_offences whole rest he h
  | .default _ _ _ :: rest, he, h | .method _ _ :: rest, he, h => by
    rcases List.mem_cons.1 h with rfl | h
    · exact he.1
    · exact Property.within_of_mem_offences whole rest he.2 h
  | .shorthand _ _ :: rest, he, h => Property.within_of_mem_offences whole rest he h
  | .field key e :: rest, he, h => by
    obtain ⟨⟨hkey, hwithin, hinner⟩, hrest⟩ := he
    have hmore : r ∈ e.offences ++ Property.offences whole rest → r.span.Within whole := by
      intro h
      rcases List.mem_append.1 h with h | h
      · exact (Expr.within_of_mem_offences e hinner h).trans hwithin
      · exact Property.within_of_mem_offences whole rest hrest h
    cases htext : key.text? with
    | none =>
      rw [Property.offences_computed htext] at h
      rcases List.mem_cons.1 h with rfl | h
      · exact hkey
      · exact hmore h
    | some name =>
      rw [Property.offences_field htext] at h
      exact hmore h

end

/-! ## What stands in plain data -/

theorem Element.denotes_of_mem {elements : List Element} {items : List Literal}
    (h : Element.AllDenote elements items) {x : Expr} (hx : x ∈ elements.flatMap Element.values) :
    ∃ w, x.Denotes w := by
  induction elements generalizing items with
  | nil => cases hx
  | cons element rest ih =>
    cases h with
    | @cons e v _ _ he hrest =>
      rcases List.mem_append.1 hx with hx | hx
      · cases List.mem_singleton.1 hx
        exact ⟨v, he⟩
      · exact ih hrest hx

theorem Key.Spells.parts_eq {key : Key} {name : Text} (h : key.Spells name) : key.parts = [] := by
  cases h <;> rfl

theorem Property.denotes_of_mem {props : List Property} {fields : List (Text × Literal)}
    (h : Property.AllDenote props fields) {x : Expr} (hx : x ∈ props.flatMap Property.values) :
    ∃ w, x.Denotes w := by
  induction props generalizing fields with
  | nil => cases hx
  | cons prop rest ih =>
    rw [List.flatMap_cons] at hx
    cases h with
    | @field key _ e v _ _ hkey he hrest =>
      rcases List.mem_append.1 hx with hx | hx
      · rw [Property.values, hkey.parts_eq] at hx
        cases List.mem_singleton.1 hx
        exact ⟨v, he⟩
      · exact ih hrest hx
    | shorthand name s hrest => exact ih hrest hx

/-- What stands in plain data is plain data. -/
theorem Expr.Denotes.values {e : Expr} {v : Literal} (h : e.Denotes v) {x : Expr}
    (hx : x ∈ e.values) : ∃ w, x.Denotes w := by
  cases h with
  | null | bool | number | string | ident | template => cases hx
  | negated value inner s =>
    cases List.mem_singleton.1 hx
    exact ⟨_, .number value inner⟩
  | paren _ h | asType _ h | asConst _ h =>
    cases List.mem_singleton.1 hx
    exact ⟨v, h⟩
  | array _ h => exact Element.denotes_of_mem h hx
  | object _ h => exact Property.denotes_of_mem h hx

theorem Expr.Denotes.standsIn {e x : Expr} {v : Literal} (h : e.Denotes v) (hx : x.StandsIn e) :
    ∃ w, x.Denotes w := by
  induction hx using Relation.ReflTransGen.head_induction_on with
  | refl => exact ⟨v, h⟩
  | head hx _ ih =>
    obtain ⟨w, hw⟩ := ih
    exact hw.values hx

theorem Expr.Denotes.form?_eq {e : Expr} {v : Literal} (h : e.Denotes v) : e.form? = none := by
  cases h <;> rfl

/-- An expression is evaluated exactly if it is plain data, to the literal that mirrors it, and then
nothing that stands in it, at any depth, is put together by a call, a member, a function, a class,
markup, an assignment or an operator, or is rejected for another reason. Otherwise the first
construct that is no data is rejected, which lies in the expression if spans lie within those
of what holds them. -/
theorem Expr.evaluate_decides (e : Expr) :
    (∀ v, e.evaluate = .ok v ↔ e.Denotes v) ∧
    (∀ r, e.evaluate = .error r ↔ e.offences.head? = some r) ∧
    (e.offences = [] ↔ ∃ v, e.Denotes v) ∧
    (e.IsEnclosing → ∀ r, e.evaluate = .error r → r.span.Within e.span) ∧
    ∀ v, e.evaluate = .ok v → ∀ x : Expr, x.StandsIn e →
      x.form? = none ∧ ∃ w, x.evaluate = .ok w := by
  have hok : ∀ (x : Expr) (v : Literal), x.evaluate = .ok v ↔ x.Denotes v := fun x v =>
    ⟨denotes_of_evaluate x, evaluate_of_denotes x⟩
  have herror : ∀ r, e.evaluate = .error r ↔ e.offences.head? = some r := fun r => by
    rw [← failure?_evaluate, failure?_eq_some]
  refine ⟨hok e, herror, ?_, fun he r hr => ?_, fun v hv x hx => ?_⟩
  · rw [← List.head?_eq_none_iff, ← failure?_evaluate]
    cases heval : e.evaluate with
    | error r =>
      refine ⟨nofun, fun ⟨v, hv⟩ => ?_⟩
      cases heval.symm.trans ((hok e v).2 hv)
    | ok v => exact ⟨fun _ => ⟨v, (hok e v).1 heval⟩, fun _ => rfl⟩
  · have hmem : r ∈ e.offences := List.mem_of_head? ((herror r).1 hr)
    exact within_of_mem_offences e he hmem
  · obtain ⟨w, hw⟩ := ((hok e v).1 hv).standsIn hx
    exact ⟨hw.form?_eq, w, (hok x w).2 hw⟩

/-- In `[{b: (f(x)), ...y}, z]` the call stands before what is spread. -/
theorem Expr.evaluate_decides_nested :
    let parts : List Part := [.expr (.ident "f" ⟨6, 7⟩), .expr (.ident "x" ⟨8, 9⟩)]
    let call : Expr := .compound .call parts ⟨6, 10⟩
    let props : List Property :=
      [.field (.name "b" ⟨2, 3⟩) (.paren call ⟨5, 11⟩), .spread (.ident "y" ⟨16, 17⟩)]
    let e : Expr := .array [.item (.object props ⟨1, 18⟩), .item (.ident "z" ⟨20, 21⟩)] ⟨0, 22⟩
    let r : Rejection := ⟨"関数呼び出し", ⟨6, 10⟩⟩
    e.IsEnclosing ∧ e.offences = [r, ⟨"スプレッド構文", ⟨1, 18⟩⟩] ∧ e.evaluate = .error r ∧
      r.span.Within e.span := by
  intro parts call props e r
  have henclosing : e.IsEnclosing := by
    simp only [e, props, call, IsEnclosing, Element.AllEnclosed, Property.AllEnclosed, Expr.span,
      Key.span]
    decide
  obtain ⟨-, hrejected, -, hwithin, -⟩ := evaluate_decides e
  have hr : e.evaluate = .error r := (hrejected r).2 rfl
  exact ⟨henclosing, rfl, hr, hwithin henclosing r hr⟩

end Script
end RoutePages
