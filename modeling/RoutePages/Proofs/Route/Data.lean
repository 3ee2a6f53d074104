import RoutePages.Proofs.Script.Bare
import RoutePages.Route.Extract

/-!
# Route arrays as data

What the entries of a route array are once the array has been evaluated: each object is an
entry, and of several fields with one key the last one that can be used counts. Some objects
cannot be read as entries.
-/
namespace RoutePages

open Script

variable {α : Type}

def Script.Literal.text? : Literal → Option Text
  | .text value => some value
  | _ => none

def Script.Literal.flag? : Literal → Option Bool
  | .bool value => some value
  | _ => none

/-- The component that a value stands for. -/
def Component.ofLiteral : Literal → Component
  | .text page => .path page nowhere
  | .ident name => .bound name nowhere
  | _ => .inline

/-- What the last field with a key gives, among those that give something. -/
def lastOf? (give : Literal → Option α) (key : Text) (fields : List (Text × Literal)) : Option α :=
  fields.reverse.findSome? fun field => if field.1 = key then give field.2 else none

theorem lastOf?_append (give : Literal → Option α) (key : Text) (l₁ l₂ : List (Text × Literal)) :
    lastOf? give key (l₁ ++ l₂) = (lastOf? give key l₂).or (lastOf? give key l₁) := by
  rw [lastOf?, List.reverse_append, List.findSome?_append]
  rfl

theorem lastOf?_singleton (give : Literal → Option α) (key name : Text) (value : Literal) :
    lastOf? give key [(name, value)] = if name = key then give value else none :=
  List.findSome?_singleton

/-- The component of an object. -/
def componentOf (fields : List (Text × Literal)) : Option Component :=
  lastOf? (fun value => some (.ofLiteral value)) "component" fields

/-- The directives among fields. -/
def directivesOf (fields : List (Text × Literal)) : List DirectiveSpan :=
  fields.filterMap fun field => (Directive.ofKey? field.1).map (⟨·, nowhere⟩)

namespace Script.Literal

mutual

/-- The entry that an object is. -/
def entryOf? : Literal → Option Entry
  | .object fields => some {
      name := lastOf? text? "name" fields
      path := lastOf? text? "path" fields
      component := componentOf fields
      table := (lastOf? flag? "table" fields).getD false
      service := (lastOf? flag? "service" fields).getD false
      cover := lastOf? flag? "cover" fields
      children := childEntries fields
      span := nowhere
      directives := directivesOf fields }
  | _ => none

/-- The entries of an array. -/
def entries : List Literal → List Entry
  | [] => []
  | item :: rest => item.entryOf?.toList ++ entries rest

/-- The entries of the arrays among fields that hold children. -/
def childEntries : List (Text × Literal) → List Entry
  | [] => []
  | (key, .array items) :: rest =>
    (if holdsChildren key then entries items else []) ++ childEntries rest
  | _ :: rest => childEntries rest

end

theorem entries_append (l₁ l₂ : List Literal) : entries (l₁ ++ l₂) = entries l₁ ++ entries l₂ := by
  induction l₁ with
  | nil => rfl
  | cons item l₁ ih => rw [List.cons_append, entries, entries, ih, List.append_assoc]

theorem childEntries_append (l₁ l₂ : List (Text × Literal)) :
    childEntries (l₁ ++ l₂) = childEntries l₁ ++ childEntries l₂ := by
  induction l₁ with
  | nil => rfl
  | cons field l₁ ih =>
    obtain ⟨key, value⟩ := field
    cases value with
    | array items => rw [List.cons_append, childEntries, childEntries, ih, List.append_assoc]
    | _ => exact ih

theorem childEntries_of_not_holdsChildren {key : Text} (value : Literal)
    (h : holdsChildren key = false) : childEntries [(key, value)] = [] := by
  cases value with
  | array items => rw [childEntries, h]; rfl
  | _ => rfl

end Script.Literal

/-! ## Objects that cannot be read -/

/-- The fields are those of an object, or of one among its children. -/
inductive InTree : Literal → List (Text × Literal) → Prop
  | self (fields : List (Text × Literal)) : InTree (.object fields) fields
  | inside {children : List Literal} {child : Literal} {above fields : List (Text × Literal)}
    {key : Text} (hchildren : (key, .array children) ∈ above) (hkey : holdsChildren key = true)
    (hchild : child ∈ children) (h : InTree child fields) : InTree (.object above) fields

/-- A directive that is no boolean. -/
def IsBadFlag (field : Text × Literal) : Prop :=
  (∃ directive : Directive, field.1 = directive.key) ∧ field.2.flag? = none

/-- A name is no text. -/
def HasOpaqueName (fields : List (Text × Literal)) : Prop :=
  ∃ field ∈ fields, field.1 = "name" ∧ field.2.text? = none

theorem hasOpaqueName_append {l₁ l₂ : List (Text × Literal)} :
    HasOpaqueName (l₁ ++ l₂) ↔ HasOpaqueName l₁ ∨ HasOpaqueName l₂ := by
  constructor
  · rintro ⟨field, hfield, h⟩
    rcases List.mem_append.1 hfield with hfield | hfield
    · exact .inl ⟨field, hfield, h⟩
    · exact .inr ⟨field, hfield, h⟩
  · rintro (⟨field, hfield, h⟩ | ⟨field, hfield, h⟩)
    · exact ⟨field, List.mem_append_left _ hfield, h⟩
    · exact ⟨field, List.mem_append_right _ hfield, h⟩

theorem hasOpaqueName_singleton {name : Text} {value : Literal} :
    HasOpaqueName [(name, value)] ↔ name = "name" ∧ value.text? = none := by
  constructor
  · rintro ⟨_, hfield, h⟩
    cases List.mem_singleton.1 hfield
    exact h
  · exact fun h => ⟨_, List.mem_singleton_self _, h⟩

theorem not_hasOpaqueName_singleton {name : Text} (value : Literal) (h : name ≠ "name") :
    ¬ HasOpaqueName [(name, value)] :=
  fun hopaque => h (hasOpaqueName_singleton.1 hopaque).1

/-- The object asks for a page and has no title for it. -/
def IsUntitled (fields : List (Text × Literal)) : Prop :=
  (∃ page, componentOf fields = some (.path page nowhere)) ∧ HasOpaqueName fields

/-- Each object among items and their children can be read. -/
def IsSound (items : List Literal) : Prop :=
  ∀ item ∈ items, ∀ fields, InTree item fields →
    (∀ field ∈ fields, ¬ IsBadFlag field) ∧ ¬ IsUntitled fields

/-- The field can be read, and so can the children that it holds. -/
def IsSoundField (field : Text × Literal) : Prop :=
  ¬ IsBadFlag field ∧
    ∀ children, field.2 = .array children → holdsChildren field.1 = true → IsSound children

theorem isSound_append {l₁ l₂ : List Literal} : IsSound (l₁ ++ l₂) ↔ IsSound l₁ ∧ IsSound l₂ :=
  List.forall_mem_append

theorem isSound_object {fields : List (Text × Literal)} :
    IsSound [.object fields] ↔ (∀ field ∈ fields, IsSoundField field) ∧ ¬ IsUntitled fields := by
  rw [IsSound, List.forall_mem_singleton]
  constructor
  · intro h
    obtain ⟨hflags, hname⟩ := h fields (.self fields)
    refine ⟨fun field hfield => ⟨hflags field hfield, fun children harray hkey => ?_⟩, hname⟩
    obtain ⟨key, _⟩ := field
    cases harray
    exact fun child hchild below hbelow => h below (.inside hfield hkey hchild hbelow)
  · rintro ⟨hfields, hname⟩ below h
    cases h with
    | self => exact ⟨fun field hfield => (hfields field hfield).1, hname⟩
    | inside hchildren hkey hchild h => exact (hfields _ hchildren).2 _ rfl hkey _ hchild below h

/-- What is no object is passed over. -/
theorem isSound_of_entryOf?_eq_none {item : Literal} (h : item.entryOf? = none) :
    IsSound [item] := by
  rw [IsSound, List.forall_mem_singleton]
  intro fields hfields
  cases hfields with
  | self => cases h
  | inside => cases h

end RoutePages
