import RoutePages.Proofs.Route.Read
import RoutePages.Route.Extract

/-!
# Where the entries of an array cannot be read

What an entry cannot be read for is found where a value, a key or a property of the array
starts. What stands inside operators, calls and functions is not looked at.
-/
namespace RoutePages

open Script

mutual

/-- The positions at which the expression and the data in it start. -/
def Script.Expr.offsets : Expr → List Nat
  | .paren inner s => s.start :: inner.offsets
  | .asType inner s => s.start :: inner.offsets
  | .asConst inner s => s.start :: inner.offsets
  | .array elements s => s.start :: Element.allOffsets elements
  | .object props s => s.start :: Property.allOffsets props
  | .template _ _ s | .minus _ s | .compound _ _ s => [s.start]
  | .null s | .bool _ s | .number _ s | .bigint s | .string _ s | .regex s | .ident _ s => [s.start]

def Script.Element.offsets : Element → List Nat
  | .hole => []
  | .item value => value.offsets
  | .spread value => value.offsets

def Script.Element.allOffsets : List Element → List Nat
  | [] => []
  | element :: rest => element.offsets ++ Element.allOffsets rest

def Script.Property.offsets : Property → List Nat
  | .field key value => key.span.start :: value.offsets
  | .shorthand _ s => [s.start]
  | .spread value => value.offsets
  | .default _ _ s => [s.start]
  | .method _ s => [s.start]

def Script.Property.allOffsets : List Property → List Nat
  | [] => []
  | prop :: rest => prop.offsets ++ Property.allOffsets rest

end

theorem Script.Expr.start_mem_offsets (e : Expr) : e.start ∈ e.offsets := by
  cases e <;> exact List.mem_cons_self

mutual

/-- What cannot be evaluated is found at a position of the expression. -/
theorem Script.Expr.rejection_mem {r : Rejection} : (e : Expr) → e.evaluate = .error r →
    r.span.start ∈ e.offsets
  | .bigint _, h | .regex _, h | .compound _ _ _, h => by
    cases h
    exact List.mem_cons_self
  | .paren inner _, h | .asType inner _, h | .asConst inner _, h =>
    List.mem_cons_of_mem _ (Expr.rejection_mem inner h)
  | .minus operand _, h => by
    cases operand <;> cases h <;> exact List.mem_cons_self
  | .template pieces holes _, h => by
    rcases pieces with _ | ⟨piece, _ | _⟩ <;> cases holes <;> cases h <;> exact List.mem_cons_self
  | .array elements s, h => by
    rw [Expr.evaluate, map_eq_error] at h
    rcases Element.rejection_mem s elements h with h | h
    · exact h ▸ List.mem_cons_self
    · exact List.mem_cons_of_mem _ h
  | .object props s, h => by
    rw [Expr.evaluate, map_eq_error] at h
    rcases Property.rejection_mem s props h with h | h
    · exact h ▸ List.mem_cons_self
    · exact List.mem_cons_of_mem _ h
  | .null _, h | .bool _ _, h | .number _ _, h | .string _ _, h | .ident _ _, h => nomatch h

theorem Script.Element.rejection_mem {r : Rejection} (whole : Span) : (elements : List Element) →
    Element.evaluateAll whole elements = .error r →
      r.span.start = whole.start ∨ r.span.start ∈ Element.allOffsets elements
  | .hole :: _, h | .spread _ :: _, h => by
    cases h
    exact .inl rfl
  | .item value :: rest, h => by
    rw [Element.allOffsets, Element.offsets, List.mem_append]
    rcases bind_eq_error.1 h with h | ⟨_, -, h⟩
    · exact .inr (.inl (Expr.rejection_mem value h))
    rcases bind_eq_error.1 h with h | ⟨_, -, h⟩
    · exact (Element.rejection_mem whole rest h).imp_right .inr
    · cases h

theorem Script.Property.rejection_mem {r : Rejection} (whole : Span) : (props : List Property) →
    Property.evaluateAll whole props = .error r →
      r.span.start = whole.start ∨ r.span.start ∈ Property.allOffsets props
  | .spread _ :: _, h => by
    cases h
    exact .inl rfl
  | .default _ _ _ :: _, h | .method _ _ :: _, h => by
    cases h
    exact .inr (List.mem_append_left _ List.mem_cons_self)
  | .shorthand _ _ :: rest, h => by
    rcases bind_eq_error.1 h with h | ⟨_, -, h⟩
    · exact (Property.rejection_mem whole rest h).imp_right (List.mem_append_right _)
    · cases h
  | .field key value :: rest, h => by
    rw [Property.allOffsets, Property.offsets, List.mem_append]
    rw [Property.evaluateAll] at h
    split at h
    · cases h
      exact .inr (.inl List.mem_cons_self)
    · rcases bind_eq_error.1 h with h | ⟨_, -, h⟩
      · exact .inr (.inl (List.mem_cons_of_mem _ (Expr.rejection_mem value h)))
      rcases bind_eq_error.1 h with h | ⟨_, -, h⟩
      · exact (Property.rejection_mem whole rest h).imp_right .inr
      · cases h

end

theorem Directive.flag_error {directive : Directive} {value : Expr} {e : FieldError}
    (h : directive.flag value = .error e) : e.offset ∈ value.offsets := by
  unfold flag at h
  split at h
  · cases h
  · cases h
    exact value.start_mem_offsets
  · rename_i heq
    cases h
    exact value.rejection_mem heq

namespace Draft

variable {d d' : Draft} {key : Key} {name : Text} {value : Expr}

theorem set_error {e : FieldError} (h : d.set key name value = .error e) :
    e.offset ∈ value.offsets := by
  unfold set at h
  split at h
  · cases h
  split at h
  · cases h
  split at h
  · cases h
  split at h
  · rcases bind_eq_error.1 h with h | ⟨_, -, h⟩
    · exact Directive.flag_error h
    · cases h
  · cases h

theorem set_opaqueName (h : d.set key name value = .ok d') :
    d'.opaqueName = d.opaqueName ∨ d'.opaqueName = some value.start := by
  cases set_eq_ok.1 h with
  | name =>
    unfold setName
    split
    · exact .inl rfl
    · exact .inr rfl
  | path =>
    unfold setPath
    split <;> exact .inl rfl
  | component => exact .inl rfl
  | directive directive flag _ => exact .inl rfl
  | other => exact .inl rfl

theorem finish_error {e : FieldError} (h : d.finish = .error e) : d.opaqueName = some e.offset := by
  unfold finish at h
  split at h
  · rename_i hname _
    cases h
    exact hname
  · cases h

/-- What a draft is read from goes wrong, or finds a name that is no text, at one of its
positions. -/
structure FaultsIn (d : Draft) (offsets : List Nat) (x : Except FieldError Draft) : Prop where
  error : ∀ e, x = .error e → e.offset ∈ offsets
  opaqueName : ∀ d' offset, x = .ok d' → d'.opaqueName = some offset →
    d.opaqueName = some offset ∨ offset ∈ offsets

theorem FaultsIn.bind {first more : List Nat} {x : Except FieldError Draft}
    {f : Draft → Except FieldError Draft} (hx : d.FaultsIn first x)
    (hf : ∀ d₁, x = .ok d₁ → d₁.FaultsIn more (f d₁)) : d.FaultsIn (first ++ more) (x >>= f) where
  error e h := by
    rcases bind_eq_error.1 h with h | ⟨d₁, hd₁, h⟩
    · exact List.mem_append_left _ (hx.error e h)
    · exact List.mem_append_right _ ((hf d₁ hd₁).error e h)
  opaqueName d' offset h hoffset := by
    obtain ⟨d₁, hd₁, h⟩ := bind_eq_ok.1 h
    rcases (hf d₁ hd₁).opaqueName d' offset h hoffset with h | h
    · exact (hx.opaqueName d₁ offset hd₁ h).imp_right (List.mem_append_left _)
    · exact .inr (List.mem_append_right _ h)

theorem faultsIn_ok {offsets : List Nat} (h : d'.opaqueName = d.opaqueName) :
    d.FaultsIn offsets (.ok d') where
  error _ h := nomatch h
  opaqueName d₁ offset hd₁ hoffset := by
    cases hd₁
    exact .inl (h ▸ hoffset)

theorem set_faultsIn (d : Draft) (key : Key) (name : Text) (value : Expr) :
    d.FaultsIn (Property.field key value).offsets (d.set key name value) where
  error _ h := List.mem_cons_of_mem _ (set_error h)
  opaqueName d' offset h hoffset := by
    rcases set_opaqueName h with heq | heq
    · exact .inl (heq ▸ hoffset)
    · cases heq.symm.trans hoffset
      exact .inr (List.mem_cons_of_mem _ value.start_mem_offsets)

end Draft

open Draft

/-- Entries cannot be read only because of what is found at a position of theirs. -/
theorem entries_error :
    (∀ element e, entryOf? element = .error e → e.offset ∈ element.offsets) ∧
    (∀ props (d : Draft), d.FaultsIn (Property.allOffsets props) (draftOf props d)) ∧
    (∀ elements e, entriesOf elements = .error e → e.offset ∈ Element.allOffsets elements) := by
  apply reading_induction
  case object =>
    intro props span ih e h
    refine List.mem_cons_of_mem _ ?_
    rcases bind_eq_error.1 h with h | ⟨d, hd, h⟩
    · exact ih.error e h
    rcases bind_eq_error.1 h with h | ⟨_, -, h⟩
    · -- a name that is no text is reported behind all properties, so the draft remembers it
      rcases ih.opaqueName d e.offset hd (finish_error h) with hnone | hmem
      · cases hnone
      · exact hmem
    · cases h
  case other =>
    intro element hno e h
    rw [entryOf?_other hno] at h
    cases h
  case nil =>
    intro e h
    cases h
  case cons =>
    intro element rest ih ihRest e h
    rw [Element.allOffsets, List.mem_append]
    rcases bind_eq_error.1 h with h | ⟨_, -, h⟩
    · exact .inl (ih e h)
    rcases bind_eq_error.1 h with h | ⟨_, -, h⟩
    · exact .inr (ihRest e h)
    · cases h
  case done =>
    intro d
    exact faultsIn_ok rfl
  case children =>
    intro key name elements span rest d hkey hname ihElements ihRest
    rw [draftOf_children hkey hname, Property.allOffsets, Property.offsets]
    constructor
    · intro e h
      rcases bind_eq_error.1 h with h | ⟨entries, -, h⟩
      · have hin : e.offset ∈ (Expr.array elements span).offsets :=
          List.mem_cons_of_mem _ (ihElements e h)
        exact List.mem_append_left _ (List.mem_cons_of_mem _ hin)
      · exact List.mem_append_right _ ((ihRest entries).error e h)
    · intro d' offset h hoffset
      obtain ⟨entries, -, h⟩ := bind_eq_ok.1 h
      exact ((ihRest entries).opaqueName d' offset h hoffset).imp_right (List.mem_append_right _)
  case field =>
    intro key name value rest d hkey hname ih
    rw [draftOf_field hkey hname]
    exact (set_faultsIn d key name value).bind fun d₁ _ => ih d₁
  case shorthand =>
    intro name span rest d ih
    have hstep : d.FaultsIn (Property.shorthand name span).offsets
        (.ok (if name == "component" then d.setComponent (.bound name span) else d)) :=
      faultsIn_ok (by split <;> rfl)
    exact hstep.bind fun d₁ hd₁ => by cases hd₁; exact ih
  case skipped =>
    intro prop rest d hskipped ih
    rw [draftOf_skipped hskipped]
    have hstep : d.FaultsIn prop.offsets (.ok d) := faultsIn_ok rfl
    exact hstep.bind fun d₁ hd₁ => by cases hd₁; exact ih

end RoutePages
