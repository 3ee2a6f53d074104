import Mathlib.Data.List.Forall2

/-!
# Computations that succeed

A computation in steps gives a result exactly when each step does.
-/
namespace RoutePages

variable {α β ε : Type}

theorem bind_eq_ok {x : Except ε α} {f : α → Except ε β} {b : β} :
    (x >>= f) = .ok b ↔ ∃ a, x = .ok a ∧ f a = .ok b := by
  cases x with
  | error e => exact ⟨nofun, by rintro ⟨a, ⟨⟩, -⟩⟩
  | ok a => exact ⟨fun h => ⟨a, rfl, h⟩, by rintro ⟨b, ⟨⟩, h⟩; exact h⟩

theorem bind_eq_error {x : Except ε α} {f : α → Except ε β} {e : ε} :
    (x >>= f) = .error e ↔ x = .error e ∨ ∃ a, x = .ok a ∧ f a = .error e := by
  cases x with
  | error fault =>
    refine ⟨fun h => .inl (congrArg _ (Except.error.inj h)), ?_⟩
    rintro (h | ⟨a, ⟨⟩, -⟩)
    exact congrArg _ (Except.error.inj h)
  | ok a =>
    refine ⟨fun h => .inr ⟨a, rfl, h⟩, ?_⟩
    rintro (⟨⟨⟩⟩ | ⟨b, ⟨⟩, h⟩)
    exact h

theorem map_eq_ok {x : Except ε α} {f : α → β} {b : β} :
    x.map f = .ok b ↔ ∃ a, x = .ok a ∧ f a = b := by
  cases x with
  | error e => exact ⟨nofun, by rintro ⟨a, ⟨⟩, -⟩⟩
  | ok a => exact ⟨fun h => by cases h; exact ⟨a, rfl, rfl⟩, by rintro ⟨b, ⟨⟩, rfl⟩; rfl⟩

theorem map_eq_error {x : Except ε α} {f : α → β} {e : ε} : x.map f = .error e ↔ x = .error e := by
  cases x with
  | error _ => exact ⟨fun h => by cases h; rfl, fun h => by cases h; rfl⟩
  | ok a => exact ⟨nofun, nofun⟩

theorem mapError_eq_ok {ε' : Type} {f : ε → ε'} {x : Except ε α} {a : α} :
    x.mapError f = .ok a ↔ x = .ok a := by
  cases x with
  | error e => exact ⟨nofun, nofun⟩
  | ok b => exact ⟨fun h => congrArg _ (Except.ok.inj h), fun h => congrArg _ (Except.ok.inj h)⟩

/-- The error that ends a computation. -/
def failure? : Except ε α → Option ε
  | .error e => some e
  | .ok _ => none

theorem failure?_eq_some {x : Except ε α} {e : ε} : failure? x = some e ↔ x = .error e := by
  cases x with
  | error e =>
    exact ⟨fun h => congrArg _ (Option.some.inj h), fun h => congrArg _ (Except.error.inj h)⟩
  | ok b => exact ⟨nofun, nofun⟩

theorem failure?_map (x : Except ε α) (f : α → β) : failure? (x.map f) = failure? x := by
  cases x <;> rfl

/-- Of two computations, the second one run only behind the first, the first failure ends both. -/
theorem failure?_bind {γ : Type} (x : Except ε α) (y : Except ε β) (f : α → β → γ) :
    failure? (do
      let a ← x
      let b ← y
      return f a b) = (failure? x).or (failure? y) := by
  cases x with
  | error e => rfl
  | ok a => cases y <;> rfl

theorem toOption_eq_some {x : Except ε α} {a : α} : x.toOption = some a ↔ x = .ok a := by
  cases x with
  | error e => exact ⟨nofun, nofun⟩
  | ok b => exact ⟨fun h => congrArg _ (Option.some.inj h), fun h => congrArg _ (Except.ok.inj h)⟩

theorem exists_ok_of_any {x : Except ε α} {p : α → Bool} (h : x.toOption.any p = true) :
    ∃ a, x = .ok a ∧ p a = true := by
  cases x with
  | error _ => cases h
  | ok a => exact ⟨a, rfl, h⟩

theorem toOption_map (x : Except ε α) (f : α → β) : (x.map f).toOption = x.toOption.map f := by
  cases x <;> rfl

theorem toOption_bind (x : Except ε α) (f : α → Except ε β) :
    (x >>= f).toOption = x.toOption.bind fun a => (f a).toOption := by
  cases x <;> rfl

theorem mapM_eq_ok {f : α → Except ε β} {l : List α} {bs : List β} :
    l.mapM f = .ok bs ↔ List.Forall₂ (fun a b => f a = .ok b) l bs := by
  induction l generalizing bs with
  | nil =>
    rw [List.mapM_nil, List.forall₂_nil_left_iff]
    exact ⟨fun h => by cases h; rfl, fun h => by rw [h]; rfl⟩
  | cons a l ih =>
    rw [List.mapM_cons, List.forall₂_cons_left_iff, bind_eq_ok]
    constructor
    · rintro ⟨b, ha, h⟩
      obtain ⟨cs, hl, h⟩ := bind_eq_ok.1 h
      cases h
      exact ⟨b, cs, ha, ih.1 hl, rfl⟩
    · rintro ⟨b, cs, ha, hl, rfl⟩
      exact ⟨b, ha, bind_eq_ok.2 ⟨cs, ih.2 hl, rfl⟩⟩

theorem mapM_isOk_iff {f : α → Except ε β} {l : List α} :
    (∃ bs, l.mapM f = .ok bs) ↔ ∀ a ∈ l, ∃ b, f a = .ok b := by
  constructor
  · rintro ⟨bs, h⟩ a ha
    have hall := List.forall₂_iff_get.1 (mapM_eq_ok.1 h)
    obtain ⟨i, rfl⟩ := List.mem_iff_get.1 ha
    exact ⟨_, hall.2 i i.2 (hall.1 ▸ i.2)⟩
  · intro h
    induction l with
    | nil => exact ⟨[], rfl⟩
    | cons a l ih =>
      obtain ⟨⟨b, hb⟩, hl⟩ := List.forall_mem_cons.1 h
      obtain ⟨bs, hbs⟩ := ih hl
      exact ⟨b :: bs, mapM_eq_ok.2 (.cons hb (mapM_eq_ok.1 hbs))⟩

/-- A row of steps fails with the error of the first one that fails. -/
theorem mapM_eq_error {f : α → Except ε β} {l : List α} {e : ε} :
    l.mapM f = .error e ↔ ∃ before a after, l = before ++ a :: after ∧
      (∀ x ∈ before, ∃ b, f x = .ok b) ∧ f a = .error e := by
  induction l with
  | nil =>
    rw [List.mapM_nil]
    refine ⟨nofun, ?_⟩
    rintro ⟨before, a, after, h, -⟩
    cases before <;> cases h
  | cons a l ih =>
    rw [List.mapM_cons, bind_eq_error]
    constructor
    · rintro (ha | ⟨b, hb, h⟩)
      · exact ⟨[], a, l, rfl, nofun, ha⟩
      · rcases bind_eq_error.1 h with h | ⟨bs, -, ⟨⟩⟩
        obtain ⟨before, x, after, rfl, hbefore, hx⟩ := ih.1 h
        exact ⟨a :: before, x, after, rfl, List.forall_mem_cons.2 ⟨⟨b, hb⟩, hbefore⟩, hx⟩
    · rintro ⟨before, x, after, h, hbefore, hx⟩
      cases before with
      | nil =>
        cases h
        exact .inl hx
      | cons first before =>
        cases h
        obtain ⟨⟨b, hb⟩, hbefore⟩ := List.forall_mem_cons.1 hbefore
        exact .inr ⟨b, hb, bind_eq_error.2 (.inl (ih.2 ⟨before, x, after, rfl, hbefore, hx⟩))⟩

/-- Steps that either fail or give one certain result. -/
theorem mapM_eq_map {p : α → Prop} {f : α → Except ε β} {g : α → β} {l : List α} {bs : List β}
    (h : ∀ a ∈ l, ∀ b, f a = .ok b ↔ p a ∧ b = g a) :
    l.mapM f = .ok bs ↔ (∀ a ∈ l, p a) ∧ bs = l.map g := by
  induction l generalizing bs with
  | nil =>
    rw [List.mapM_nil]
    exact ⟨fun h => by cases h; exact ⟨nofun, rfl⟩, fun h => by rw [h.2]; rfl⟩
  | cons a l ih =>
    obtain ⟨ha, hl⟩ := List.forall_mem_cons.1 h
    rw [List.mapM_cons, bind_eq_ok, List.forall_mem_cons]
    constructor
    · rintro ⟨b, hb, h⟩
      obtain ⟨cs, hcs, h⟩ := bind_eq_ok.1 h
      cases h
      obtain ⟨hp, rfl⟩ := (ha b).1 hb
      obtain ⟨hall, rfl⟩ := (ih hl).1 hcs
      exact ⟨⟨hp, hall⟩, rfl⟩
    · rintro ⟨⟨hp, hall⟩, rfl⟩
      exact ⟨g a, (ha _).2 ⟨hp, rfl⟩, bind_eq_ok.2 ⟨l.map g, (ih hl).2 ⟨hall, rfl⟩, rfl⟩⟩

theorem forall₂_map_eq_map {γ : Type} {f : α → γ} {g : β → γ} {l : List α} {bs : List β}
    (h : List.Forall₂ (fun a b => g b = f a) l bs) : bs.map g = l.map f := by
  have hmap := List.forall₂_map_left_iff.2 (List.forall₂_map_right_iff.2 (h.imp fun _ _ => Eq.symm))
  rw [List.forall₂_eq_eq_eq] at hmap
  exact hmap.symm

theorem forall₂_eq_map {f : α → β} {l : List α} {bs : List β}
    (h : List.Forall₂ (fun a b => b = f a) l bs) : bs = l.map f :=
  (List.map_id bs).symm.trans (forall₂_map_eq_map h)

theorem forall₂_exists_left {r : α → β → Prop} {l : List α} {bs : List β}
    (h : List.Forall₂ r l bs) {b : β} (hb : b ∈ bs) : ∃ a ∈ l, r a b := by
  induction h with
  | nil => cases hb
  | cons hab _ ih =>
    rcases List.mem_cons.1 hb with rfl | hb
    · exact ⟨_, List.mem_cons_self, hab⟩
    · obtain ⟨a, ha, hr⟩ := ih hb
      exact ⟨a, List.mem_cons_of_mem _ ha, hr⟩

theorem forall₂_append_left {r : α → β → Prop} {l₁ l₂ : List α} {bs : List β} :
    List.Forall₂ r (l₁ ++ l₂) bs ↔
      ∃ bs₁ bs₂, List.Forall₂ r l₁ bs₁ ∧ List.Forall₂ r l₂ bs₂ ∧ bs = bs₁ ++ bs₂ := by
  constructor
  · intro h
    have htake := List.forall₂_take_append bs l₁ l₂ h.flip
    have hdrop := List.forall₂_drop_append bs l₁ l₂ h.flip
    exact ⟨_, _, htake.flip, hdrop.flip, (List.take_append_drop l₁.length bs).symm⟩
  · rintro ⟨bs₁, bs₂, h₁, h₂, rfl⟩
    exact List.rel_append h₁ h₂

/-- What goes through a list element by element gives for a whole what it gives for its parts. -/
theorem append_eq_ok {each : List α → Except ε (List β)} {gives : α → β → Prop}
    (nil : each [] = .ok [])
    (cons : ∀ a l bs, each (a :: l) = .ok bs ↔
      ∃ b more, gives a b ∧ each l = .ok more ∧ bs = b :: more)
    {l₁ l₂ : List α} {bs : List β} : each (l₁ ++ l₂) = .ok bs ↔
      ∃ first more, each l₁ = .ok first ∧ each l₂ = .ok more ∧ bs = first ++ more := by
  induction l₁ generalizing bs with
  | nil =>
    constructor
    · exact fun h => ⟨[], bs, nil, h, rfl⟩
    · rintro ⟨first, more, hfirst, hmore, rfl⟩
      cases nil.symm.trans hfirst
      exact hmore
  | cons a l₁ ih =>
    rw [List.cons_append, cons]
    constructor
    · rintro ⟨b, _, hb, h, rfl⟩
      obtain ⟨first, more, hfirst, hmore, rfl⟩ := ih.1 h
      exact ⟨b :: first, more, (cons _ _ _).2 ⟨b, first, hb, hfirst, rfl⟩, hmore, rfl⟩
    · rintro ⟨_, more, h, hmore, rfl⟩
      obtain ⟨b, first, hb, hfirst, rfl⟩ := (cons _ _ _).1 h
      exact ⟨b, first ++ more, hb, ih.2 ⟨first, more, hfirst, hmore, rfl⟩, rfl⟩

/-- The computation succeeds exactly if something is the case, with a result that has a property. -/
inductive Decides (good : Prop) (Q : α → Prop) : Except ε α → Prop
  | ok {a : α} (hgood : good) (ha : Q a) : Decides good Q (.ok a)
  | error {e : ε} (hbad : ¬ good) : Decides good Q (.error e)

namespace Decides

variable {good good' : Prop} {Q : α → Prop} {x : Except ε α}

theorem imp {Q' : α → Prop} (h : Decides good Q x) (hgood : good ↔ good')
    (hQ : ∀ a, Q a → Q' a) : Decides good' Q' x := by
  cases h with
  | ok h ha => exact .ok (hgood.1 h) (hQ _ ha)
  | error h => exact .error (mt hgood.2 h)

theorem bind {Q' : β → Prop} {f : α → Except ε β} (hx : Decides good Q x)
    (hf : ∀ a, x = .ok a → Q a → Decides good' Q' (f a)) : Decides (good ∧ good') Q' (x >>= f) := by
  cases hx with
  | error hbad => exact .error fun h => hbad h.1
  | ok hgood ha => exact (hf _ rfl ha).imp (and_iff_right hgood).symm fun _ hb => hb

theorem exists_ok (h : Decides good Q x) (hgood : good) : ∃ a, x = .ok a ∧ Q a := by
  cases h with
  | ok _ ha => exact ⟨_, rfl, ha⟩
  | error hbad => exact absurd hgood hbad

theorem exists_error (h : Decides good Q x) (hbad : ¬ good) : ∃ e, x = .error e := by
  cases h with
  | ok hgood _ => exact absurd hgood hbad
  | error _ => exact ⟨_, rfl⟩

end Decides
end RoutePages
