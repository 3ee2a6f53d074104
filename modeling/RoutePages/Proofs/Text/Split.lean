import RoutePages.Text.Basic

/-!
# Positions split a text

A byte position that lies between two characters splits a text into the part
before it and the part behind it. Everything the other modules say about offsets
goes through these splits.
-/
namespace RoutePages.Text

@[simp] theorem size_nil : size [] = 0 := rfl

@[simp] theorem size_cons (c : Char) (s : Text) : size (c :: s) = c.utf8Size + size s := rfl

@[simp] theorem size_append (s t : Text) : size (s ++ t) = size s + size t := by
  induction s with
  | nil => simp
  | cons c s ih => simp [ih, Nat.add_assoc]

theorem size_eq_zero {s : Text} (h : size s = 0) : s = [] := by
  cases s with
  | nil => rfl
  | cons c s =>
    have hc := c.utf8Size_pos
    simp only [size_cons] at h
    omega

theorem drop?_zero (s : Text) : s.drop? 0 = some s := by cases s <;> rfl

theorem drop?_cons {c : Char} (s : Text) {n : Nat} (h : c.utf8Size ≤ n) :
    drop? n (c :: s) = drop? (n - c.utf8Size) s := by
  have hc := c.utf8Size_pos
  cases n with
  | zero => omega
  | succ n => rw [drop?, if_pos h]

theorem drop?_append (p r : Text) : drop? (size p) (p ++ r) = some r := by
  induction p with
  | nil => exact drop?_zero r
  | cons c p ih =>
    rw [List.cons_append, size_cons, drop?_cons _ (Nat.le_add_right _ _), Nat.add_sub_cancel_left]
    exact ih

/-- What is dropped up to a position is a part of that size. -/
theorem drop?_eq_some {s r : Text} {n : Nat} :
    s.drop? n = some r ↔ ∃ p, s = p ++ r ∧ size p = n := by
  constructor
  · intro h
    induction s generalizing n with
    | nil =>
      cases n with
      | zero => exact ⟨[], by simpa [drop?] using h, rfl⟩
      | succ n => simp [drop?] at h
    | cons c s ih =>
      cases n with
      | zero => exact ⟨[], by simpa [drop?] using h, rfl⟩
      | succ n =>
        rw [drop?] at h
        split at h
        · rename_i hc
          obtain ⟨p, rfl, hp⟩ := ih h
          exact ⟨c :: p, rfl, by rw [size_cons, hp]; omega⟩
        · cases h
  · rintro ⟨p, rfl, rfl⟩
    exact drop?_append p r

theorem take?_append (p r : Text) : take? (size p) (p ++ r) = some p := by
  induction p with
  | nil => cases r <;> rfl
  | cons c p ih =>
    have hc := c.utf8Size_pos
    obtain ⟨n, hn⟩ : ∃ n, size (c :: p) = n + 1 := ⟨size (c :: p) - 1, by rw [size_cons]; omega⟩
    have hp : n + 1 - c.utf8Size = size p := by rw [← hn, size_cons]; omega
    rw [List.cons_append, hn, take?, if_pos (by rw [← hn, size_cons]; omega), hp, ih]
    rfl

theorem take?_eq_some {s p : Text} {n : Nat} :
    s.take? n = some p ↔ ∃ r, s = p ++ r ∧ size p = n := by
  constructor
  · intro h
    induction s generalizing n p with
    | nil =>
      cases n with
      | zero => exact ⟨[], by simp_all [take?], by simp_all [take?]⟩
      | succ n => simp [take?] at h
    | cons c s ih =>
      cases n with
      | zero => exact ⟨c :: s, by simp_all [take?], by simp_all [take?]⟩
      | succ n =>
        rw [take?] at h
        split at h
        · rename_i hc
          obtain ⟨q, hq, rfl⟩ := Option.map_eq_some_iff.1 h
          obtain ⟨r, rfl, hr⟩ := ih hq
          exact ⟨r, rfl, by rw [size_cons, hr]; omega⟩
        · cases h
  · rintro ⟨r, rfl, rfl⟩
    exact take?_append p r

theorem slice?_append (p t r : Text) : slice? (p ++ t ++ r) (size p) (size p + size t) = some t := by
  rw [slice?, if_pos (Nat.le_add_right _ _), List.append_assoc, drop?_append]
  simp only [Option.bind_some, Nat.add_sub_cancel_left]
  exact take?_append t r

theorem slice?_eq_some {s t : Text} {a b : Nat} :
    slice? s a b = some t ↔ ∃ p r, s = p ++ t ++ r ∧ size p = a ∧ b = a + size t := by
  constructor
  · intro h
    rw [slice?] at h
    split at h
    · rename_i hab
      obtain ⟨u, hu, ht⟩ := Option.bind_eq_some_iff.1 h
      obtain ⟨p, rfl, hp⟩ := drop?_eq_some.1 hu
      obtain ⟨r, rfl, hr⟩ := take?_eq_some.1 ht
      exact ⟨p, r, by rw [List.append_assoc], hp, by omega⟩
    · cases h
  · rintro ⟨p, r, rfl, rfl, rfl⟩
    exact slice?_append p t r

/-- Of two splits of one text the later one cuts the rest of the earlier one. -/
theorem split_of_size_le {p r q t : Text} (h : p ++ r = q ++ t) (hle : size p ≤ size q) :
    ∃ m, q = p ++ m ∧ r = m ++ t := by
  rcases List.append_eq_append_iff.1 h with ⟨m, rfl, rfl⟩ | ⟨m, rfl, rfl⟩
  · exact ⟨m, rfl, rfl⟩
  · have hm : m = [] := size_eq_zero (by rw [size_append] at hle; omega)
    subst hm
    exact ⟨[], by simp, by simp⟩

/-- A text splits at a position in one way only. -/
theorem split_unique {p r q t : Text} (h : p ++ r = q ++ t) (hs : size p = size q) :
    p = q ∧ r = t := by
  obtain ⟨m, rfl, rfl⟩ := split_of_size_le h (Nat.le_of_eq hs)
  have hm : m = [] := size_eq_zero (by rw [size_append] at hs; omega)
  subst hm
  exact ⟨by simp, by simp⟩

theorem isBoundary_iff {s : Text} {n : Nat} :
    s.isBoundary n = true ↔ ∃ p r, s = p ++ r ∧ size p = n := by
  rw [isBoundary, Option.isSome_iff_exists]
  constructor
  · rintro ⟨r, hr⟩
    obtain ⟨p, hp⟩ := drop?_eq_some.1 hr
    exact ⟨p, r, hp⟩
  · rintro ⟨p, r, hp⟩
    exact ⟨r, drop?_eq_some.2 ⟨p, hp⟩⟩

theorem isBoundary_size_append (p r : Text) : isBoundary (p ++ r) (size p) = true :=
  isBoundary_iff.2 ⟨p, r, rfl, rfl⟩

theorem isBoundary_append {s : Text} {n : Nat} (h : s.isBoundary n = true) (t : Text) :
    isBoundary (s ++ t) n = true := by
  obtain ⟨p, r, rfl, rfl⟩ := isBoundary_iff.1 h
  rw [List.append_assoc]
  exact isBoundary_size_append p (r ++ t)

/-- A boundary lies in the text. -/
theorem le_size_of_isBoundary {s : Text} {n : Nat} (h : s.isBoundary n = true) : n ≤ size s := by
  obtain ⟨p, r, rfl, rfl⟩ := isBoundary_iff.1 h
  rw [size_append]
  exact Nat.le_add_right _ _

end RoutePages.Text
