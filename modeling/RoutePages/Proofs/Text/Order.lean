import Mathlib.Data.Char
import Mathlib.Data.List.Lex
import RoutePages.Order.Sort
import RoutePages.Text.Basic

/-!
# The order of names

Texts are ordered by their characters, and rows of names by their names. Below one directory, all
that is below a name comes before all that is below a later one.
-/
namespace RoutePages

theorem Text.precedes_iff {s t : Text} : precedes s t = true ↔ s < t := by
  induction s generalizing t with
  | nil =>
    cases t with
    | nil => exact ⟨nofun, fun h => absurd h (lt_irrefl _)⟩
    | cons b t => exact ⟨fun _ => List.nil_lt_cons b t, fun _ => rfl⟩
  | cons a s ih =>
    cases t with
    | nil => exact ⟨nofun, fun h => absurd h (List.not_lt_nil _)⟩
    | cons b t =>
      rw [precedes, Bool.or_eq_true, Bool.and_eq_true, decide_eq_true_eq, decide_eq_true_eq, ih,
        List.cons_lt_cons_iff, Char.lt_def]

theorem Text.precedes_eq_false_iff {s t : Text} : precedes t s = false ↔ s ≤ t := by
  rw [← not_lt, ← precedes_iff, Bool.not_eq_true]

/-- What is sorted by names that are all different comes in the order of the names. -/
theorem sortBy_names {β : Type} {l : List (Text × β)} (hdistinct : (l.map Prod.fst).Nodup) :
    (sortBy (fun a b => Text.precedes a.1 b.1) l).Pairwise (fun a b => a.1 < b.1) := by
  let precedes : Text × β → Text × β → Bool := fun a b => Text.precedes a.1 b.1
  have hasymm : ∀ a b, precedes a b = true → precedes b a = false :=
    fun a b hab => Text.precedes_eq_false_iff.2 (Text.precedes_iff.1 hab).le
  have htrans : ∀ a b c, precedes b a = false → precedes c b = false → precedes c a = false :=
    fun a b c hab hbc => Text.precedes_eq_false_iff.2
      ((Text.precedes_eq_false_iff.1 hab).trans (Text.precedes_eq_false_iff.1 hbc))
  have hapart := List.pairwise_map.1 (((sortBy_perm precedes l).map Prod.fst).nodup_iff.2 hdistinct)
  refine (hapart.and (sortBy_pairwise hasymm htrans l)).imp fun ⟨hne, hle⟩ => ?_
  exact lt_of_le_of_ne (Text.precedes_eq_false_iff.1 hle) hne

variable {dir x y : List Text} {first second : Text}

theorem lt_of_extends (h : dir <+: x) (hne : x ≠ dir) : dir < x := by
  obtain ⟨names, rfl⟩ := h
  cases names with
  | nil => exact absurd (List.append_nil dir) hne
  | cons name names =>
    have hless : dir ++ [] < dir ++ name :: names :=
      List.append_left_lt (List.nil_lt_cons name names)
    rwa [List.append_nil] at hless

theorem le_of_extends (h : dir <+: x) : dir ≤ x := by
  by_cases hsame : x = dir
  · exact hsame.ge
  · exact (lt_of_extends h hsame).le

/-- What is below a name of a directory comes before what is below a later name. -/
theorem lt_of_extends_of_lt (h : first < second) (hx : dir ++ [first] <+: x)
    (hy : dir ++ [second] <+: y) : x < y := by
  obtain ⟨below, rfl⟩ := hx
  obtain ⟨below', rfl⟩ := hy
  rw [List.append_assoc, List.append_assoc]
  exact List.append_left_lt (List.cons_lt_cons_iff.2 (.inl h))

end RoutePages
