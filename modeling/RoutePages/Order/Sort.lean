/-!
# Stable sorting

Elements that neither comes before the other keep their order.
-/
namespace RoutePages

variable {α : Type}

/-- Puts an element before the first one that does not have to come before it. -/
def insertSorted (precedes : α → α → Bool) (a : α) : List α → List α
  | [] => [a]
  | b :: l => if precedes b a then b :: insertSorted precedes a l else a :: b :: l

def sortBy (precedes : α → α → Bool) : List α → List α
  | [] => []
  | a :: l => insertSorted precedes a (sortBy precedes l)

variable (precedes : α → α → Bool)

theorem insertSorted_perm (a : α) (l : List α) : (insertSorted precedes a l).Perm (a :: l) := by
  induction l with
  | nil => exact .refl _
  | cons b l ih =>
    rw [insertSorted]
    split
    · exact (ih.cons b).trans (.swap a b l)
    · exact .refl _

/-- Sorting neither loses nor adds anything. -/
theorem sortBy_perm (l : List α) : (sortBy precedes l).Perm l := by
  induction l with
  | nil => exact .refl _
  | cons a l ih => exact (insertSorted_perm precedes a _).trans (ih.cons a)

section
variable {precedes} (asymm : ∀ a b, precedes a b = true → precedes b a = false)
  (trans : ∀ a b c, precedes b a = false → precedes c b = false → precedes c a = false)
include asymm trans

theorem insertSorted_pairwise (a : α) {l : List α}
    (h : l.Pairwise (fun a b => precedes b a = false)) :
    (insertSorted precedes a l).Pairwise (fun a b => precedes b a = false) := by
  induction l with
  | nil => exact List.pairwise_singleton _ a
  | cons b l ih =>
    obtain ⟨hb, hl⟩ := List.pairwise_cons.1 h
    rw [insertSorted]
    split
    · rename_i hba
      refine List.pairwise_cons.2 ⟨fun c hc => ?_, ih hl⟩
      rcases List.mem_cons.1 ((insertSorted_perm precedes a l).mem_iff.1 hc) with rfl | hc
      · exact asymm b c hba
      · exact hb c hc
    · rename_i hba
      have hab : precedes b a = false := by simpa using hba
      refine List.pairwise_cons.2 ⟨fun c hc => ?_, h⟩
      rcases List.mem_cons.1 hc with rfl | hc
      · exact hab
      · exact trans a b c hab (hb c hc)

/-- No element has to come before an earlier one of the sorted list. -/
theorem sortBy_pairwise (l : List α) :
    (sortBy precedes l).Pairwise (fun a b => precedes b a = false) := by
  induction l with
  | nil => exact .nil
  | cons a l ih => exact insertSorted_pairwise asymm trans a ih

end

/-- What is sorted stays as it is. -/
theorem sortBy_of_pairwise {l : List α} (h : l.Pairwise (fun a b => precedes b a = false)) :
    sortBy precedes l = l := by
  induction l with
  | nil => rfl
  | cons a l ih =>
    obtain ⟨ha, hl⟩ := List.pairwise_cons.1 h
    rw [sortBy, ih hl]
    cases l with
    | nil => rfl
    | cons b l => rw [insertSorted, ha b List.mem_cons_self, if_neg Bool.false_ne_true]

end RoutePages
