import RoutePages.Text.Basic
import RoutePages.Text.Blank

/-!
# Facts about trimming and splitting
-/
namespace RoutePages.Text

theorem dropWhile_of_head (p : Char → Bool) (s : Text) (h : ∀ c ∈ s.head?, p c = false) :
    s.dropWhile p = s := by
  cases s with
  | nil => rfl
  | cons c s => simp [List.dropWhile, h c (by simp)]

theorem head_dropWhile (p : Char → Bool) (s : Text) : ∀ c ∈ (s.dropWhile p).head?, p c = false := by
  induction s with
  | nil => simp
  | cons c s ih =>
    by_cases hc : p c = true
    · simpa [List.dropWhile, hc] using ih
    · simp [List.dropWhile, hc]

theorem dropWhile_subset (p : Char → Bool) (s : Text) : ∀ c ∈ s.dropWhile p, c ∈ s :=
  fun _ h => (List.dropWhile_sublist p).subset h

theorem trimEnd_subset (s : Text) : ∀ c ∈ trimEnd s, c ∈ s := by
  intro c h
  exact List.mem_reverse.1 (dropWhile_subset _ _ c (List.mem_reverse.1 h))

theorem trim_subset (s : Text) : ∀ c ∈ trim s, c ∈ s :=
  fun c h => dropWhile_subset _ s c (trimEnd_subset _ c h)

/-- What is cut off at the end fulfils the condition, and what is left does not end in it. -/
theorem dropEndWhile_split (s : Text) (p : Char → Bool) :
    ∃ t, s = dropEndWhile s p ++ t ∧ (∀ c ∈ t, p c = true) ∧
      ∀ c ∈ (dropEndWhile s p).getLast?, p c = false := by
  refine ⟨(s.reverse.takeWhile p).reverse, ?_, fun c hc => ?_, fun c hc => ?_⟩
  · rw [dropEndWhile, ← List.reverse_append, List.takeWhile_append_dropWhile, List.reverse_reverse]
  · exact List.all_eq_true.1 List.all_takeWhile c (List.mem_reverse.1 hc)
  · rw [dropEndWhile, List.getLast?_reverse] at hc
    exact head_dropWhile p s.reverse c hc

/-- What is trimmed at its end begins the whole, and only white space follows. -/
theorem trimEnd_split (s : Text) :
    ∃ t, s = trimEnd s ++ t ∧ (∀ c ∈ t, isBlank c = true) ∧
      ∀ c ∈ (trimEnd s).getLast?, isBlank c = false :=
  dropEndWhile_split s isBlank

/-- What is trimmed at its end begins the whole. -/
theorem trimEnd_append (s : Text) : ∃ t, trimEnd s ++ t = s := by
  obtain ⟨t, ht, -⟩ := trimEnd_split s
  exact ⟨t, ht.symm⟩

theorem trimEnd_trimEnd (s : Text) : trimEnd (trimEnd s) = trimEnd s := by
  unfold trimEnd
  rw [List.reverse_reverse, dropWhile_of_head]
  exact head_dropWhile _ _

theorem head?_trim (s : Text) : ∀ c ∈ (trim s).head?, isBlank c = false := by
  intro c hc
  obtain ⟨t, ht⟩ := trimEnd_append (s.dropWhile isBlank)
  apply head_dropWhile isBlank s c
  rw [← ht]
  change c ∈ (trim s ++ t).head?
  rw [List.head?_append, Option.mem_def.1 hc]
  rfl

theorem getLast?_trim (s : Text) : ∀ c ∈ (trim s).getLast?, isBlank c = false := by
  obtain ⟨-, -, -, hlast⟩ := trimEnd_split (s.dropWhile isBlank)
  exact hlast

/-- Trimming leaves nothing to trim. -/
theorem trim_trim (s : Text) : trim (trim s) = trim s := by
  have h : (trim s).dropWhile isBlank = trim s := dropWhile_of_head isBlank _ (head?_trim s)
  show trimEnd ((trim s).dropWhile isBlank) = trim s
  rw [h]
  exact trimEnd_trimEnd _

/-- No part holds the separator. -/
theorem not_mem_of_mem_splitOn (separator : Char) (s part : Text) (h : part ∈ splitOn separator s) :
    separator ∉ part := by
  induction s generalizing part with
  | nil => simp_all [splitOn]
  | cons c s ih =>
    rw [splitOn] at h
    split at h
    · rcases List.mem_cons.1 h with rfl | h
      · simp
      · exact ih part h
    · rename_i hc
      split at h
      · rcases List.mem_singleton.1 h with rfl
        simpa using fun e => hc e.symm
      · rename_i first rest heq
        rcases List.mem_cons.1 h with rfl | h
        · have := ih first (by rw [heq]; simp)
          simp [this, Ne.symm hc]
        · exact ih part (by rw [heq]; simp [h])

end RoutePages.Text
