import Mathlib.Data.List.Infix
import RoutePages.Text.Basic

/-!
# Texts in which a part is replaced

The part that is replaced never overlaps itself, since its first character does not come again in
it. A text in which some occurrences of the part are replaced is the text in which all of them are
exactly when none was left, or when the part is replaced by itself.
-/
namespace RoutePages.Text

/-- At how many places of a text a part stands. -/
def occurrences (part : Text) : Text → Nat
  | [] => 0
  | c :: s => (if part.isPrefixOf (c :: s) then 1 else 0) + occurrences part s

/-- Some occurrences of a part are replaced, and all other characters are kept. -/
inductive PartlyReplaced (old new : Text) : (replaced : Nat) → (before after : Text) → Prop
  | nil : PartlyReplaced old new 0 [] []
  | kept {n : Nat} {c : Char} {s t : Text} (h : PartlyReplaced old new n s t) :
      PartlyReplaced old new n (c :: s) (c :: t)
  | replaced {n : Nat} {s t : Text} (h : PartlyReplaced old new n s t) :
      PartlyReplaced old new (n + 1) (old ++ s) (new ++ t)

variable {first c : Char} {rest old new s t v : Text} {n : Nat}

theorem isPrefixOf_iff : old.isPrefixOf s = true ↔ ∃ t, s = old ++ t := by
  rw [List.isPrefixOf_iff_prefix, List.IsPrefix]
  simp only [eq_comm]

theorem replaceFrom_append (old new v s : Text) :
    replaceFrom old new v.length (v ++ s) = replaceFrom old new 0 s := by
  induction v with
  | nil => rfl
  | cons c v ih => exact ih

theorem replace_old (first : Char) (rest new s : Text) :
    replace (first :: rest ++ s) (first :: rest) new = new ++ replace s (first :: rest) new := by
  have hold : (first :: rest).isPrefixOf (first :: (rest ++ s)) = true := isPrefixOf_iff.2 ⟨s, rfl⟩
  rw [List.cons_append, replace, replaceFrom, if_pos hold]
  exact congrArg (new ++ ·) (replaceFrom_append _ _ rest s)

theorem replace_cons (h : old.isPrefixOf (c :: s) = false) :
    replace (c :: s) old new = c :: replace s old new := by
  rw [replace, replaceFrom, h]
  rfl

theorem isPrefixOf_of_ne (h : first ≠ c) : (first :: rest).isPrefixOf (c :: s) = false := by
  rw [List.isPrefixOf, beq_eq_false_iff_ne.2 h, Bool.false_and]

/-- Nothing is replaced in front, where the first character of the part does not stand. -/
theorem replace_append (h : first ∉ v) :
    replace (v ++ s) (first :: rest) new = v ++ replace s (first :: rest) new := by
  induction v with
  | nil => rfl
  | cons c v ih =>
    obtain ⟨hc, hv⟩ := not_or.1 (mt List.mem_cons.2 h)
    rw [List.cons_append, replace_cons (isPrefixOf_of_ne hc), ih hv, List.cons_append]

theorem occurrences_cons (h : old.isPrefixOf (c :: s) = false) :
    occurrences old (c :: s) = occurrences old s := by
  rw [occurrences, h]
  exact Nat.zero_add _

theorem occurrences_append (h : first ∉ v) :
    occurrences (first :: rest) (v ++ s) = occurrences (first :: rest) s := by
  induction v with
  | nil => rfl
  | cons c v ih =>
    obtain ⟨hc, hv⟩ := not_or.1 (mt List.mem_cons.2 h)
    rw [List.cons_append, occurrences_cons (isPrefixOf_of_ne hc), ih hv]

theorem occurrences_old (h : first ∉ rest) :
    occurrences (first :: rest) (first :: rest ++ s) = occurrences (first :: rest) s + 1 := by
  have hold : (first :: rest).isPrefixOf (first :: (rest ++ s)) = true := isPrefixOf_iff.2 ⟨s, rfl⟩
  rw [List.cons_append, occurrences, if_pos hold, occurrences_append h, Nat.add_comm]

namespace PartlyReplaced

theorem length_eq (h : PartlyReplaced old new n s t) :
    t.length + n * old.length = s.length + n * new.length := by
  induction h with
  | nil => simp
  | kept h ih =>
    simp only [List.length_cons]
    omega
  | replaced h ih =>
    simp only [List.length_append, Nat.succ_mul]
    omega

theorem le_occurrences (hfirst : first ∉ rest) (h : PartlyReplaced (first :: rest) new n s t) :
    n ≤ occurrences (first :: rest) s := by
  induction h with
  | nil => exact Nat.zero_le _
  | kept h ih => exact Nat.le_trans ih (Nat.le_add_left _ _)
  | replaced h ih =>
    rw [occurrences_old hfirst]
    exact Nat.succ_le_succ ih

theorem append (v : Text) (h : PartlyReplaced old new n s t) :
    PartlyReplaced old new n (v ++ s) (v ++ t) := by
  induction v with
  | nil => exact h
  | cons c v ih => exact ih.kept

/-- The characters in front are kept, where the first character of the part is not among them. -/
theorem of_append (hv : first ∉ v) (h : PartlyReplaced (first :: rest) new n (v ++ s) t) :
    ∃ t', t = v ++ t' ∧ PartlyReplaced (first :: rest) new n s t' := by
  induction v generalizing t with
  | nil => exact ⟨t, rfl, h⟩
  | cons c v ih =>
    obtain ⟨hc, hv⟩ := not_or.1 (mt List.mem_cons.2 hv)
    rw [List.cons_append] at h
    generalize hbefore : c :: (v ++ s) = before at h
    cases h with
    | nil => cases hbefore
    | kept h =>
      cases hbefore
      obtain ⟨t', rfl, ht'⟩ := ih hv h
      exact ⟨t', rfl, ht'⟩
    | replaced h => exact absurd (List.cons.inj hbefore).1.symm hc

theorem eq_of_same (h : PartlyReplaced old old n s t) : t = s := by
  induction h with
  | nil => rfl
  | kept h ih => rw [ih]
  | replaced h ih => rw [ih]

end PartlyReplaced

/-- Replacing from left to right leaves out no occurrence. -/
theorem replace_partlyReplaced (hfirst : first ∉ rest) (new s : Text) :
    PartlyReplaced (first :: rest) new (occurrences (first :: rest) s) s
      (replace s (first :: rest) new) := by
  induction hlen : s.length using Nat.strongRecOn generalizing s with
  | ind k ih =>
    subst hlen
    cases s with
    | nil => exact .nil
    | cons c s =>
      cases hold : (first :: rest).isPrefixOf (c :: s) with
      | false =>
        rw [occurrences_cons hold, replace_cons hold]
        exact (ih _ (Nat.lt_succ_self _) s rfl).kept
      | true =>
        obtain ⟨t, ht⟩ := isPrefixOf_iff.1 hold
        have hshorter : t.length < (c :: s).length := by
          rw [ht, List.length_append, List.length_cons]
          omega
        rw [ht, occurrences_old hfirst, replace_old]
        exact (ih _ hshorter t rfl).replaced

/-- Where one more occurrence is kept, and the texts still have one length, the part that is put in
is as long as the one that is replaced. -/
theorem length_eq_of_kept {old new before kept all m n : Nat} (hle : n ≤ m)
    (hkept : kept + n * old = before + n * new) (hall : all + m * old = before + m * new)
    (hlength : new + all = old + kept) : new = old := by
  obtain ⟨d, rfl⟩ := Nat.exists_eq_add_of_le hle
  rw [Nat.add_mul, Nat.add_mul] at hall
  refine Nat.eq_of_mul_eq_mul_left (Nat.succ_pos d) ?_
  rw [Nat.succ_mul, Nat.succ_mul]
  omega

/-- All occurrences are replaced exactly when none was left, or nothing changes. -/
theorem PartlyReplaced.replace_eq_iff (hfirst : first ∉ rest)
    (h : PartlyReplaced (first :: rest) new n s t) :
    replace s (first :: rest) new = t ↔
      new = first :: rest ∨ n = occurrences (first :: rest) s := by
  by_cases hsame : new = first :: rest
  · subst hsame
    rw [h.eq_of_same, (replace_partlyReplaced hfirst _ s).eq_of_same]
    exact iff_of_true rfl (.inl rfl)
  simp only [hsame, false_or]
  induction h with
  | nil => exact iff_of_true rfl rfl
  | @replaced n s t h ih =>
    rw [replace_old, occurrences_old hfirst, List.append_cancel_left_eq, ih]
    omega
  | @kept n c s t h ih =>
    cases hold : (first :: rest).isPrefixOf (c :: s) with
    | false =>
      rw [replace_cons hold, occurrences_cons hold, ← ih, List.cons_inj_right]
    | true =>
      -- an occurrence is left: replacing it puts the new text where the old one was kept
      obtain ⟨s', hs'⟩ := isPrefixOf_iff.1 hold
      rw [List.cons_append] at hs'
      obtain ⟨rfl, rfl⟩ := List.cons.inj hs'
      obtain ⟨t', rfl, h'⟩ := h.of_append hfirst
      have hle := h'.le_occurrences hfirst
      rw [← List.cons_append, occurrences_old hfirst, replace_old]
      refine iff_of_false (fun heq => hsame ?_) (by omega)
      refine List.append_inj_left heq (length_eq_of_kept hle h'.length_eq
        (replace_partlyReplaced hfirst new s').length_eq ?_)
      simpa only [List.length_append, List.length_cons, Nat.add_right_comm] using
        congrArg List.length heq

end RoutePages.Text
