import RoutePages.Text.Basic

/-!
# Texts split at a separator
-/
namespace RoutePages.Text

variable {separator : Char}

theorem splitOn_cons_self (separator : Char) (s : Text) :
    splitOn separator (separator :: s) = [] :: splitOn separator s := by
  rw [splitOn, if_pos rfl]

theorem splitOn_cons_of_ne {c : Char} {s part : Text} {parts : List Text} (h : c ≠ separator)
    (hs : splitOn separator s = part :: parts) :
    splitOn separator (c :: s) = (c :: part) :: parts := by
  rw [splitOn, if_neg h, hs]

theorem splitOn_eq_cons (separator : Char) (s : Text) :
    ∃ part parts, splitOn separator s = part :: parts := by
  induction s with
  | nil => exact ⟨[], [], rfl⟩
  | cons c s ih =>
    obtain ⟨part, parts, hs⟩ := ih
    by_cases hc : c = separator
    · exact ⟨[], splitOn separator s, hc ▸ splitOn_cons_self c s⟩
    · exact ⟨c :: part, parts, splitOn_cons_of_ne hc hs⟩

theorem splitOn_append (s t : Text) :
    splitOn separator (s ++ separator :: t) = splitOn separator s ++ splitOn separator t := by
  induction s with
  | nil => exact splitOn_cons_self separator t
  | cons c s ih =>
    obtain ⟨part, parts, hs⟩ := splitOn_eq_cons separator s
    by_cases hc : c = separator
    · subst hc
      rw [List.cons_append, splitOn_cons_self, splitOn_cons_self, ih, List.cons_append]
    · rw [hs, List.cons_append] at ih
      rw [List.cons_append, splitOn_cons_of_ne hc ih, splitOn_cons_of_ne hc hs, List.cons_append]

theorem splitOn_of_not_mem {s : Text} (h : separator ∉ s) : splitOn separator s = [s] := by
  induction s with
  | nil => rfl
  | cons c s ih =>
    obtain ⟨hc, hs⟩ := not_or.1 (mt List.mem_cons.2 h)
    exact splitOn_cons_of_ne (Ne.symm hc) (ih hs)

theorem splitOn_flatMap {parts : List Text} (h : ∀ part ∈ parts, separator ∉ part) :
    splitOn separator (parts.flatMap (separator :: ·)) = [] :: parts := by
  induction parts with
  | nil => rfl
  | cons part parts ih =>
    obtain ⟨hpart, hparts⟩ := List.forall_mem_cons.1 h
    rw [List.flatMap_cons, List.cons_append, splitOn_cons_self]
    cases parts with
    | nil => rw [List.flatMap_nil, List.append_nil, splitOn_of_not_mem hpart]
    | cons next parts =>
      have hsplit := ih hparts
      rw [List.flatMap_cons, List.cons_append] at hsplit ⊢
      rw [splitOn_cons_self] at hsplit
      rw [splitOn_append, splitOn_of_not_mem hpart, (List.cons.inj hsplit).2]
      rfl

theorem splitOn_join {parts : List Text} (hne : parts ≠ [])
    (h : ∀ part ∈ parts, separator ∉ part) : splitOn separator (join [separator] parts) = parts := by
  induction parts with
  | nil => exact absurd rfl hne
  | cons part parts ih =>
    obtain ⟨hpart, hparts⟩ := List.forall_mem_cons.1 h
    cases parts with
    | nil => exact splitOn_of_not_mem hpart
    | cons next parts =>
      have hrest := ih (List.cons_ne_nil next parts) hparts
      rw [join, List.append_assoc, List.singleton_append, splitOn_append,
        splitOn_of_not_mem hpart, hrest]
      rfl

end RoutePages.Text
