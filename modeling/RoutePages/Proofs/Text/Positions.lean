import Mathlib.Data.List.Induction
import RoutePages.Proofs.Text.Parts
import RoutePages.Proofs.Text.Split
import RoutePages.Text.Position

/-!
# Positions tell offsets

The line and the column of an offset lead back to it, and offsets further on have later
positions. Both follow from the lines of a text that is cut at the offset: the last line of the
first part and the first line of the second one together are a line of the whole.
-/
namespace RoutePages

namespace Text

/-- A line of a text, counted from one. The lines lie between the line feeds. -/
def line? (source : Text) : (number : Nat) → Option Text
  | 0 => none
  | above + 1 => (splitOn '\n' source)[above]?

/-- The offset of a column of a line, both counted from one. A line has a column before each of its
characters, and one at its end. -/
def offset? (source : Text) (line column : Nat) : Option Nat := do
  let text ← source.line? line
  let above := (splitOn '\n' source).take (line - 1)
  if 0 < column ∧ column ≤ text.length + 1 then
    some (size (above.flatMap (· ++ ['\n'])) + size (text.take (column - 1)))
  else none

/-! ## Lines of a text that is cut -/

theorem splitOn_append_line {separator : Char} {s t last first : Text} {above below : List Text}
    (hs : splitOn separator s = above ++ [last]) (ht : splitOn separator t = first :: below) :
    splitOn separator (s ++ t) = above ++ (last ++ first) :: below := by
  induction s generalizing above last with
  | nil =>
    cases above with
    | nil =>
      cases hs
      exact ht
    | cons line above => cases above <;> cases hs
  | cons c s ih =>
    obtain ⟨part, parts, hparts⟩ := splitOn_eq_cons separator s
    by_cases hc : c = separator
    · subst hc
      rw [splitOn_cons_self] at hs
      rw [List.cons_append, splitOn_cons_self]
      cases above with
      | nil =>
        rw [hparts] at hs
        cases hs
      | cons line above =>
        obtain ⟨rfl, hrest⟩ := List.cons.inj hs
        rw [ih hrest]
        rfl
    · rw [splitOn_cons_of_ne hc hparts] at hs
      cases above with
      | nil =>
        obtain ⟨rfl, rfl⟩ := List.cons.inj hs
        have hfirst : splitOn separator (s ++ t) = [] ++ (part ++ first) :: below := ih hparts
        rw [List.cons_append, splitOn_cons_of_ne hc hfirst]
        rfl
      | cons line above =>
        obtain ⟨rfl, rfl⟩ := List.cons.inj hs
        have hrest : splitOn separator (s ++ t) = (part :: above) ++ (last ++ first) :: below :=
          ih hparts
        rw [List.cons_append, splitOn_cons_of_ne hc hrest]
        rfl

theorem lastLine_concat (s : Text) (c : Char) :
    lastLine (s ++ [c]) = if c = '\n' then [] else lastLine s ++ [c] := by
  rw [lastLine, lastLine, List.reverse_concat]
  split
  · rename_i hc
    rw [List.takeWhile_cons_of_neg (by simpa using hc)]
    rfl
  · rename_i hc
    rw [List.takeWhile_cons_of_pos (by simpa using hc), List.reverse_cons]

/-- A text is its full lines, one for each line feed, and its last line. -/
theorem exists_full_lines (s : Text) : ∃ above, splitOn '\n' s = above ++ [lastLine s] ∧
    above.length = s.count '\n' ∧ s = above.flatMap (· ++ ['\n']) ++ lastLine s := by
  induction s using List.reverseRecOn with
  | nil => exact ⟨[], rfl, rfl, rfl⟩
  | append_singleton s c ih =>
    obtain ⟨above, hsplit, hcount, hs⟩ := ih
    by_cases hc : c = '\n'
    · subst hc
      refine ⟨above ++ [lastLine s], ?_, ?_, ?_⟩
      · rw [splitOn_append, hsplit, lastLine_concat, if_pos rfl]
        rfl
      · rw [List.length_append, hcount, List.count_append]
        rfl
      · rw [lastLine_concat, if_pos rfl, List.append_nil, List.flatMap_append, List.flatMap_singleton,
          ← List.append_assoc, ← hs]
    · have hone : splitOn '\n' [c] = [[c]] := splitOn_of_not_mem (by simpa using Ne.symm hc)
      refine ⟨above, ?_, ?_, ?_⟩
      · rw [splitOn_append_line hsplit hone, lastLine_concat, if_neg hc]
      · rw [List.count_append, List.count_singleton, hcount, if_neg (by simpa using hc)]
        rfl
      · rw [lastLine_concat, if_neg hc, ← List.append_assoc, ← hs]

theorem exists_first_line (s : Text) : ∃ below, splitOn '\n' s = beforeBreak s :: below := by
  induction s with
  | nil => exact ⟨[], rfl⟩
  | cons c s ih =>
    obtain ⟨below, hs⟩ := ih
    by_cases hc : c = '\n'
    · subst hc
      exact ⟨splitOn '\n' s, splitOn_cons_self '\n' s⟩
    · refine ⟨below, ?_⟩
      rw [splitOn_cons_of_ne hc hs, beforeBreak, beforeBreak,
        List.takeWhile_cons_of_pos (by simpa using hc)]

theorem lastLine_append (s t : Text) (ht : '\n' ∉ t) : lastLine (s ++ t) = lastLine s ++ t := by
  induction t using List.reverseRecOn with
  | nil => rw [List.append_nil, List.append_nil]
  | append_singleton t c ih =>
    have hc : c ≠ '\n' := fun heq => ht (by simp [heq])
    rw [← List.append_assoc, lastLine_concat, if_neg hc, ih fun hmem => ht (by simp [hmem]),
      List.append_assoc]

/-! ## Positions of a text that is cut -/

theorem position?_append (before after : Text) :
    position? (before ++ after) (size before) = some {
      line := before.count '\n' + 1
      column := (lastLine before).length + 1
      snippet := trimEnd (lastLine before ++ beforeBreak after) } := by
  have hmin : min (size before) (size (before ++ after)) = size before := by
    rw [size_append]
    omega
  rw [position?]
  simp only [hmin, take?_append, drop?_append]
  rfl

theorem line?_append (before after : Text) : (before ++ after).line? (before.count '\n' + 1) =
    some (lastLine before ++ beforeBreak after) := by
  obtain ⟨above, hbefore, hcount, -⟩ := exists_full_lines before
  obtain ⟨below, hafter⟩ := exists_first_line after
  rw [line?, splitOn_append_line hbefore hafter, ← hcount, List.getElem?_append_right (Nat.le_refl _),
    Nat.sub_self]
  rfl

/-- The column behind the last line of the first part is where the text is cut. -/
theorem offset?_append (before after : Text) :
    (before ++ after).offset? (before.count '\n' + 1) ((lastLine before).length + 1) =
      some (size before) := by
  obtain ⟨above, hbefore, hcount, hfull⟩ := exists_full_lines before
  obtain ⟨below, hafter⟩ := exists_first_line after
  have habove : (splitOn '\n' (before ++ after)).take (before.count '\n') = above := by
    rw [splitOn_append_line hbefore hafter, ← hcount, List.take_left]
  have hfits : 0 < (lastLine before).length + 1 ∧ (lastLine before).length + 1 ≤
      (lastLine before ++ beforeBreak after).length + 1 := by
    rw [List.length_append]
    omega
  have hsize : size (above.flatMap (· ++ ['\n'])) + size (lastLine before) = size before := by
    rw [← size_append, ← hfull]
  rw [offset?, line?_append]
  simp only [Option.bind_eq_bind, Option.bind_some, Nat.add_sub_cancel, if_pos hfits, habove,
    List.take_left, hsize]

end Text

/-- The position stands on an earlier line, or on the same line at an earlier column. -/
def Position.Precedes (p q : Position) : Prop :=
  p.line < q.line ∨ p.line = q.line ∧ p.column < q.column

/-- Behind more text the line is a later one, or the column is. -/
theorem Text.precedes_append (before after : Text) {between : Text} (hne : between ≠ []) :
    ∃ p q, Text.position? (before ++ (between ++ after)) (Text.size before) = some p ∧
      Text.position? (before ++ (between ++ after)) (Text.size (before ++ between)) = some q ∧
      p.Precedes q := by
  have hlater := Text.position?_append (before ++ between) after
  rw [List.append_assoc] at hlater
  refine ⟨_, _, Text.position?_append before (between ++ after), hlater, ?_⟩
  by_cases hfeed : '\n' ∈ between
  · refine .inl (Nat.succ_lt_succ ?_)
    rw [List.count_append]
    exact Nat.lt_add_of_pos_right (List.count_pos_iff.2 hfeed)
  · refine .inr ⟨?_, Nat.succ_lt_succ ?_⟩
    · show before.count '\n' + 1 = (before ++ between).count '\n' + 1
      rw [List.count_append, List.count_eq_zero.2 hfeed, Nat.add_zero]
    · rw [Text.lastLine_append _ _ hfeed, List.length_append]
      exact Nat.lt_add_of_pos_right (List.length_pos_iff.2 hne)

/-- Of two offsets between characters the later one has the later position. The line and the column
of such an offset lead back to it, and it is shown with its line, less the white space at the end.
An offset past the end counts as the end. -/
theorem Text.position?_identifies (source : Text) :
    (∀ a b, a < b → source.isBoundary a = true → source.isBoundary b = true →
      ∃ p q, source.position? a = some p ∧ source.position? b = some q ∧ p.Precedes q) ∧
    (∀ a, source.isBoundary a = true → ∃ p, source.position? a = some p ∧
      source.offset? p.line p.column = some a ∧
      (source.line? p.line).map Text.trimEnd = some p.snippet) ∧
    ∀ a, Text.size source ≤ a → source.position? a = source.position? (Text.size source) := by
  refine ⟨fun a b hab ha hb => ?_, fun a ha => ?_, fun a ha => ?_⟩
  · obtain ⟨before, rest, rfl, rfl⟩ := isBoundary_iff.1 ha
    obtain ⟨before', after, hsource, rfl⟩ := isBoundary_iff.1 hb
    obtain ⟨between, rfl, rfl⟩ := split_of_size_le hsource (Nat.le_of_lt hab)
    have hne : between ≠ [] := by
      rintro rfl
      rw [List.append_nil] at hab
      exact absurd hab (Nat.lt_irrefl _)
    exact precedes_append before after hne
  · obtain ⟨before, after, rfl, rfl⟩ := isBoundary_iff.1 ha
    refine ⟨_, position?_append before after, offset?_append before after, ?_⟩
    rw [line?_append]
    rfl
  · rw [position?, position?, Nat.min_eq_right ha, Nat.min_self]

/-- Offsets before and behind a pair of line ends, and behind a character of three bytes. -/
theorem Text.position?_identifies_pairs :
    let source : Text := "a表 \r\n\r\nb"
    (∃ p q, source.position? 5 = some p ∧ source.position? 7 = some q ∧ p.Precedes q) ∧
      ∃ p, source.position? 4 = some p ∧ (p.line, p.column, p.snippet) = (1, 3, ("a表" : Text)) ∧
        source.offset? p.line p.column = some 4 := by
  intro source
  obtain ⟨horder, hback, -⟩ := Text.position?_identifies source
  refine ⟨horder 5 7 (by decide) (by decide) (by decide), ?_⟩
  obtain ⟨p, hp, hoffset, -⟩ := hback 4 (by decide)
  have hshown : source.position? 4 = some ⟨1, 3, "a表"⟩ := by decide +kernel
  cases hp.symm.trans hshown
  exact ⟨_, hp, rfl, hoffset⟩

end RoutePages
