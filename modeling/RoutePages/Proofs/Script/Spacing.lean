import RoutePages.Proofs.Script.Words
import RoutePages.Proofs.Text.Split

/-!
# White space and comments

Spacing is what a text is read behind as if it were not there, but that a line may end in it.
-/
namespace RoutePages.Script

variable {s tail : Text} {pos : Nat} {broken : Bool}

/-- The token after a place, where a line may have ended already. -/
def Token.after (broken : Bool) (p : Place) : Token :=
  (gapFrom .blank p.pos broken none p.rest).token lexemeAt

/-- White space and comments, behind which a text is read as if they were not there. -/
def IsSpacing (s : Text) : Prop :=
  ∃ brk : Bool, ∀ (pos : Nat) (broken : Bool) (flaw : Option Nat) (tail : Text),
    gapFrom .blank pos broken flaw (s ++ tail) =
      gapFrom .blank (pos + Text.size s) (broken || brk) flaw tail

theorem isSpacing_nil : IsSpacing [] := by
  refine ⟨false, fun pos broken flaw tail => ?_⟩
  rw [Bool.or_false]
  rfl

theorem IsSpacing.append {t : Text} (hs : IsSpacing s) (ht : IsSpacing t) : IsSpacing (s ++ t) := by
  obtain ⟨brk, hs⟩ := hs
  obtain ⟨brk', ht⟩ := ht
  refine ⟨brk || brk', fun pos broken flaw tail => ?_⟩
  rw [List.append_assoc, hs, ht, Text.size_append, Nat.add_assoc, Bool.or_assoc]

/-- White space is spacing. -/
theorem isSpacing_blank {c : Char} (hc : c = ' ' ∨ c = '\t' ∨ c = '\n' ∨ c = '\r') :
    IsSpacing [c] := by
  rcases hc with rfl | rfl | rfl | rfl
  · exact ⟨false, fun _ broken _ _ => by cases broken <;> rfl⟩
  · exact ⟨false, fun _ broken _ _ => by cases broken <;> rfl⟩
  · exact ⟨true, fun _ broken _ _ => by cases broken <;> rfl⟩
  · exact ⟨true, fun _ broken _ _ => by cases broken <;> rfl⟩

theorem isSpacing_blanks (h : s.all fun c => c = ' ' || c = '\t' || c = '\n' || c = '\r') :
    IsSpacing s := by
  induction s with
  | nil => exact isSpacing_nil
  | cons c s ih =>
    rw [List.all_cons, Bool.and_eq_true] at h
    obtain ⟨hc, hs⟩ := h
    simp only [Bool.or_eq_true, decide_eq_true_eq, or_assoc] at hc
    exact (isSpacing_blank hc).append (ih hs)

theorem gapFrom_line (h : s.all fun c => !isLineEnd c) (broken : Bool) (flaw : Option Nat) :
    gapFrom .line pos broken flaw (s ++ '\n' :: tail) =
      gapFrom .blank (pos + Text.size s + 1) true flaw tail := by
  induction s generalizing pos with
  | nil => rfl
  | cons c s ih =>
    rw [List.all_cons, Bool.and_eq_true, Bool.not_eq_true'] at h
    obtain ⟨hc, hs⟩ := h
    rw [List.cons_append, gapFrom, if_neg (Bool.eq_false_iff.1 hc), ih hs, Text.size,
      Nat.add_assoc pos]

/-- A line comment with the end of its line is spacing. -/
theorem isSpacing_lineComment (h : s.all fun c => !isLineEnd c) : IsSpacing ("//" ++ s ++ "\n") := by
  refine ⟨true, fun pos broken flaw tail => ?_⟩
  have htext : ("//" ++ s ++ "\n" ++ tail : Text) = '/' :: '/' :: (s ++ '\n' :: tail) := by simp
  have hsize : pos + Text.size ("//" ++ s ++ "\n") = pos + 2 + Text.size s + 1 := by
    have hsigns : Text.size "//" = 2 ∧ Text.size "\n" = 1 := by decide
    rw [Text.size_append, Text.size_append, hsigns.1, hsigns.2]
    omega
  have hopen : gapFrom .blank pos broken flaw ('/' :: '/' :: (s ++ '\n' :: tail)) =
      gapFrom .line (pos + 2) broken flaw (s ++ '\n' :: tail) := by
    cases broken <;> rfl
  rw [htext, hsize, hopen, gapFrom_line h, Bool.or_true]

theorem gapFrom_block (h : '*' ∉ s) (start : Nat) (broken : Bool) (flaw : Option Nat) :
    gapFrom (.block start) pos broken flaw (s ++ '*' :: '/' :: tail) =
      gapFrom .blank (pos + Text.size s + 2) (broken || s.any isLineEnd) flaw tail := by
  induction s generalizing pos broken with
  | nil =>
    rw [List.any_nil, Bool.or_false]
    rfl
  | cons c s ih =>
    obtain ⟨hc, hs⟩ := not_or.1 (mt List.mem_cons.2 h)
    have hstep : gapFrom (.block start) pos broken flaw (c :: (s ++ '*' :: '/' :: tail)) =
        gapFrom (.block start) (pos + c.utf8Size) (broken || isLineEnd c) flaw
          (s ++ '*' :: '/' :: tail) := by
      rw [gapFrom]
      rintro rest rfl
      exact absurd rfl hc
    rw [List.cons_append, hstep, ih hs, Text.size, List.any_cons, Bool.or_assoc, Nat.add_assoc pos]

/-- A comment between its marks is spacing. -/
theorem isSpacing_blockComment (h : '*' ∉ s) : IsSpacing ("/*" ++ s ++ "*/") := by
  refine ⟨s.any isLineEnd, fun pos broken flaw tail => ?_⟩
  have htext : ("/*" ++ s ++ "*/" ++ tail : Text) = '/' :: '*' :: (s ++ '*' :: '/' :: tail) := by simp
  have hsize : pos + Text.size ("/*" ++ s ++ "*/") = pos + 2 + Text.size s + 2 := by
    have hsigns : Text.size "/*" = 2 ∧ Text.size "*/" = 2 := by decide
    rw [Text.size_append, Text.size_append, hsigns.1, hsigns.2]
    omega
  have hopen : gapFrom .blank pos broken flaw ('/' :: '*' :: (s ++ '*' :: '/' :: tail)) =
      gapFrom (.block pos) (pos + 2) broken flaw (s ++ '*' :: '/' :: tail) := by
    cases broken <;> rfl
  rw [htext, hsize, hopen, gapFrom_block h]

/-- A token is read behind spacing as it is without. -/
theorem IsSpacing.after (h : IsSpacing s) :
    ∃ brk, ∀ pos broken tail, Token.after broken ⟨pos, s ++ tail⟩ =
      Token.after (broken || brk) ⟨pos + Text.size s, tail⟩ := by
  obtain ⟨brk, h⟩ := h
  refine ⟨brk, fun pos broken tail => ?_⟩
  unfold Token.after
  rw [h]

/-- No gap comes before a character with which a word can go on. -/
theorem gapFrom_runsOn (h : runsOn s = true) (broken : Bool) (flaw : Option Nat) :
    gapFrom .blank pos broken flaw s = ⟨⟨pos, s⟩, broken, flaw, none⟩ := by
  cases s with
  | nil => cases h
  | cons c s =>
    simp only [runsOn, List.head?_cons, Option.any_some, Bool.or_eq_true, decide_eq_true_eq] at h
    rcases h with hpart | rfl
    · exact gapFrom_of_isIdentifierPart hpart broken flaw
    · exact gapFrom_of_not_isBlank (by decide) (by decide) (by decide) broken flaw

/-- No word goes on in spacing. -/
theorem IsSpacing.not_runsOn (h : IsSpacing s) : runsOn s = false := by
  obtain ⟨brk, h⟩ := h
  apply Bool.eq_false_iff.2
  intro hruns
  have hwhole := h 0 false none []
  rw [List.append_nil, gapFrom_runsOn hruns] at hwhole
  have hrest : s = [] := congrArg (fun g : Gap => g.stop.rest) hwhole
  subst hrest
  cases hruns

theorem IsSpacing.not_runsOn_append {t : Text} (h : IsSpacing s) (ht : runsOn t = false) :
    runsOn (s ++ t) = false := by
  cases s with
  | nil => exact ht
  | cons c s => exact h.not_runsOn

theorem after_word {w : Text} (hw : isPlainWord w = true) (hs : runsOn s = false) (broken : Bool)
    (pos : Nat) : Token.after broken ⟨pos, w ++ s⟩ =
      ⟨.word w, ⟨pos, w ++ s⟩, ⟨pos + Text.size w, s⟩, broken, none⟩ := by
  unfold Token.after
  rw [gapFrom_plainWord hw]
  simp only [Gap.token, lexemeAt_plainWord hw, word_plainWord hw hs, Read.token, Option.or_none]

/-- The signs of lists are read alone. -/
theorem after_sign {c : Char} (hc : c ∈ [',', ':', '[', ']', '\x7b', '\x7d']) (broken : Bool)
    (pos : Nat) (tail : Text) :
    Token.after broken ⟨pos, c :: tail⟩ =
      ⟨.sign [c], ⟨pos, c :: tail⟩, ⟨pos + 1, tail⟩, broken, none⟩ := by
  simp only [List.mem_cons, List.not_mem_nil, or_false] at hc
  rcases hc with rfl | rfl | rfl | rfl | rfl | rfl
  all_goals cases broken <;> rfl

end RoutePages.Script
