import RoutePages.Text.Blank
import RoutePages.Text.Identifier
import RoutePages.Text.Letter
import RoutePages.Text.Numeral

/-!
# Runs of characters

What is in increasing runs is in one of them, and the other way round. Runs that lie in other
runs are checked by going through both lists once.
-/
namespace RoutePages.Text

/-- Do the runs increase, from a lower bound on? -/
def increaseFrom (low : Nat) : List (Nat × Nat) → Bool
  | [] => true
  | (first, last) :: runs => low ≤ first && first ≤ last && increaseFrom (last + 1) runs

/-- Does each of the first runs lie in one of the others? Both have to increase. -/
def liesIn : (runs others : List (Nat × Nat)) → Bool
  | [], _ => true
  | r :: runs, others =>
    match others.dropWhile (fun q => q.2 < r.1) with
    | [] => false
    | q :: more => q.1 ≤ r.1 && r.2 ≤ q.2 && liesIn runs (q :: more)

/-- Does each of the first runs lie apart from all the others? -/
def liesApart (runs others : List (Nat × Nat)) : Bool :=
  runs.all fun r => others.all fun q => q.2 < r.1 || r.2 < q.1

variable {n low : Nat} {r : Nat × Nat} {runs others : List (Nat × Nat)}

theorem exists_of_inRuns (h : inRuns n runs = true) : ∃ r ∈ runs, r.1 ≤ n ∧ n ≤ r.2 := by
  induction runs with
  | nil => cases h
  | cons first runs ih =>
    obtain ⟨start, stop⟩ := first
    rw [inRuns] at h
    split at h
    · rename_i hstop
      exact ⟨_, List.mem_cons_self, of_decide_eq_true h, hstop⟩
    · obtain ⟨r, hr, hn⟩ := ih h
      exact ⟨r, List.mem_cons_of_mem _ hr, hn⟩

theorem low_le_of_mem (h : increaseFrom low runs = true) (hr : r ∈ runs) : low ≤ r.1 := by
  induction runs generalizing low with
  | nil => cases hr
  | cons first runs ih =>
    obtain ⟨start, stop⟩ := first
    simp only [increaseFrom, Bool.and_eq_true, decide_eq_true_eq] at h
    obtain ⟨⟨hlow, hle⟩, hrest⟩ := h
    rcases List.mem_cons.1 hr with rfl | hr
    · exact hlow
    · have hbehind := ih hrest hr
      omega

theorem inRuns_of_mem (h : increaseFrom low runs = true) (hr : r ∈ runs) (hfirst : r.1 ≤ n)
    (hlast : n ≤ r.2) : inRuns n runs = true := by
  induction runs generalizing low with
  | nil => cases hr
  | cons first runs ih =>
    obtain ⟨start, stop⟩ := first
    simp only [increaseFrom, Bool.and_eq_true] at h
    rw [inRuns]
    rcases List.mem_cons.1 hr with rfl | hr
    · rw [if_pos hlast]
      exact decide_eq_true hfirst
    · have hbehind := low_le_of_mem h.2 hr
      rw [if_neg (by omega)]
      exact ih h.2 hr

theorem exists_of_liesIn (h : liesIn runs others = true) (hr : r ∈ runs) :
    ∃ q ∈ others, q.1 ≤ r.1 ∧ r.2 ≤ q.2 := by
  induction runs generalizing others with
  | nil => cases hr
  | cons first runs ih =>
    rw [liesIn] at h
    split at h
    · cases h
    · rename_i q more hdrop
      have hothers : ∀ x ∈ q :: more, x ∈ others := fun x hx =>
        (List.dropWhile_sublist _).mem (hdrop ▸ hx)
      simp only [Bool.and_eq_true, decide_eq_true_eq] at h
      rcases List.mem_cons.1 hr with rfl | hr
      · exact ⟨q, hothers q List.mem_cons_self, h.1⟩
      · obtain ⟨x, hx, hin⟩ := ih h.2 hr
        exact ⟨x, hothers x hx, hin⟩

/-- What is in the runs is in the others, if each run lies in one of these. -/
theorem inRuns_of_liesIn (hincrease : increaseFrom 0 others = true)
    (hin : liesIn runs others = true) (h : inRuns n runs = true) : inRuns n others = true := by
  obtain ⟨r, hr, hfirst, hlast⟩ := exists_of_inRuns h
  obtain ⟨q, hq, hstart, hstop⟩ := exists_of_liesIn hin hr
  exact inRuns_of_mem hincrease hq (by omega) (by omega)

/-- What is in the runs is not in the others, if each run lies apart from these. -/
theorem not_inRuns_of_liesApart (hapart : liesApart runs others = true)
    (h : inRuns n runs = true) : inRuns n others = false := by
  rw [Bool.eq_false_iff]
  intro hother
  obtain ⟨r, hr, hfirst, hlast⟩ := exists_of_inRuns h
  obtain ⟨q, hq, hstart, hstop⟩ := exists_of_inRuns hother
  have hside := List.all_eq_true.1 (List.all_eq_true.1 hapart r hr) q hq
  rw [Bool.or_eq_true, decide_eq_true_eq, decide_eq_true_eq] at hside
  omega

/-- What holds of each character below a bound. -/
theorem forall_of_lt {p : Char → Bool} {c : Char} {bound : Nat}
    (hall : ∀ n < bound, p (Char.ofNat n) = true) (h : c.toNat < bound) : p c = true := by
  have hc := hall c.toNat h
  rwa [Char.ofNat_toNat] at hc

/-! ## Names -/

/-- The property ID_Start, with `_` and `$`. -/
def isNameStart (c : Char) : Bool := inRuns c.toNat identifierStartRuns || c = '_' || c = '$'

/-- The property ID_Continue, with `$`. -/
def isNamePart (c : Char) : Bool := inRuns c.toNat identifierPartRuns || c = '$'

/-- The letters that are not ID_Continue: letters in circles and squares, and the vertical
tilde. -/
def strayLetterRuns : List (Nat × Nat) := [
  (9398, 9449), (11823, 11823), (127280, 127305), (127312, 127337), (127344, 127369)]

/-- Is the character a letter or a numeral that cannot stand in a name? -/
def isStray (c : Char) : Bool :=
  inRuns c.toNat strayLetterRuns || (isNumeral c && !isNamePart c)

/-- How the tables lie to each other. All of it is computed here at once. -/
theorem identifierPartRuns_spec :
    increaseFrom 0 identifierPartRuns = true ∧
    liesIn identifierStartRuns identifierPartRuns = true ∧
    liesIn (letterRuns.filter (· ∉ strayLetterRuns)) identifierPartRuns = true ∧
    liesApart strayLetterRuns identifierPartRuns = true ∧
    liesApart blankRuns identifierPartRuns = true ∧
    liesApart blankRuns letterRuns = true ∧
    liesApart blankRuns numeralRuns = true := by
  decide +kernel

variable {c : Char}

/-- In ASCII the characters of identifiers are those of names. -/
theorem isIdentifier_ascii (h : c.toNat < 128) : isNameStart c = isIdentifierStart c ∧
    isIdentifierPart c = (isNamePart c || c.toNat = 0x200C || c.toNat = 0x200D) := by
  have heq := forall_of_lt (p := fun c => isNameStart c == isIdentifierStart c &&
    isIdentifierPart c == (isNamePart c || c.toNat = 0x200C || c.toNat = 0x200D))
    (by decide +kernel) h
  rw [Bool.and_eq_true] at heq
  exact ⟨eq_of_beq heq.1, eq_of_beq heq.2⟩

/-- In ASCII the letters and numerals, with `_` and `$`, are the characters of names, and no name
begins with a digit. -/
theorem isName_ascii (h : c.toNat < 128) :
    (isLetter c || c = '_' || c = '$') = isNameStart c ∧
    (isLetter c || isNumeral c || c = '_' || c = '$') = isNamePart c ∧
    (isAsciiDigit c && isNameStart c) = false := by
  have heq := forall_of_lt (p := fun c => (isLetter c || c = '_' || c = '$') == isNameStart c &&
    (isLetter c || isNumeral c || c = '_' || c = '$') == isNamePart c &&
    !(isAsciiDigit c && isNameStart c)) (by decide +kernel) h
  rw [Bool.and_eq_true, Bool.and_eq_true, Bool.not_eq_true'] at heq
  exact ⟨eq_of_beq heq.1.1, eq_of_beq heq.1.2, heq.2⟩

/-- The joiners and the mark of the byte order are neither letters nor numerals. -/
theorem not_isLetter_mark {n : Nat} (hn : n = 0x200C ∨ n = 0x200D ∨ n = 0xFEFF) :
    isLetter (Char.ofNat n) = false ∧ isNumeral (Char.ofNat n) = false := by
  have hall : [0x200C, 0x200D, 0xFEFF].all (fun n => !isLetter (Char.ofNat n) &&
      !isNumeral (Char.ofNat n)) = true := by decide +kernel
  have hmark := List.all_eq_true.1 hall n (by simpa using hn)
  rwa [Bool.and_eq_true, Bool.not_eq_true', Bool.not_eq_true'] at hmark

/-- No letter of ASCII, and no digit. -/
theorem not_isAsciiLetter (h : 128 ≤ c.toNat) :
    isAsciiLetter c = false ∧ isAsciiDigit c = false := by
  have hle : ∀ d : Char, d.toNat < 128 → decide (c ≤ d) = false := fun d hd => by
    rw [decide_eq_false_iff_not, Char.le_def, UInt32.le_iff_toNat_le]
    exact Nat.not_le.2 (Nat.lt_of_lt_of_le hd h)
  simp only [isAsciiLetter, isAsciiDigit, hle 'z' (by decide), hle 'Z' (by decide),
    hle '9' (by decide), Bool.and_false, Bool.or_false, and_self]

theorem isNameStart_eq (c : Char) : isNameStart c = isIdentifierStart c := by
  by_cases h : c.toNat < 128
  · exact (isIdentifier_ascii h).1
  · have hlarge := Nat.not_lt.1 h
    simp only [isNameStart, isIdentifierStart, (not_isAsciiLetter hlarge).1, hlarge, decide_true,
      Bool.true_and, Bool.false_or]
    rw [Bool.or_assoc, Bool.or_comm]

/-- The two joiners are the only other characters that an identifier can go on with. -/
theorem isIdentifierPart_eq (c : Char) :
    isIdentifierPart c = (isNamePart c || c.toNat = 0x200C || c.toNat = 0x200D) := by
  by_cases h : c.toNat < 128
  · exact (isIdentifier_ascii h).2
  · have hlarge := Nat.not_lt.1 h
    have hline : c ≠ '_' := fun heq => absurd hlarge (by rw [heq]; decide)
    obtain ⟨hletter, hdigit⟩ := not_isAsciiLetter hlarge
    simp only [isNamePart, isIdentifierPart, hletter, hdigit, hline, hlarge, decide_true,
      decide_false, Bool.true_and, Bool.false_or]
    cases inRuns c.toNat identifierPartRuns <;> simp

/-- What an identifier can begin with, it can go on with. -/
theorem isIdentifierPart_of_start (h : isIdentifierStart c = true) : isIdentifierPart c = true := by
  obtain ⟨hincrease, hlies, -⟩ := identifierPartRuns_spec
  simp only [isIdentifierStart, isIdentifierPart, Bool.or_eq_true, Bool.and_eq_true] at h ⊢
  rcases h with ((hletter | hline) | hdollar) | ⟨hlarge, hin⟩
  · simp [hletter]
  · simp [hline]
  · simp [hdollar]
  · simp [hlarge, inRuns_of_liesIn hincrease hlies hin]

/-- No blank character is part of an identifier. -/
theorem not_isIdentifierPart_of_isBlank (h : isBlank c = true) : isIdentifierPart c = false := by
  obtain ⟨-, -, -, -, hapart, -⟩ := identifierPartRuns_spec
  have hother : ∀ n, inRuns n blankRuns = false → c.toNat ≠ n := fun n hn heq =>
    Bool.false_ne_true (hn.symm.trans (heq ▸ h))
  have hdollar : c ≠ '$' := fun heq => hother 36 (by decide) (congrArg Char.toNat heq)
  rw [isIdentifierPart_eq, isNamePart, not_inRuns_of_liesApart hapart h, decide_eq_false hdollar,
    decide_eq_false (hother 0x200C (by decide)), decide_eq_false (hother 0x200D (by decide))]
  rfl

/-- No letter is blank, and no numeral. -/
theorem not_isBlank_of_accepted
    (h : isLetter c = true ∨ isNumeral c = true ∨ c = '_' ∨ c = '$') : isBlank c = false := by
  obtain ⟨-, -, -, -, -, hletters, hnumerals⟩ := identifierPartRuns_spec
  refine Bool.eq_false_iff.2 fun hblank => ?_
  rcases h with h | h | rfl | rfl
  · exact Bool.false_ne_true ((not_inRuns_of_liesApart hletters hblank).symm.trans h)
  · exact Bool.false_ne_true ((not_inRuns_of_liesApart hnumerals hblank).symm.trans h)
  · exact absurd hblank (by decide)
  · exact absurd hblank (by decide)

/-- The joiners and the mark of the byte order are not accepted. -/
theorem not_mark_of_accepted (h : isLetter c = true ∨ isNumeral c = true ∨ c = '_' ∨ c = '$')
    {n : Nat} (hn : n = 0x200C ∨ n = 0x200D ∨ n = 0xFEFF) : c.toNat ≠ n := by
  intro heq
  obtain rfl : c = Char.ofNat n := by rw [← heq, Char.ofNat_toNat]
  obtain ⟨hletter, hnumeral⟩ := not_isLetter_mark hn
  rcases h with h | h | h | h
  · exact Bool.false_ne_true (hletter.symm.trans h)
  · exact Bool.false_ne_true (hnumeral.symm.trans h)
  · rw [← heq, h] at hn
    exact absurd hn (by decide)
  · rw [← heq, h] at hn
    exact absurd hn (by decide)

theorem not_isNamePart_of_stray (h : inRuns c.toNat strayLetterRuns = true) :
    isNamePart c = false := by
  obtain ⟨-, -, -, hapart, -⟩ := identifierPartRuns_spec
  have hdollar : c ≠ '$' := by
    rintro rfl
    exact absurd h (by decide)
  rw [isNamePart, not_inRuns_of_liesApart hapart h, decide_eq_false hdollar]
  rfl

/-- A letter can stand in a name, except for the stray ones. -/
theorem isNamePart_of_isLetter (h : isLetter c = true)
    (hstray : inRuns c.toNat strayLetterRuns = false) : isNamePart c = true := by
  obtain ⟨hincrease, -, hlies, -⟩ := identifierPartRuns_spec
  obtain ⟨r, hr, hfirst, hlast⟩ := exists_of_inRuns h
  have hother : r ∉ strayLetterRuns := fun hmem => by
    have hin := inRuns_of_mem (show increaseFrom 0 strayLetterRuns = true by decide)
      hmem hfirst hlast
    exact Bool.false_ne_true (hstray.symm.trans hin)
  obtain ⟨q, hq, hstart, hstop⟩ :=
    exists_of_liesIn hlies (List.mem_filter.2 ⟨hr, decide_eq_true hother⟩)
  have hpart : inRuns c.toNat identifierPartRuns = true :=
    inRuns_of_mem hincrease hq (by omega) (by omega)
  rw [isNamePart, hpart]
  rfl

/-- Of letters, numerals, `_` and `$` all can stand in a name but the stray ones. -/
theorem isNamePart_eq (h : isLetter c = true ∨ isNumeral c = true ∨ c = '_' ∨ c = '$') :
    isNamePart c = !isStray c := by
  rw [isStray]
  cases hstray : inRuns c.toNat strayLetterRuns with
  | true => rw [not_isNamePart_of_stray hstray, Bool.true_or, Bool.not_true]
  | false =>
    rcases h with hletter | hnumeral | rfl | rfl
    · rw [isNamePart_of_isLetter hletter hstray, Bool.not_true, Bool.and_false]
      rfl
    · rw [hnumeral, Bool.true_and, Bool.false_or, Bool.not_not]
    · decide
    · decide

end RoutePages.Text
