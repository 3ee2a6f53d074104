import RoutePages.Proofs.Text.CharacterRuns
import RoutePages.Script.Scan

/-!
# Words that are spelled out

A plain word begins with a character that an identifier can begin with and goes on with those
that one can go on with. It is read as itself exactly where no further character of a word stands
behind it.
-/
namespace RoutePages.Script

/-- Is the text a word without escapes? -/
def isPlainWord : Text → Bool
  | [] => false
  | c :: s => Text.isIdentifierStart c && s.all Text.isIdentifierPart

/-- Does a word that ends in front of the text go on in it? -/
def runsOn (s : Text) : Bool := s.head?.any fun c => Text.isIdentifierPart c || c = '\\'

variable {c d : Char} {w s : Text} {pos : Nat} {first : Bool}

theorem ne_of_isIdentifierPart (hc : Text.isIdentifierPart c = true)
    (hd : Text.isIdentifierPart d = false) : c ≠ d := by
  rintro rfl
  exact Bool.false_ne_true (hd.symm.trans hc)

/-- A gap ends before a character that is not blank and opens no comment. -/
theorem gapFrom_of_not_isBlank (hblank : Text.isBlank c = false) (hmark : c.toNat ≠ 0xFEFF)
    (hopen : c ≠ '/' ∧ c ≠ '<' ∧ c ≠ '-') (broken : Bool) (flaw : Option Nat) :
    gapFrom .blank pos broken flaw (c :: s) = ⟨⟨pos, c :: s⟩, broken, flaw, none⟩ := by
  have hbreak : isLineEnd c = false := by
    refine Bool.eq_false_iff.2 fun h => Bool.eq_false_iff.1 hblank ?_
    simp only [isLineEnd, Bool.or_eq_true, decide_eq_true_eq] at h
    rcases h with ((rfl | rfl) | h) | h
    · decide
    · decide
    · rw [Text.isBlank, h]
      decide
    · rw [Text.isBlank, h]
      decide
  obtain ⟨hslash, hangle, hhyphen⟩ := hopen
  rw [gapFrom] <;> simp_all

/-- A gap ends before a word. -/
theorem gapFrom_of_isIdentifierPart (hc : Text.isIdentifierPart c = true) (broken : Bool)
    (flaw : Option Nat) :
    gapFrom .blank pos broken flaw (c :: s) = ⟨⟨pos, c :: s⟩, broken, flaw, none⟩ := by
  have hblank : Text.isBlank c = false := Bool.eq_false_iff.2 fun h =>
    Bool.false_ne_true ((Text.not_isIdentifierPart_of_isBlank h).symm.trans hc)
  have hmark : c.toNat ≠ 0xFEFF := fun h => ne_of_isIdentifierPart hc (d := Char.ofNat 0xFEFF)
    (by decide +kernel) (by rw [← h, Char.ofNat_toNat])
  exact gapFrom_of_not_isBlank hblank hmark ⟨ne_of_isIdentifierPart hc (by decide),
    ne_of_isIdentifierPart hc (by decide), ne_of_isIdentifierPart hc (by decide)⟩ broken flaw

theorem wordFrom_part (hc : Text.isIdentifierPart c = true)
    (hfirst : first = true → Text.isIdentifierStart c = true) :
    wordFrom first 0 pos (c :: s) =
      { wordFrom false 0 (pos + c.utf8Size) s with
        name := c :: (wordFrom false 0 (pos + c.utf8Size) s).name } := by
  have hescape : c ≠ '\\' := ne_of_isIdentifierPart hc (by decide)
  have hfits : (if first = true then Text.isIdentifierStart else Text.isIdentifierPart) c =
      true := by
    split
    · exact hfirst ‹_›
    · exact hc
  conv => lhs; rw [wordFrom.eq_def]
  simp only [if_neg hescape, hfits, if_true]

theorem wordFrom_parts (hw : w.all Text.isIdentifierPart = true) :
    wordFrom false 0 pos (w ++ s) =
      { wordFrom false 0 (pos + Text.size w) s with
        name := w ++ (wordFrom false 0 (pos + Text.size w) s).name } := by
  induction w generalizing pos with
  | nil => rfl
  | cons c w ih =>
    rw [List.all_cons, Bool.and_eq_true] at hw
    rw [List.cons_append, wordFrom_part hw.1 fun h => absurd h Bool.false_ne_true, ih hw.2,
      Text.size, Nat.add_assoc]
    rfl

/-- What is read of a plain word and of what goes on behind it. -/
theorem wordFrom_plainWord (hw : isPlainWord w = true) :
    wordFrom true 0 pos (w ++ s) =
      { wordFrom false 0 (pos + Text.size w) s with
        name := w ++ (wordFrom false 0 (pos + Text.size w) s).name } := by
  cases w with
  | nil => cases hw
  | cons c w =>
    rw [isPlainWord, Bool.and_eq_true] at hw
    rw [List.cons_append, wordFrom_part (Text.isIdentifierPart_of_start hw.1) fun _ => hw.1,
      wordFrom_parts hw.2, Text.size, Nat.add_assoc]
    rfl

theorem wordFrom_of_not_runsOn (h : runsOn s = false) :
    wordFrom first 0 pos s = ⟨[], ⟨pos, s⟩, false, none, none⟩ := by
  cases s with
  | nil => rfl
  | cons c s =>
    simp only [runsOn, List.head?_cons, Option.any_some, Bool.or_eq_false_iff,
      decide_eq_false_iff_not] at h
    have hfits : (if first = true then Text.isIdentifierStart else Text.isIdentifierPart) c =
        false := by
      split
      · exact Bool.eq_false_iff.2 fun hstart => Bool.false_ne_true
          (h.1.symm.trans (Text.isIdentifierPart_of_start hstart))
      · exact h.1
    rw [wordFrom.eq_def]
    simp only [if_neg h.2, hfits, Bool.false_eq_true, if_false]

theorem codePoint_ne_nil {n : Nat} {source value : Text} (hsource : source ≠ [])
    (h : codePoint n source = some value) : value ≠ [] := by
  unfold codePoint at h
  split at h
  · cases h
    exact hsource
  · split at h
    · cases h
      exact List.cons_ne_nil _ _
    · cases h

theorem unicodeEscape_ne_nil {value : Text} {length : Nat}
    (h : unicodeEscape s = .stands value length) : value ≠ [] := by
  unfold unicodeEscape at h
  grind [codePoint_ne_nil]

/-- Where a word does not run on, nothing is read, and nothing else is wrong there. -/
theorem not_runsOn_of_wordFrom (hname : (wordFrom false 0 pos s).name = [])
    (hmalformed : (wordFrom false 0 pos s).malformed = none) : runsOn s = false := by
  cases s with
  | nil => rfl
  | cons c s =>
    generalize hread : wordFrom false 0 pos (c :: s) = read at hname hmalformed
    rw [wordFrom.eq_def] at hread
    simp only [Bool.false_eq_true, if_false] at hread
    simp only [runsOn, List.head?_cons, Option.any_some, Bool.or_eq_false_iff,
      decide_eq_false_iff_not]
    split at hread
    · exfalso
      split at hread
      · split at hread
        · rename_i hstands
          subst hread
          exact unicodeEscape_ne_nil hstands (List.append_eq_nil_iff.1 hname).1
        · subst hread
          cases hmalformed
      · subst hread
        cases hmalformed
    · rename_i hescape
      split at hread
      · subst hread
        cases hname
      · rename_i hpart
        exact ⟨Bool.eq_false_iff.2 hpart, hescape⟩

/-- A plain word is read as itself where it does not go on. -/
theorem word_plainWord (hw : isPlainWord w = true) (hs : runsOn s = false) :
    word ⟨pos, w ++ s⟩ = ⟨.word w, ⟨pos + Text.size w, s⟩, none⟩ := by
  unfold word
  rw [wordFrom_plainWord hw, wordFrom_of_not_runsOn hs, List.append_nil]
  rfl

theorem word_eq_iff (hw : isPlainWord w = true) :
    (word ⟨pos, w ++ s⟩).lexeme = .word w ↔ runsOn s = false := by
  refine ⟨fun h => ?_, fun h => by rw [word_plainWord hw h]⟩
  unfold word at h
  rw [wordFrom_plainWord hw] at h
  dsimp only at h
  split at h
  · cases h
  · rename_i hmalformed
    split at h
    · cases h
    · exact not_runsOn_of_wordFrom (List.append_right_eq_self.1 (Lexeme.word.inj h)) hmalformed

theorem lexemeAt_plainWord (hw : isPlainWord w = true) (s : Text) :
    lexemeAt ⟨pos, w ++ s⟩ = word ⟨pos, w ++ s⟩ := by
  cases w with
  | nil => cases hw
  | cons c w =>
    rw [isPlainWord, Bool.and_eq_true] at hw
    rw [List.cons_append, lexemeAt]
    simp only [hw.1, Bool.true_or, if_true]

/-- No gap comes before a word. -/
theorem gapFrom_plainWord (hw : isPlainWord w = true) (s : Text) (broken : Bool)
    (flaw : Option Nat) :
    gapFrom .blank pos broken flaw (w ++ s) = ⟨⟨pos, w ++ s⟩, broken, flaw, none⟩ := by
  cases w with
  | nil => cases hw
  | cons c w =>
    rw [isPlainWord, Bool.and_eq_true] at hw
    exact gapFrom_of_isIdentifierPart (Text.isIdentifierPart_of_start hw.1) broken flaw

theorem gap_plainWord (hw : isPlainWord w = true) (s : Text) :
    gap ⟨pos, w ++ s⟩ = ⟨⟨pos, w ++ s⟩, false, none, none⟩ := gapFrom_plainWord hw s false none

theorem isPlainWord_parts (hw : isPlainWord w = true) : w.all Text.isIdentifierPart = true := by
  cases w with
  | nil => rfl
  | cons c w =>
    rw [isPlainWord, Bool.and_eq_true] at hw
    rw [List.all_cons, Bool.and_eq_true]
    exact ⟨Text.isIdentifierPart_of_start hw.1, hw.2⟩

/-- The token at a plain word is that word, where it does not go on. -/
theorem next_plainWord (hw : isPlainWord w = true) (hs : runsOn s = false) :
    Token.next ⟨pos, w ++ s⟩ =
      ⟨.word w, ⟨pos, w ++ s⟩, ⟨pos + Text.size w, s⟩, false, none⟩ := by
  rw [Token.next, gap_plainWord hw]
  simp only [Gap.token, lexemeAt_plainWord hw, word_plainWord hw hs, Read.token, Option.or_none]

/-- What is read as itself, without escapes, is made of parts of words. -/
theorem parts_of_wordFrom (hescape : '\\' ∉ w) (h : (wordFrom first 0 pos w).name = w) :
    w.all Text.isIdentifierPart = true := by
  induction w generalizing first pos with
  | nil => rfl
  | cons c w ih =>
    obtain ⟨hc, hw⟩ := not_or.1 (mt List.mem_cons.2 hescape)
    rw [wordFrom.eq_def] at h
    simp only [if_neg (Ne.symm hc)] at h
    have hfits : (if first = true then Text.isIdentifierStart else Text.isIdentifierPart) c =
        true := by
      refine Classical.byContradiction fun hnot => ?_
      rw [if_neg hnot] at h
      cases h
    rw [if_pos hfits] at h
    rw [List.all_cons, ih hw (List.cons.inj h).2, Bool.and_true]
    split at hfits
    · exact Text.isIdentifierPart_of_start hfits
    · exact hfits

/-- A text that is no word of the language is not read as one that is spelled like it. -/
theorem isPlainWord_of_lexemeAt {c : Char} (hescape : '\\' ∉ c :: w) (hpoint : c ≠ '.')
    (hdigit : isDigit 10 c = false) (h : (lexemeAt ⟨pos, c :: w⟩).lexeme = .word (c :: w)) :
    isPlainWord (c :: w) = true := by
  have hc : c ≠ '\\' := fun hc => hescape (hc ▸ List.mem_cons_self)
  -- only a word is read as a word: numerals, strings and signs have lexemes of their own
  rw [lexemeAt] at h
  dsimp only at h
  split at h
  · rename_i hstart
    have hstart : Text.isIdentifierStart c = true := by simpa [hc] using hstart
    unfold word at h
    dsimp only at h
    split at h
    · cases h
    · split at h
      · cases h
      · have hparts := parts_of_wordFrom hescape (Lexeme.word.inj h)
        rw [List.all_cons, Bool.and_eq_true] at hparts
        rw [isPlainWord, hstart, hparts.2]
        rfl
  · rw [hdigit, decide_eq_false hpoint] at h
    simp only [Bool.false_and, Bool.or_false, Bool.false_eq_true, if_false] at h
    split at h
    · unfold string at h
      dsimp only at h
      split at h <;> cases h
    · split at h <;> cases h

/-- A space is passed over. -/
theorem next_space (pos : Nat) (s : Text) : Token.next ⟨pos, ' ' :: s⟩ = Token.next ⟨pos + 1, s⟩ :=
  rfl

theorem next_colon (pos : Nat) (s : Text) : Token.next ⟨pos, ':' :: s⟩ =
    ⟨.sign ":", ⟨pos, ':' :: s⟩, ⟨pos + 1, s⟩, false, none⟩ := rfl

theorem next_semicolon (pos : Nat) (s : Text) : Token.next ⟨pos, ';' :: s⟩ =
    ⟨.sign ";", ⟨pos, ';' :: s⟩, ⟨pos + 1, s⟩, false, none⟩ := rfl

theorem next_equals (pos : Nat) (s : Text) : Token.next ⟨pos, '=' :: ' ' :: s⟩ =
    ⟨.sign "=", ⟨pos, '=' :: ' ' :: s⟩, ⟨pos + 1, ' ' :: s⟩, false, none⟩ := rfl

theorem next_star (pos : Nat) (s : Text) : Token.next ⟨pos, '*' :: ' ' :: s⟩ =
    ⟨.sign "*", ⟨pos, '*' :: ' ' :: s⟩, ⟨pos + 1, ' ' :: s⟩, false, none⟩ := rfl

end RoutePages.Script
