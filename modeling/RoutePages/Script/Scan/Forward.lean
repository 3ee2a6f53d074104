import RoutePages.Script.Scan

/-!
# Reading moves forward

Whatever is read, its end lies no earlier than its start. So a token starts behind
the place from which it was looked for, and stops behind its own start.
-/
namespace RoutePages.Script

theorem gapFrom_le (state : GapState) (pos : Nat) (broken : Bool) (flaw : Option Nat) (s : Text) :
    pos ≤ (gapFrom state pos broken flaw s).stop.pos := by
  fun_induction gapFrom state pos broken flaw s <;> grind

theorem gap_le (p : Place) : p.pos ≤ (gap p).stop.pos := gapFrom_le _ _ _ _ _

theorem digitsFrom_le (radix : Nat) (before : Option Char) (pos : Nat) (s : Text) :
    pos ≤ (digitsFrom radix before pos s).stop.pos := by
  fun_induction digitsFrom radix before pos s <;> grind

theorem digits_le (radix : Nat) (p : Place) : p.pos ≤ (digits radix p).stop.pos :=
  digitsFrom_le _ _ _ _

theorem ended_stop (lexeme : Lexeme) (stop : Place) (flaw : Option Nat) :
    (ended lexeme stop flaw).stop = stop := by
  unfold ended
  split <;> rfl

theorem radixNumeral_le (radix : Nat) (p : Place) : p.pos ≤ (radixNumeral radix p).stop.pos := by
  have hdigits := digits_le radix p
  have hnext := (digits radix p).stop.pos_le_next
  unfold radixNumeral
  dsimp only
  split
  · exact hdigits
  · split
    · exact Nat.le_trans hdigits hnext
    · rw [ended_stop]
      exact hdigits

theorem exponent_le {p start : Place} {n : Int} {d : Digits} (h : exponent p = some (n, start, d)) :
    p.pos ≤ d.stop.pos := by
  unfold exponent at h
  split at h
  · split at h
    · cases h
      refine Nat.le_trans ?_ (digits_le 10 _)
      split
      · exact p.pos_le_skip 2
      · exact p.pos_le_skip 2
      · exact p.pos_le_next
    · cases h
  · cases h

theorem decimalRest_le (whole : Text) (p : Place) (flaw : Option Nat) :
    p.pos ≤ (decimalRest whole p flaw).stop.pos := by
  have hdigits := Nat.le_trans p.pos_le_next (digits_le 10 p.next)
  unfold decimalRest
  split
  rename_i fraction q flaw' heq
  have hq : p.pos ≤ q.pos := by
    split at heq
    · cases heq
      exact hdigits
    · cases heq
      exact Nat.le_refl _
  dsimp only
  split
  · rw [ended_stop]
    exact hq
  · rename_i e start d hexp
    have hd := Nat.le_trans hq (exponent_le hexp)
    split
    · exact hd
    · rw [ended_stop]
      exact hd

theorem decimalNumeral_le (p : Place) : p.pos ≤ (decimalNumeral p).stop.pos := by
  have hdigits := digits_le 10 p
  have hrest := fun flaw => Nat.le_trans hdigits (decimalRest_le (digits 10 p).digits (digits 10 p).stop flaw)
  unfold decimalNumeral
  dsimp only
  split
  · exact Nat.le_trans hdigits (digits 10 p).stop.pos_le_next
  · split
    · split
      · exact hrest _
      · rw [ended_stop]
        exact hdigits
    · exact hrest _

theorem numeral_le (p : Place) : p.pos ≤ (numeral p).stop.pos := by
  have hradix := fun radix => Nat.le_trans (p.pos_le_skip 2) (radixNumeral_le radix (p.skip 2))
  unfold numeral
  split
  · split
    · exact hradix 16
    · split
      · exact hradix 8
      · split
        · exact hradix 2
        · exact decimalNumeral_le p
  · exact decimalRest_le _ _ _
  · exact decimalNumeral_le p

theorem wordFrom_le (first : Bool) (skip pos : Nat) (s : Text) :
    pos ≤ (wordFrom first skip pos s).stop.pos := by
  fun_induction wordFrom first skip pos s <;> grind

theorem word_le (p : Place) : p.pos ≤ (word p).stop.pos := by
  have h := wordFrom_le true 0 p.pos p.rest
  unfold word
  dsimp only
  split
  · exact h
  · split <;> exact h

theorem tagWord_le (p : Place) : p.pos ≤ (tagWord p).stop.pos := p.pos_le_skip _

theorem stringFrom_le (quote : Char) (skip pos : Nat) (s : Text) :
    pos ≤ (stringFrom quote skip pos s).stop.pos := by
  fun_induction stringFrom quote skip pos s <;> grind

theorem string_le (quote : Char) (p : Place) : p.pos ≤ (string quote p).stop.pos := by
  have h := Nat.le_trans p.pos_le_next (stringFrom_le quote 0 p.next.pos p.next.rest)
  unfold string
  dsimp only
  split <;> exact h

theorem templateFrom_le (skip pos : Nat) (s : Text) :
    pos ≤ (templateFrom skip pos s).stop.pos := by
  fun_induction templateFrom skip pos s <;> grind

theorem templatePiece_le (p : Place) : p.pos ≤ (templatePiece p).stop.pos :=
  templateFrom_le _ _ _

theorem regexBodyFrom_le {inSet escaped : Bool} {pos : Nat} {s : Text} {stop : Place}
    (h : regexBodyFrom inSet escaped pos s = some stop) : pos ≤ stop.pos := by
  induction s generalizing inSet escaped pos with
  | nil => cases h
  | cons c s ih =>
    unfold regexBodyFrom at h
    split at h
    · cases h
    · split at h
      · have := ih h
        omega
      · split at h
        · cases h
          exact Nat.le_succ _
        · have := ih h
          omega

theorem regex_le (p : Place) : p.pos ≤ (regex p).stop.pos := by
  have hnext := p.pos_le_next
  unfold regex
  split
  · exact hnext
  · rename_i stop hbody
    have hstop := Nat.le_trans hnext (regexBodyFrom_le hbody)
    split
    · exact Nat.le_trans hstop (stop.pos_le_skip _)
    · exact hstop

theorem tagString_le (quote : Char) (p : Place) : p.pos ≤ (tagString quote p).stop.pos := by
  have hskip := fun n => Nat.le_trans p.pos_le_next (p.next.pos_le_skip n)
  unfold tagString
  dsimp only
  split
  · exact hskip _
  · exact Nat.le_trans (hskip _) (Place.pos_le_next _)

theorem markupFrom_le (pos : Nat) (flaw : Option Nat) (s : Text) :
    pos ≤ (markupFrom pos flaw s).1.pos := by
  fun_induction markupFrom pos flaw s <;> grind

theorem lexemeAt_le (p : Place) : p.pos ≤ (lexemeAt p).stop.pos := by
  unfold lexemeAt
  split
  · exact Nat.le_refl _
  · split
    · exact word_le p
    · split
      · exact numeral_le p
      · split
        · exact string_le _ p
        · split
          · exact p.pos_le_skip _
          · exact p.pos_le_next

/-- The token starts behind the place, and stops behind its own start. -/
def Token.Behind (t : Token) (p : Place) : Prop :=
  p.pos ≤ t.start.pos ∧ t.start.pos ≤ t.stop.pos

theorem Gap.token_behind {read : Place → Read} (hread : ∀ p, p.pos ≤ (read p).stop.pos)
    (p : Place) : ((gap p).token read).Behind p := by
  have h := gap_le p
  unfold Gap.token
  split
  · exact ⟨h, Nat.le_refl _⟩
  · exact ⟨h, hread _⟩

theorem Token.next_behind (p : Place) : (Token.next p).Behind p := Gap.token_behind lexemeAt_le p

theorem Token.attributeValue_behind (p : Place) : (Token.attributeValue p).Behind p := by
  refine Gap.token_behind (fun p => ?_) p
  split
  · exact tagString_le _ p
  · exact tagString_le _ p
  · exact lexemeAt_le p

theorem Token.pieceEnd_behind (sign : Text) (p : Place) : (Token.pieceEnd sign p).Behind p :=
  ⟨templatePiece_le p, Place.pos_le_skip _ _⟩

theorem Token.markup_behind (p : Place) : (Token.markup p).Behind p := by
  have hstop := markupFrom_le p.pos none p.rest
  unfold Token.markup
  split
  · exact ⟨Nat.le_refl _, Nat.le_refl _⟩
  · split
    · exact ⟨Nat.le_refl _, p.pos_le_next⟩
    · dsimp only
      split
      · exact ⟨Nat.le_refl _, hstop⟩
      · exact ⟨Nat.le_refl _, hstop⟩

end RoutePages.Script
