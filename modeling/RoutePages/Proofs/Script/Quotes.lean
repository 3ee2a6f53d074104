import RoutePages.Proofs.Script.Words
import RoutePages.Proofs.Text.Split

/-!
# Text between quotes

What stands between two quotes is the body of one literal exactly if no character of it closes
the literal or breaks it off, each escape in it being taken as a whole.
-/
namespace RoutePages.Script

/-- The characters that texts are quoted with. -/
def isQuote (c : Char) : Bool := c = '\'' || c = '"' || c = '\x60'

/-- Does a character end what the quote began? A string ends with its line, and a template at its
first substitution. -/
def endsBody (quote c : Char) (s : Text) : Bool :=
  c = quote ||
    if quote = '\x60' then c = '$' && s.head? = some '\x7b' else c = '\n' || c = '\r'

/-- What can stand between two quotes that belong together. -/
inductive IsBody (quote : Char) : Text → Prop
  | nil : IsBody quote []
  | char {c : Char} {s : Text} (hescape : c ≠ '\\') (hends : endsBody quote c s = false)
      (hs : IsBody quote s) : IsBody quote (c :: s)
  /-- a backslash with all that the escape takes, which is not the closing quote -/
  | escape {taken s value : Text}
      (h : escape (taken ++ (s ++ [quote])) = .stands value (taken.length + 1))
      (hs : IsBody quote s) : IsBody quote ('\\' :: (taken ++ s))

/-- The text is one string, or one template without substitutions, and nothing else. -/
inductive IsOneLiteral : Text → Prop
  | string {quote : Char} {s value : Text} (hquote : quote = '\'' ∨ quote = '"')
      (hlexeme : (lexemeAt ⟨0, quote :: s⟩).lexeme = .string value)
      (hstop : (lexemeAt ⟨0, quote :: s⟩).stop.rest = [])
      (hflaw : (lexemeAt ⟨0, quote :: s⟩).flaw = none) : IsOneLiteral (quote :: s)
  | template {s : Text} (hstop : (templatePiece ⟨1, s⟩).stop.rest = ['\x60'])
      (hescapes : (templatePiece ⟨1, s⟩).malformed = none) : IsOneLiteral ('\x60' :: s)

variable {quote c : Char} {s value : Text} {pos skip length : Nat}

theorem unicodeEscape_length (h : unicodeEscape s = .stands value length) : 0 < length := by
  unfold unicodeEscape at h
  grind

theorem escape_length (h : escape s = .stands value length) : 0 < length := by
  unfold escape at h
  split at h <;> first | exact unicodeEscape_length h | grind

theorem stringFrom_skip (quote : Char) (skip pos : Nat) (s : Text) :
    stringFrom quote skip pos s =
      stringFrom quote 0 (pos + Text.size (s.take skip)) (s.drop skip) := by
  induction skip generalizing pos s with
  | zero => rfl
  | succ skip ih =>
    cases s with
    | nil => rfl
    | cons c s =>
      rw [stringFrom, ih, List.take_succ_cons, List.drop_succ_cons, Text.size, Nat.add_assoc]

theorem templateFrom_skip (skip pos : Nat) (s : Text) :
    templateFrom skip pos s =
      templateFrom 0 (pos + Text.size (s.take skip)) (s.drop skip) := by
  induction skip generalizing pos s with
  | zero => rfl
  | succ skip ih =>
    cases s with
    | nil => rfl
    | cons c s =>
      rw [templateFrom, ih, List.take_succ_cons, List.drop_succ_cons, Text.size, Nat.add_assoc]

/-- An escape and the body that is left behind it make up a body. -/
theorem exists_body_of_escape {body : Text} (hstands : escape s = .stands value length)
    (hrest : s.drop (length - 1) = body ++ [quote]) (hbody : IsBody quote body) :
    ∃ whole, '\\' :: s = whole ++ [quote] ∧ IsBody quote whole := by
  have hsplit : s.take (length - 1) ++ (body ++ [quote]) = s := by
    rw [← hrest, List.take_append_drop]
  have hlength : length = (s.take (length - 1)).length + 1 := by
    have hpos := escape_length hstands
    have hlt : length - 1 < s.length := by
      rw [← Nat.not_le, ← List.drop_eq_nil_iff, hrest]
      exact List.append_ne_nil_of_right_ne_nil _ (List.cons_ne_nil _ _)
    rw [List.length_take]
    omega
  have htaken : escape (s.take (length - 1) ++ (body ++ [quote])) =
      .stands value ((s.take (length - 1)).length + 1) := by
    rw [hsplit, ← hlength]
    exact hstands
  refine ⟨'\\' :: (s.take (length - 1) ++ body), ?_, .escape htaken hbody⟩
  rw [List.cons_append, List.append_assoc, hsplit]

/-- The rest of a string is closed by the last character, and nothing is wrong in it. -/
structure QuotedRead.IsWhole (q : QuotedRead) : Prop where
  closed : q.closed = true
  stop : q.stop.rest = []
  wellformed : q.malformed = none
  decimal : q.octal = none

section String

variable (hquote : quote = '\'' ∨ quote = '"')
include hquote

theorem endsBody_string : endsBody quote c s = false ↔ c ≠ quote ∧ ¬ (c = '\n' ∨ c = '\r') := by
  have hne : quote ≠ '\x60' := by
    rcases hquote with rfl | rfl <;> decide
  simp [endsBody, hne]

theorem quote_ne_backslash : '\\' ≠ quote := by
  rcases hquote with rfl | rfl <;> decide

theorem IsBody.string_isWhole (h : IsBody quote s) (pos : Nat) :
    (stringFrom quote 0 pos (s ++ [quote])).IsWhole := by
  induction h generalizing pos with
  | nil =>
    rw [List.nil_append, stringFrom, if_pos rfl]
    exact ⟨rfl, rfl, rfl, rfl⟩
  | @char c s hescape hends hs ih =>
    obtain ⟨hend, hbreak⟩ := (endsBody_string hquote).1 hends
    rw [List.cons_append, stringFrom, if_neg hend, if_neg hbreak, if_neg hescape]
    obtain ⟨hclosed, hstop, hwellformed, hdecimal⟩ := ih (pos + c.utf8Size)
    exact ⟨hclosed, hstop, hwellformed, hdecimal⟩
  | @escape taken s value h hs ih =>
    rw [List.cons_append, List.append_assoc, stringFrom, if_neg (quote_ne_backslash hquote),
      if_neg (by decide), if_pos rfl, h]
    dsimp only
    rw [Nat.add_sub_cancel, stringFrom_skip, List.drop_left]
    obtain ⟨hclosed, hstop, hwellformed, hdecimal⟩ :=
      ih (pos + 1 + Text.size ((taken ++ (s ++ [quote])).take taken.length))
    exact ⟨hclosed, hstop, hwellformed, hdecimal⟩

/-- The rest of a string is whole exactly if a body and the quote are left. -/
theorem stringFrom_isWhole_iff :
    (stringFrom quote 0 pos s).IsWhole ↔ ∃ body, s = body ++ [quote] ∧ IsBody quote body := by
  refine ⟨fun h => ?_, ?_⟩
  -- on the length, since an escape takes more than one character
  · induction hlen : s.length using Nat.strongRecOn generalizing s pos with
    | ind n ih =>
      subst hlen
      cases s with
      | nil => exact absurd h.closed Bool.false_ne_true
      | cons c s =>
        rw [stringFrom] at h
        split at h
        · rename_i hend
          rw [hend, show s = [] from h.stop]
          exact ⟨[], rfl, .nil⟩
        · rename_i hend
          split at h
          · exact absurd h.closed Bool.false_ne_true
          · rename_i hbreak
            split at h
            · rename_i hescape
              subst hescape
              split at h
              · rename_i value length hstands
                obtain ⟨hclosed, hstop, hwellformed, hdecimal⟩ := h
                dsimp only at hclosed hstop hwellformed hdecimal
                rw [stringFrom_skip] at hclosed hstop hwellformed hdecimal
                obtain ⟨body, hrest, hbody⟩ := ih (s.drop (length - 1)).length
                  (by rw [List.length_drop, List.length_cons]; omega)
                  ⟨hclosed, hstop, hwellformed, hdecimal⟩ rfl
                exact exists_body_of_escape hstands hrest hbody
              · cases h.decimal
              · cases h.wellformed
            · rename_i hescape
              obtain ⟨body, rfl, hbody⟩ := ih s.length (Nat.lt_succ_self _)
                ⟨h.closed, h.stop, h.wellformed, h.decimal⟩ rfl
              exact ⟨c :: body, rfl,
                .char hescape ((endsBody_string hquote).2 ⟨hend, hbreak⟩) hbody⟩
  · rintro ⟨body, rfl, hbody⟩
    exact hbody.string_isWhole hquote pos

end String

/-- The rest of a template is one piece without malformed escapes, closed by the last
character. -/
structure QuotedRead.IsWholePiece (q : QuotedRead) : Prop where
  stop : q.stop.rest = ['\x60']
  wellformed : q.malformed = none

theorem endsBody_template (s : Text) : endsBody '\x60' c s =
    (decide (c = '\x60') || (decide (c = '$') && (s ++ ['\x60']).head? = some '\x7b')) := by
  rw [endsBody, if_pos rfl]
  cases s <;> simp

/-- A character that ends nothing is passed over. A line feed behind a carriage return is, too,
whether or not it is read with it. -/
theorem templateFrom_char (hescape : c ≠ '\\') (hquote : c ≠ '\x60')
    (hhole : ¬ (c = '$' ∧ s.head? = some '\x7b')) :
    (templateFrom 0 pos (c :: s)).IsWholePiece ↔
      (templateFrom 0 (pos + c.utf8Size) s).IsWholePiece := by
  have hends : ¬ (decide (c = '\x60') || (decide (c = '$') && s.head? = some '\x7b')) = true := by
    simpa [hquote] using hhole
  rw [templateFrom, if_neg hends, if_neg hescape]
  split
  · rename_i hreturn
    subst hreturn
    cases s with
    | nil => exact ⟨fun h => ⟨h.stop, h.wellformed⟩, fun h => ⟨h.stop, h.wellformed⟩⟩
    | cons d s =>
      by_cases hfeed : d = '\n'
      · subst hfeed
        exact ⟨fun h => ⟨h.stop, h.wellformed⟩, fun h => ⟨h.stop, h.wellformed⟩⟩
      · rw [if_neg (by simpa using hfeed)]
        exact ⟨fun h => ⟨h.stop, h.wellformed⟩, fun h => ⟨h.stop, h.wellformed⟩⟩
  · exact ⟨fun h => ⟨h.stop, h.wellformed⟩, fun h => ⟨h.stop, h.wellformed⟩⟩

theorem IsBody.template_isWholePiece (h : IsBody '\x60' s) (pos : Nat) :
    (templateFrom 0 pos (s ++ ['\x60'])).IsWholePiece := by
  generalize hquote : '\x60' = quote at h
  induction h generalizing pos with
  | nil =>
    subst hquote
    exact ⟨rfl, rfl⟩
  | @char c s hescape hends hs ih =>
    subst hquote
    rw [endsBody_template] at hends
    simp only [Bool.or_eq_false_iff, decide_eq_false_iff_not, Bool.and_eq_false_iff] at hends
    have hhole : ¬ (c = '$' ∧ (s ++ ['\x60']).head? = some '\x7b') := fun h =>
      hends.2.elim (fun hc => hc h.1) fun hs => hs h.2
    exact (templateFrom_char hescape hends.1 hhole).2 (ih _)
  | @escape taken s value h hs ih =>
    subst hquote
    rw [List.cons_append, List.append_assoc, templateFrom, if_neg (by simp), if_pos rfl, h]
    dsimp only
    rw [Nat.add_sub_cancel, templateFrom_skip, List.drop_left]
    obtain ⟨hstop, hwellformed⟩ :=
      ih (pos + 1 + Text.size ((taken ++ (s ++ ['\x60'])).take taken.length))
    exact ⟨hstop, hwellformed⟩

/-- The rest of a template is one piece exactly if a body and the backtick are left. -/
theorem templateFrom_isWholePiece_iff :
    (templateFrom 0 pos s).IsWholePiece ↔ ∃ body, s = body ++ ['\x60'] ∧ IsBody '\x60' body := by
  refine ⟨fun h => ?_, ?_⟩
  · induction hlen : s.length using Nat.strongRecOn generalizing s pos with
    | ind n ih =>
      subst hlen
      cases s with
      | nil => cases h.stop
      | cons c s =>
        by_cases hescape : c = '\\'
        · subst hescape
          rw [templateFrom, if_neg (by simp), if_pos rfl] at h
          split at h
          · rename_i value length hstands
            obtain ⟨hstop, hwellformed⟩ := h
            dsimp only at hstop hwellformed
            rw [templateFrom_skip] at hstop hwellformed
            obtain ⟨body, hrest, hbody⟩ := ih (s.drop (length - 1)).length
              (by rw [List.length_drop, List.length_cons]; omega) ⟨hstop, hwellformed⟩ rfl
            exact exists_body_of_escape hstands hrest hbody
          · have hnone := h.wellformed
            rw [Option.or_eq_none_iff] at hnone
            cases hnone.2
        by_cases hend : c = '\x60' ∨ c = '$' ∧ s.head? = some '\x7b'
        · rw [templateFrom, if_pos (by simpa using hend)] at h
          cases h.stop
          exact ⟨[], rfl, .nil⟩
        · obtain ⟨hquote, hhole⟩ := not_or.1 hend
          obtain ⟨body, rfl, hbody⟩ := ih s.length (Nat.lt_succ_self _)
            ((templateFrom_char hescape hquote hhole).1 h) rfl
          refine ⟨c :: body, rfl, .char hescape ?_ hbody⟩
          rw [endsBody_template]
          simpa [hquote] using hhole
  · rintro ⟨body, rfl, hbody⟩
    exact hbody.template_isWholePiece pos

/-- A quote at a place begins a string. -/
theorem lexemeAt_quote (hquote : quote = '\'' ∨ quote = '"') (pos : Nat) (s : Text) :
    lexemeAt ⟨pos, quote :: s⟩ = string quote ⟨pos, quote :: s⟩ := by
  rcases hquote with rfl | rfl
  · rfl
  · rfl

theorem string_isWhole (h : (stringFrom quote 0 (pos + quote.utf8Size) s).IsWhole) :
    string quote ⟨pos, quote :: s⟩ =
      ⟨.string (stringFrom quote 0 (pos + quote.utf8Size) s).value,
        (stringFrom quote 0 (pos + quote.utf8Size) s).stop, none⟩ := by
  unfold string
  simp only [Place.next, h.wellformed, h.decimal, h.closed]
  rfl

theorem isWhole_of_string (hlexeme : (string quote ⟨pos, quote :: s⟩).lexeme = .string value)
    (hstop : (string quote ⟨pos, quote :: s⟩).stop.rest = [])
    (hflaw : (string quote ⟨pos, quote :: s⟩).flaw = none) :
    (stringFrom quote 0 (pos + quote.utf8Size) s).IsWhole := by
  unfold string at hlexeme hstop hflaw
  simp only [Place.next] at hlexeme hstop hflaw
  generalize stringFrom quote 0 (pos + quote.utf8Size) s = q at hlexeme hstop hflaw ⊢
  cases hmalformed : q.malformed with
  | some offset =>
    rw [hmalformed] at hlexeme
    cases hlexeme
  | none =>
    rw [hmalformed] at hstop hflaw
    obtain ⟨hdecimal, hclosed⟩ := Option.or_eq_none_iff.1 hflaw
    refine ⟨?_, hstop, hmalformed, hdecimal⟩
    cases hq : q.closed with
    | true => rfl
    | false =>
      rw [hq] at hclosed
      cases hclosed

/-- A text is one literal exactly if it is a body between two quotes. -/
theorem isOneLiteral_iff {found : Text} : IsOneLiteral found ↔
    ∃ quote body, isQuote quote = true ∧ found = quote :: (body ++ [quote]) ∧
      IsBody quote body := by
  constructor
  · intro h
    cases h with
    | @string quote s value hquote hlexeme hstop hflaw =>
      rw [lexemeAt_quote hquote] at hlexeme hstop hflaw
      obtain ⟨body, rfl, hbody⟩ :=
        (stringFrom_isWhole_iff hquote).1 (isWhole_of_string hlexeme hstop hflaw)
      refine ⟨quote, body, ?_, rfl, hbody⟩
      rcases hquote with rfl | rfl <;> decide
    | template hstop hescapes =>
      obtain ⟨body, rfl, hbody⟩ := templateFrom_isWholePiece_iff.1 ⟨hstop, hescapes⟩
      exact ⟨'\x60', body, by decide, rfl, hbody⟩
  · rintro ⟨quote, body, hquote, rfl, hbody⟩
    by_cases htemplate : quote = '\x60'
    · subst htemplate
      obtain ⟨hstop, hescapes⟩ := hbody.template_isWholePiece 1
      exact .template hstop hescapes
    · have hstring : quote = '\'' ∨ quote = '"' := by
        simpa [isQuote, htemplate] using hquote
      have hwhole := hbody.string_isWhole hstring (0 + quote.utf8Size)
      have hread := (lexemeAt_quote hstring 0 _).trans (string_isWhole hwhole)
      exact .string hstring (by rw [hread]) (by rw [hread]; exact hwhole.stop) (by rw [hread])

/-- Does the text stand for itself between the quotes? -/
def isPlainBetween (quote : Char) (s : Text) : Bool :=
  s.all fun c => c ≠ quote && c ≠ '\\' && c ≠ '\n' && c ≠ '\r'

theorem stringFrom_plain {after : Text} (h : isPlainBetween quote s = true) :
    stringFrom quote 0 pos (s ++ quote :: after) =
      ⟨s, ⟨pos + Text.size s + quote.utf8Size, after⟩, none, none, true⟩ := by
  induction s generalizing pos with
  | nil =>
    rw [List.nil_append, stringFrom, if_pos rfl]
    rfl
  | cons c s ih =>
    rw [isPlainBetween, List.all_cons, Bool.and_eq_true] at h
    obtain ⟨hc, hs⟩ := h
    simp only [Bool.and_eq_true, decide_eq_true_eq] at hc
    obtain ⟨⟨⟨hend, hescape⟩, hfeed⟩, hreturn⟩ := hc
    rw [List.cons_append, stringFrom, if_neg hend, if_neg (not_or.2 ⟨hfeed, hreturn⟩),
      if_neg hescape, ih hs, Text.size, Nat.add_assoc pos]

/-- The token at a plain text between quotes is that text. -/
theorem next_quoted {after : Text} (hquote : quote = '\'' ∨ quote = '"')
    (h : isPlainBetween quote s = true) :
    Token.next ⟨pos, quote :: (s ++ quote :: after)⟩ =
      ⟨.string s, ⟨pos, quote :: (s ++ quote :: after)⟩,
        ⟨pos + Text.size (quote :: (s ++ [quote])), after⟩, false, none⟩ := by
  have hgap : gap ⟨pos, quote :: (s ++ quote :: after)⟩ =
      ⟨⟨pos, quote :: (s ++ quote :: after)⟩, false, none, none⟩ := by
    rcases hquote with rfl | rfl <;> rfl
  have hsize : pos + quote.utf8Size + Text.size s + quote.utf8Size =
      pos + Text.size (quote :: (s ++ [quote])) := by
    simp only [Text.size, Text.size_append]
    omega
  rw [Token.next, hgap, Gap.token]
  dsimp only
  rw [lexemeAt_quote hquote, string]
  simp only [Place.next, stringFrom_plain h, hsize]
  rfl

end RoutePages.Script
