import RoutePages.Proofs.Script.Lists
import RoutePages.Proofs.Script.Quotes

/-!
# Values that are read alone

Literals, names, arrays and objects are read alone, and so are the elements and properties that hold
such values.
-/
namespace RoutePages.Script

open Script.Parser

variable {markup : Bool} {text : Text}

/-! ## Single tokens -/

/-- A text of one token, which is the whole of a value. -/
theorem readsAlone_token {lexeme : Lexeme} {make : Span → Expr} (hne : text ≠ [])
    (hsign : ∀ s, lexeme ≠ .sign s) (hdone : lexeme ≠ .done)
    (htoken : ∀ (broken : Bool) (pos : Nat) (tail : Text), runsOn tail = false →
      Token.after broken ⟨pos, text ++ tail⟩ =
        ⟨lexeme, ⟨pos, text ++ tail⟩, ⟨pos + Text.size text, tail⟩, broken, none⟩)
    (hoperand : ∀ t : Token, t.lexeme = lexeme → t.IsOperand)
    (hform : ∀ span, (make span).form? = none)
    (hprimary : ∀ (r : Rules) (m : Mode) (c : Cursor), c.token.lexeme = lexeme → c.ahead.Stops →
      r.primary.run m c = .done (make c.token.span) c.advanced) :
    ReadsAlone Rules.fullAssignment markup text fun pos => make ⟨pos, pos + Text.size text⟩ := by
  refine ⟨hne, fun broken pos tail htail => ?_, fun depth broken pos tail hdepth htail => ?_⟩
  · rw [htoken broken pos tail htail.ends]
    refine ⟨?_, hdone, rfl⟩
    rintro (h | h | h)
    all_goals exact hsign _ h
  · rw [htoken broken pos tail htail.ends]
    obtain ⟨n, rfl⟩ : ∃ n, depth = n + 5 := Nat.exists_eq_add_of_le' (by
      unfold depthFor at hdepth
      omega)
    refine fullAssignment_gives (hoperand _ rfl) htail.token.stops (hform _) fun c hc => ?_
    have hahead : c.ahead = Token.next ⟨pos + Text.size text, tail⟩ := by
      show Token.next c.token.stop = _
      rw [hc]
    have hadvanced : c.advanced.token = c.ahead := rfl
    refine ⟨c.advanced, ?_, hahead, fun hnone => Cursor.advanced_flaw ?_⟩
    · rw [hprimary _ _ c (by rw [hc]) (hahead ▸ htail.token.stops), hc]
      rfl
    · rw [hadvanced, hahead, hnone]

/-- A text between quotes. -/
def quoted (quote : Char) (s : Text) : Text := quote :: (s ++ [quote])

def stringAt (quote : Char) (s : Text) (pos : Nat) : Expr :=
  .string s ⟨pos, pos + Text.size (quoted quote s)⟩

theorem after_quoted {quote : Char} {s tail : Text} (hquote : quote = '\'' ∨ quote = '"')
    (hs : isPlainBetween quote s = true) (broken : Bool) (pos : Nat) :
    Token.after broken ⟨pos, quoted quote s ++ tail⟩ =
      ⟨.string s, ⟨pos, quoted quote s ++ tail⟩, ⟨pos + Text.size (quoted quote s), tail⟩, broken,
        none⟩ := by
  have htext : quoted quote s ++ tail = quote :: (s ++ quote :: tail) := by simp [quoted]
  have hgap : ∀ broken, gapFrom .blank pos broken none (quote :: (s ++ quote :: tail)) =
      ⟨⟨pos, quote :: (s ++ quote :: tail)⟩, broken, none, none⟩ := by
    intro broken
    rcases hquote with rfl | rfl
    · cases broken <;> rfl
    · cases broken <;> rfl
  have hnext : Token.next ⟨pos, quote :: (s ++ quote :: tail)⟩ = _ := next_quoted hquote hs
  rw [htext]
  unfold Token.next gap at hnext
  unfold Token.after
  rw [hgap] at hnext ⊢
  have hsame := congrArg (fun t : Token => { t with afterBreak := broken }) hnext
  exact hsame

/-- A string between its quotes is read alone. -/
theorem readsAlone_quoted {quote : Char} {s : Text} (hquote : quote = '\'' ∨ quote = '"')
    (hs : isPlainBetween quote s = true) :
    ReadsAlone Rules.fullAssignment markup (quoted quote s) (stringAt quote s) := by
  apply @readsAlone_token markup (quoted quote s) (.string s) (.string s)
  · exact nofun
  · exact nofun
  · exact nofun
  · exact fun broken pos tail _ => after_quoted hquote hs broken pos
  · intro t ht
    refine ⟨fun x hx => ?_, fun w hw => ?_, fun offset hfault => ?_⟩
    · cases ht.symm.trans hx
    · cases ht.symm.trans hw
    · cases ht.symm.trans hfault
  · exact fun span => rfl
  · intro r m c hc hnext
    unfold Rules.primary
    rw [bind_run, token_run]
    dsimp only
    rw [bind_run, cursor_run]
    dsimp only
    rw [hc]
    rfl

theorem isOperand_of_word {t : Token} {w : Text} (h : t.lexeme = .word w)
    (hw : w ∉ Text.texts ["new", "super", "import", "delete", "void", "typeof", "await", "yield"]) :
    t.IsOperand := by
  refine ⟨fun s hs => ?_, fun x hx => ?_, fun offset hfault => ?_⟩
  · cases h.symm.trans hs
  · cases h.symm.trans hx
    exact hw
  · cases h.symm.trans hfault

/-- The word for a truth value. -/
def flagText (flag : Bool) : Text := if flag then "true" else "false"

def flagAt (flag : Bool) (pos : Nat) : Expr := .bool flag ⟨pos, pos + Text.size (flagText flag)⟩

/-- The two truth values are read alone. -/
theorem readsAlone_flag (flag : Bool) :
    ReadsAlone Rules.fullAssignment markup (flagText flag) (flagAt flag) := by
  have hword : isPlainWord (flagText flag) = true := by
    cases flag <;> decide
  apply @readsAlone_token markup _ (.word (flagText flag)) (.bool flag)
  · cases flag <;> decide
  · exact nofun
  · exact nofun
  · exact fun broken pos tail htail => after_word hword htail broken pos
  · exact fun t ht => isOperand_of_word ht (by cases flag <;> decide)
  · exact fun span => rfl
  · intro r m c hc hnext
    unfold Rules.primary
    rw [bind_run, token_run]
    dsimp only
    rw [bind_run, cursor_run]
    dsimp only
    rw [hc]
    cases flag <;> rfl

/-- A name is read alone. -/
theorem readsAlone_name {name : Text} (hname : isPlainWord name = true)
    (hown : startsLower name = false) :
    ReadsAlone Rules.fullAssignment markup name fun pos =>
      .ident name ⟨pos, pos + Text.size name⟩ := by
  apply @readsAlone_token markup name (.word name) (.ident name)
  · rintro rfl
    cases hname
  · exact nofun
  · exact nofun
  · exact fun broken pos tail htail => after_word hname htail broken pos
  · intro t ht
    have h : t.IsName name := ⟨ht, hown⟩
    exact h.isOperand
  · exact fun span => rfl
  · exact fun r m c hc hnext => primary_run ⟨hc, hown⟩ hnext

/-! ## Arrays and objects -/

theorem begins_of_sign {c : Char} (hc : c = '[' ∨ c = '\x7b') (broken : Bool) (pos : Nat)
    (tail : Text) : (Token.after broken ⟨pos, c :: tail⟩).Begins := by
  rcases hc with rfl | rfl
  · rw [after_sign (by decide)]
    refine ⟨?_, nofun, rfl⟩
    rintro (h | h | h)
    all_goals cases h
  · rw [after_sign (by decide)]
    refine ⟨?_, nofun, rfl⟩
    rintro (h | h | h)
    all_goals cases h

/-- An array is read alone. -/
theorem readsAlone_array {pieces : List (Piece Element)}
    (hread : ∀ piece ∈ pieces, piece.IsRead Rules.element markup)
    (hlist : Piece.isList true pieces = true) :
    ReadsAlone Rules.fullAssignment markup (Piece.bracketed '[' ']' pieces)
      (Piece.array pieces) :=
  ⟨nofun, fun broken pos _ _ => begins_of_sign (.inl rfl) broken pos _,
    fun _ _ _ _ hdepth htail => array_gives hread hlist hdepth htail.token.stops⟩

theorem readsAlone_object {pieces : List (Piece Property)}
    (hread : ∀ piece ∈ pieces, piece.IsRead Rules.objectProperty markup)
    (hlist : Piece.isList true pieces = true) :
    ReadsAlone Rules.fullAssignment markup (Piece.bracketed '\x7b' '\x7d' pieces)
      (Piece.object pieces) :=
  ⟨nofun, fun broken pos _ _ => begins_of_sign (.inr rfl) broken pos _,
    fun _ _ _ _ hdepth htail => object_gives hread hlist hdepth htail.token.stops⟩

/-- A value that begins with no dots is an element. -/
theorem readsAlone_element {read : Nat → Expr}
    (h : ReadsAlone Rules.fullAssignment markup text read)
    (hdots : ∀ (broken : Bool) (pos : Nat) (tail : Text), SeparatesAt ⟨pos + Text.size text, tail⟩ →
      (Token.after broken ⟨pos, text ++ tail⟩).isSign "..." = false) :
    ReadsAlone Rules.element markup text fun pos => .item (read pos) := by
  refine ⟨h.ne_nil, h.begins, fun depth broken pos tail hdepth htail c hc => ?_⟩
  obtain ⟨d, hrun, hd⟩ := h.gives depth broken pos tail hdepth htail c hc
  have hnot : c.token.isSign "..." = false := by
    rw [hc]
    exact hdots broken pos tail htail
  refine ⟨d, ?_, hd⟩
  unfold Rules.element
  rw [bind_run, eat_run_false _ _ hnot]
  simp only [Bool.false_eq_true, if_false, bind_run, hrun, pure_run]

/-- An object is an element. -/
theorem readsAlone_entry {pieces : List (Piece Property)}
    (hread : ∀ piece ∈ pieces, piece.IsRead Rules.objectProperty markup)
    (hlist : Piece.isList true pieces = true) :
    ReadsAlone Rules.element markup (Piece.bracketed '\x7b' '\x7d' pieces) fun pos =>
      .item (Piece.object pieces pos) := by
  apply readsAlone_element (readsAlone_object hread hlist)
  intro broken pos tail _
  have hopens : (Token.after broken
      ⟨pos, Piece.bracketed '\x7b' '\x7d' pieces ++ tail⟩).lexeme = .sign "\x7b" :=
    congrArg Token.lexeme (after_sign (by decide) broken pos _)
  rw [Token.isSign_of_sign hopens]
  decide

/-! ## Properties -/

/-- Behind the text each value that is read alone is the value of a property. -/
def IsFieldHead (markup : Bool) (head : Text) (key : Nat → Key) : Prop :=
  ∀ (text : Text) (read : Nat → Expr), ReadsAlone Rules.fullAssignment markup text read →
    ReadsAlone Rules.objectProperty markup (head ++ text) fun pos =>
      .field (key pos) (read (pos + Text.size head))

/-- A word and a colon, with spacing around the colon. -/
theorem isFieldHead_word {word before after : Text} (hword : isPlainWord word = true)
    (hbefore : IsSpacing before) (hafter : IsSpacing after) :
    IsFieldHead markup (word ++ before ++ ":" ++ after) fun pos =>
      .name word ⟨pos, pos + Text.size word⟩ := by
  intro text read h
  obtain ⟨brk, hskip⟩ := hbefore.after
  obtain ⟨brk', hskip'⟩ := hafter.after
  have hcolon : Text.size ":" = 1 := by decide
  have htoken : ∀ (broken : Bool) (pos : Nat) (tail : Text),
      Token.after broken ⟨pos, word ++ before ++ ":" ++ after ++ text ++ tail⟩ =
        ⟨.word word, ⟨pos, word ++ (before ++ ':' :: (after ++ (text ++ tail)))⟩,
          ⟨pos + Text.size word, before ++ ':' :: (after ++ (text ++ tail))⟩, broken, none⟩ := by
    intro broken pos tail
    have htext : word ++ before ++ ":" ++ after ++ text ++ tail =
        word ++ (before ++ ':' :: (after ++ (text ++ tail))) := by simp
    have hruns : runsOn (before ++ ':' :: (after ++ (text ++ tail))) = false :=
      hbefore.not_runsOn_append (by decide : runsOn [':'] = false)
    rw [htext, after_word hword hruns]
  refine ⟨?_, fun broken pos tail _ => ?_, fun depth broken pos tail hdepth htail c hc => ?_⟩
  · exact List.append_ne_nil_of_right_ne_nil _ h.ne_nil
  · rw [htoken]
    refine ⟨?_, nofun, rfl⟩
    rintro (h | h | h)
    all_goals cases h
  · have hkey : c.token = _ := hc.trans (htoken broken pos tail)
    have hsign : c.advanced.token = _ := Cursor.advanced_token hkey
      ((hskip _ false _).trans (after_sign (by decide) _ _ _))
    have hvalue : c.advanced.advanced.token = _ := Cursor.advanced_token hsign (hskip' _ false _)
    have hsize : pos + Text.size word + Text.size before + 1 + Text.size after =
        pos + Text.size (word ++ before ++ ":" ++ after) := by
      simp only [Text.size_append, hcolon]
      omega
    have hwhole : pos + Text.size (word ++ before ++ ":" ++ after ++ text) =
        pos + Text.size (word ++ before ++ ":" ++ after) + Text.size text := by
      rw [Text.size_append, Nat.add_assoc]
    rw [hsize] at hvalue
    rw [hwhole] at htail ⊢
    have hdepth' : depthFor text ≤ depth := by
      unfold depthFor at hdepth ⊢
      rw [List.length_append] at hdepth
      omega
    have hgives := h.gives depth (false || brk') _ tail hdepth' htail
    obtain ⟨d, hrun, hd, hflaw⟩ := objectProperty_gives (congrArg Token.lexeme hkey)
      (congrArg Token.lexeme hsign) (hvalue ▸ hgives)
    refine ⟨d, ?_, hd, fun hnone => (hflaw hnone).trans ?_⟩
    · rw [hrun, Token.span, hkey]
    · rw [Cursor.advanced_flaw (by rw [hvalue]; exact (h.begins _ _ _ htail).flaw),
        Cursor.advanced_flaw (by rw [hsign])]

/-- A key as it is written mostly: with a colon and a space. -/
def fieldHead (word : Text) : Text := word ++ ": "

def wordKey (word : Text) (pos : Nat) : Key := .name word ⟨pos, pos + Text.size word⟩

theorem isFieldHead_fieldHead {word : Text} (hword : isPlainWord word = true) :
    IsFieldHead markup (fieldHead word) (wordKey word) := by
  have hcolon : (":" ++ [' '] : Text) = ": " := by decide
  have h := @isFieldHead_word markup word _ _ hword isSpacing_nil (isSpacing_blank (.inl rfl))
  rw [List.append_nil, List.append_assoc, hcolon] at h
  exact h

end RoutePages.Script
