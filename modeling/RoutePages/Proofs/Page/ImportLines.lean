import RoutePages.Edit.Rewrite
import RoutePages.Proofs.Page.Lineage
import RoutePages.Proofs.Page.ReadBack
import RoutePages.Proofs.Script.Items

/-!
# Lines that import pages

The lines that import pages are read as one import each, wherever the text that they begin can be
read at all: where the identifier of a page is none of the language, no token begins with one of its
characters, and the text cannot be read.
-/
namespace RoutePages

open Script Script.Parser

/-! ## Characters that begin no token -/

namespace Text

variable {c : Char}

/-- In ASCII all that is accepted can stand in a name. -/
theorem large_of_not_isNameStart (h : isLetter c = true ∨ c = '_' ∨ c = '$')
    (hstart : isNameStart c = false) : 128 ≤ c.toNat := by
  refine Nat.not_lt.1 fun hsmall => ?_
  have hascii := (isName_ascii hsmall).1
  rw [hstart, ← Bool.not_eq_true] at hascii
  refine hascii ?_
  simp only [Bool.or_eq_true, decide_eq_true_eq]
  tauto

theorem large_of_not_isNamePart (h : isLetter c = true ∨ isNumeral c = true ∨ c = '_' ∨ c = '$')
    (hpart : isNamePart c = false) : 128 ≤ c.toNat := by
  refine Nat.not_lt.1 fun hsmall => ?_
  have hascii := (isName_ascii hsmall).2.1
  rw [hpart, ← Bool.not_eq_true] at hascii
  refine hascii ?_
  simp only [Bool.or_eq_true, decide_eq_true_eq]
  tauto

/-- A joiner is not accepted. -/
theorem isIdentifierPart_of_accepted
    (h : isLetter c = true ∨ isNumeral c = true ∨ c = '_' ∨ c = '$') :
    isIdentifierPart c = isNamePart c := by
  rw [isIdentifierPart_eq, decide_eq_false (not_mark_of_accepted h (.inl rfl)),
    decide_eq_false (not_mark_of_accepted h (.inr (.inl rfl))), Bool.or_false, Bool.or_false]

end Text

theorem isDigit_large {c : Char} (h : 128 ≤ c.toNat) : isDigit 10 c = false := by
  refine Bool.eq_false_iff.2 fun hdigit => ?_
  have hascii := isAsciiDigit_of_isDigit hdigit
  rw [(Text.not_isAsciiLetter h).2] at hascii
  cases hascii

/-- All signs are made of ASCII. -/
theorem signAt_large {c : Char} (h : 128 ≤ c.toNat) (pos : Nat) (s : Text) :
    signAt ⟨pos, c :: s⟩ = none := by
  have hlong : ∀ sign ∈ longSigns, ∃ d t, sign = d :: t ∧ d.toNat < 128 := by
    have hheads : longSigns.all (fun sign => sign.head?.any (·.toNat < 128)) = true := by
      decide
    intro sign hsign
    obtain ⟨d, hd, hsmall⟩ := (Option.any_eq_true _ _).1 (List.all_eq_true.1 hheads sign hsign)
    obtain ⟨t, rfl⟩ := List.head?_eq_some_iff.1 hd
    exact ⟨d, t, rfl, of_decide_eq_true hsmall⟩
  have hshort : shortSigns.all (·.toNat < 128) = true := by decide
  have hfind : longSigns.find? (⟨pos, c :: s⟩ : Place).at? = none := by
    refine List.find?_eq_none.2 fun sign hsign => ?_
    obtain ⟨d, t, rfl, hsmall⟩ := hlong sign hsign
    have hne : (d == c) = false := by
      refine beq_eq_false_iff_ne.2 ?_
      rintro rfl
      exact Nat.not_lt.2 h hsmall
    rw [Place.at?, List.isPrefixOf, hne]
    exact Bool.false_ne_true
  have hnone : c ∉ shortSigns := fun hmem =>
    Nat.not_lt.2 h (of_decide_eq_true (List.all_eq_true.1 hshort c hmem))
  simp only [signAt, hfind, Place.head?, List.head?_cons, if_neg hnone]

/-- What is accepted in an identifier and cannot begin one begins no token. -/
theorem next_of_not_isIdentifierStart {c : Char}
    (haccepted : Text.isLetter c = true ∨ Text.isNumeral c = true ∨ c = '_' ∨ c = '$')
    (hstart : Text.isIdentifierStart c = false) (hlarge : 128 ≤ c.toNat) (pos : Nat) (s : Text) :
    (Token.next ⟨pos, c :: s⟩).lexeme = .fault pos := by
  have hne : ∀ d : Char, d.toNat < 128 → c ≠ d := by
    rintro d hsmall rfl
    exact Nat.not_lt.2 hlarge hsmall
  have hmark : c.toNat ≠ 0xFEFF := Text.not_mark_of_accepted haccepted (.inr (.inr rfl))
  have hgap : gap ⟨pos, c :: s⟩ = ⟨⟨pos, c :: s⟩, false, none, none⟩ :=
    gapFrom_of_not_isBlank (Text.not_isBlank_of_accepted haccepted) hmark
      ⟨hne _ (by decide), hne _ (by decide), hne _ (by decide)⟩ false none
  have hlexeme : lexemeAt ⟨pos, c :: s⟩ = ⟨.fault pos, ⟨pos + c.utf8Size, s⟩, none⟩ := by
    simp only [lexemeAt, hstart, hne '\\' (by decide), hne '.' (by decide), hne '"' (by decide),
      hne '\'' (by decide), isDigit_large hlarge, signAt_large hlarge, decide_false, Bool.or_self,
      Bool.false_and, Bool.false_eq_true, if_false]
    rfl
  rw [Token.next, hgap, Gap.token, hlexeme]
  rfl

/-- In what is accepted and no identifier of the language, a plain word or nothing ends before a
character that begins no token. -/
theorem exists_of_not_isName {name : Text} (h : isIdentifier name = true)
    (hname : isName name = false) :
    ∃ w d s, name = w ++ d :: s ∧ (w = [] ∨ isPlainWord w = true ∧ Text.isIdentifierPart d = false) ∧
      Text.isIdentifierStart d = false ∧ d ∈ name ∧ 128 ≤ d.toNat := by
  obtain ⟨c, s, rfl, hfirst⟩ := exists_of_isIdentifier h
  cases hstart : Text.isNameStart c with
  | false =>
    exact ⟨[], c, s, rfl, .inl rfl, by rw [← Text.isNameStart_eq, hstart], List.mem_cons_self,
      Text.large_of_not_isNameStart hfirst hstart⟩
  | true =>
    rw [isName, hstart, Bool.true_and] at hname
    have hsplit : s.takeWhile Text.isNamePart ++ s.dropWhile Text.isNamePart = s :=
      List.takeWhile_append_dropWhile
    have hparts : ∀ d ∈ s.takeWhile Text.isNamePart, Text.isNamePart d = true :=
      fun d hd => List.all_eq_true.1 List.all_takeWhile d hd
    cases hrest : s.dropWhile Text.isNamePart with
    | nil =>
      rw [hrest, List.append_nil] at hsplit
      rw [hsplit] at hparts
      exact absurd (List.all_eq_true.2 hparts) (Bool.eq_false_iff.1 hname)
    | cons d rest =>
      rw [hrest] at hsplit
      have hd : Text.isNamePart d = false := Text.head_dropWhile _ _ d (by rw [hrest]; rfl)
      have hmem : d ∈ c :: s := by
        rw [← hsplit]
        simp
      have haccepted := isIdentifier_spec h hmem
      have hpart : Text.isIdentifierPart d = false := by
        rw [Text.isIdentifierPart_of_accepted haccepted, hd]
      have hword : isPlainWord (c :: s.takeWhile Text.isNamePart) = true := by
        rw [isPlainWord, ← Text.isNameStart_eq, hstart, Bool.true_and, List.all_eq_true]
        intro e he
        rw [Text.isIdentifierPart_eq, hparts e he]
        rfl
      refine ⟨c :: s.takeWhile Text.isNamePart, d, rest, by rw [List.cons_append, hsplit],
        .inr ⟨hword, hpart⟩, ?_, hmem, Text.large_of_not_isNamePart haccepted hd⟩
      exact Bool.eq_false_iff.2 fun hbegins => Bool.false_ne_true
        (hpart.symm.trans (Text.isIdentifierPart_of_start hbegins))

/-! ## Imports that are not read -/

/-- An import from its names on. -/
def Script.Rules.namesOn (r : Rules) (start : Nat) : Parser (List Part) := do
  match ← r.importedLocals? with
  | none =>
    r.importEquals
    return []
  | some names =>
    let source ← r.fromClause
    return [.imports names source (← spanFrom start)]

/-- No token is read here. -/
def Script.Token.IsFault (t : Token) : Prop := ∃ offset, t.lexeme = .fault offset

section Fault

variable {t : Token} {r : Rules} {m : Mode} {c d : Cursor}

theorem Script.Token.IsFault.isSign (h : t.IsFault) (s : Text) : t.isSign s = false := by
  obtain ⟨offset, h⟩ := h
  rw [Token.isSign, h]

theorem Script.Token.IsFault.isWord (h : t.IsFault) (w : Text) : t.isWord w = false := by
  obtain ⟨offset, h⟩ := h
  rw [Token.isWord, h]

theorem Script.Token.IsFault.isReference (h : t.IsFault) : t.isReference = false := by
  obtain ⟨offset, h⟩ := h
  rw [Token.isReference, h]

theorem fromClause_run_ne (h : c.token.IsFault) (source : Text) :
    r.fromClause.run m c ≠ .done source d := by
  intro hrun
  obtain ⟨u, e, hword, -⟩ := (bind_eq_done _ _).1 hrun
  have hfrom := isWord_of_expectWord _ _ hword
  rw [h.isWord] at hfrom
  cases hfrom

/-- The names that are imported are not read up to a source. -/
theorem namesOn_run_ne {locals : List Text} (hlocals : r.importedLocals?.run m c = .done (some locals) d)
    (h : d.token.IsFault) (start : Nat) (item : List Part) (e : Cursor) :
    (r.namesOn start).run m c ≠ .done item e := by
  intro hrun
  obtain ⟨found, f, hfound, hrest⟩ := (bind_eq_done _ _).1 hrun
  cases hlocals.symm.trans hfound
  obtain ⟨source, g, hfrom, -⟩ := (bind_eq_done _ _).1 hrest
  exact fromClause_run_ne h source hfrom

/-- Nothing is imported where no token is read behind the word, or behind a name. -/
theorem import_run_ne (himport : c.token.lexeme = .word "import")
    (h : c.advanced.token.IsFault ∨
      (∃ name, c.advanced.token.IsName name) ∧ c.advanced.advanced.token.IsFault)
    (item : List Part) : (r.itemRule true).run m c ≠ .done item d := by
  have hword : c.token.isWord "import" = true := by
    rw [Token.isWord, himport]
    decide
  have hsigns : ∀ s, c.advanced.token.isSign s = false := by
    rcases h with h | ⟨⟨name, h⟩, -⟩
    · exact h.isSign
    · exact h.isSign
  have hstring : ∀ source, c.advanced.token.lexeme ≠ .string source := by
    intro source hsource
    rcases h with ⟨offset, h⟩ | ⟨⟨name, h⟩, -⟩
    · rw [h] at hsource
      cases hsource
    · rw [h.lexeme] at hsource
      cases hsource
  have hmark : Rules.atTypeMark.run m c.advanced = .done false c.advanced := by
    have htype : c.advanced.token.isWord "type" = false := by
      rcases h with h | ⟨⟨name, h⟩, -⟩
      · exact h.isWord _
      · exact h.isWord (by decide)
    simp only [Rules.atTypeMark, bind_run, ahead_run, isWord_run, htype, Bool.false_and, pure_run]
  have hnames : (r.namesOn c.token.start.pos).run m c.advanced ≠ .done item d := by
    rcases h with h | ⟨⟨name, hname⟩, h⟩
    · have hlocals : r.importedLocals?.run m c.advanced = .done (some []) c.advanced := by
        simp only [Rules.importedLocals?, Rules.importClause, bind_run, token_run, isSign_run,
          h.isReference, eat_run_false _ _ (h.isSign _), h.isSign, Bool.false_eq_true, if_false,
          pure_run]
      exact namesOn_run_ne hlocals h _ _ _
    · exact namesOn_run_ne (importedLocals_run hname h.isSign) h _ _ _
  intro hrun
  simp only [Rules.itemRule, bind_run, token_run, Bool.not_true, Bool.false_eq_true, if_false, hword,
    if_true] at hrun
  unfold Rules.importDeclaration at hrun
  have hahead : ∀ s, c.ahead.isSign s = false := hsigns
  simp only [bind_run, here_run, ahead_run, hahead, Bool.or_false, Bool.false_eq_true, if_false,
    advance_run, token_run] at hrun
  rw [hmark] at hrun
  exact hnames hrun

end Fault

/-- The identifier of an import that is read is one of the language. -/
theorem isName_of_import {name after : Text} (hidentifier : isIdentifier name = true)
    (hown : startsLower name = false) {r : Rules} {m : Mode} {c d : Cursor} {item : List Part}
    (himport : c.token.lexeme = .word "import") (hstart : c.token.stop.rest = " " ++ name ++ after)
    (hrun : (r.itemRule true).run m c = .done item d) : isName name = true := by
  by_contra hnot
  rw [Bool.not_eq_true] at hnot
  obtain ⟨w, e, s, rfl, hw, hbegins, hmem, hlarge⟩ := exists_of_not_isName hidentifier hnot
  have hfault : ∀ pos s, (Token.next ⟨pos, e :: s⟩).IsFault := fun pos s =>
    ⟨pos, next_of_not_isIdentifierStart (isIdentifier_spec hidentifier hmem) hbegins hlarge pos s⟩
  have hplace : c.token.stop = ⟨c.token.stop.pos, ' ' :: (w ++ e :: (s ++ after))⟩ := by
    have htext : (" " ++ (w ++ e :: s) ++ after : Text) = ' ' :: (w ++ e :: (s ++ after)) := by simp
    rw [← htext, ← hstart]
  have hnext : c.advanced.token = Token.next ⟨c.token.stop.pos + 1, w ++ e :: (s ++ after)⟩ :=
    (congrArg Token.next hplace).trans (next_space _ _)
  refine import_run_ne himport ?_ item hrun
  rcases hw with rfl | ⟨hw, hpart⟩
  · refine .inl ?_
    rw [hnext]
    exact hfault _ _
  · have hescape : e ≠ '\\' := by
      rintro rfl
      exact absurd hlarge (by decide)
    have hends : runsOn (e :: (s ++ after)) = false := by
      simp only [runsOn, List.head?_cons, Option.any_some, hpart, hescape, decide_false, Bool.or_self]
    have hword := hnext.trans (next_plainWord hw hends)
    have hlower : startsLower w = false := by
      obtain ⟨first, w, rfl⟩ := List.exists_cons_of_ne_nil (l := w) (by rintro rfl; cases hw)
      exact hown
    refine .inr ⟨⟨w, by rw [hword], hlower⟩, ?_⟩
    rw [Cursor.advanced_token hword rfl]
    exact hfault _ _

/-! ## One line behind the other -/

/-- A gap in which a line has ended stays so. -/
theorem gapFrom_broken (state : GapState) (pos : Nat) (flaw : Option Nat) (s : Text) :
    (gapFrom state pos true flaw s).broken = true := by
  have hkept : ∀ broken, broken = true → (gapFrom state pos broken flaw s).broken = true := by
    intro broken hbroken
    fun_induction gapFrom state pos broken flaw s <;> simp_all
  exact hkept true rfl

theorem beginsWithBreak_of_lineBreak {brk : Text} (hbrk : brk = "\n" ∨ brk = "\r\n") (s : Text) :
    BeginsWithBreak (brk ++ s) := by
  rcases hbrk with rfl | rfl
  · exact ⟨'\n', rfl, .inl rfl⟩
  · exact ⟨'\r', rfl, .inr rfl⟩

/-- A word on the next line is read as itself. -/
theorem next_belowBreak {brk w more : Text} (hbrk : brk = "\n" ∨ brk = "\r\n")
    (hw : isPlainWord w = true) (hmore : runsOn more = false) (pos : Nat) :
    Token.next ⟨pos, brk ++ (w ++ more)⟩ =
      ⟨.word w, ⟨pos + Text.size brk, w ++ more⟩, ⟨pos + Text.size brk + Text.size w, more⟩, true,
        none⟩ := by
  have hgap : gap ⟨pos, brk ++ (w ++ more)⟩ = ⟨⟨pos + Text.size brk, w ++ more⟩, true, none, none⟩ := by
    rcases hbrk with rfl | rfl
    · exact gapFrom_plainWord hw more true none
    · exact gapFrom_plainWord hw more true none
  rw [Token.next, hgap]
  simp only [Gap.token, lexemeAt_plainWord hw, word_plainWord hw hmore, Read.token, Option.or_none]

/-- Where the text ends, or goes on behind a line break, the token before it ends its line. -/
theorem endsLine_of_break {after : Text} (h : after = [] ∨ BeginsWithBreak after) (pos : Nat) :
    (Token.next ⟨pos, after⟩).EndsLine := by
  rcases h with rfl | h
  · exact .inr rfl
  · refine .inl ?_
    have hbroken : (gap ⟨pos, after⟩).broken = true := by
      obtain ⟨c, s, rfl, rfl | rfl⟩ := h.exists_cons
      · exact gapFrom_broken _ _ _ _
      · exact gapFrom_broken _ _ _ _
    rw [Token.next, Gap.token]
    split
    · exact hbroken
    · exact hbroken

/-- The line that imports the page of a plan can be written. -/
structure IsImportable (pagesAlias : Text) (plan : PagePlan) : Prop where
  identifier : isIdentifier plan.identifier = true
  own : startsLower plan.identifier = false
  source : isPlainBetween '\'' (plan.page.importSource pagesAlias) = true

/-- What is imported for a page can stand between quotes, if the alias can. -/
theorem isPlainBetween_importSource {p : PagePath} {identifier pagesAlias : Text}
    (h : deriveBinding p.toText = .ok identifier) (halias : isPlainBetween '\'' pagesAlias = true) :
    isPlainBetween '\'' (p.importSource pagesAlias) = true := by
  have hsegments : ∀ c, c = '\'' ∨ c = '\\' ∨ c = '\n' ∨ c = '\r' → c ∉ p.toText := by
    intro c hc hmem
    obtain ⟨s, hs, hcs⟩ := List.mem_flatMap.1 hmem
    rcases List.mem_cons.1 hcs with rfl | hcs
    · exact absurd hc (by decide)
    · rcases hc with rfl | rfl | rfl | rfl
      · exact not_mem_of_deriveBinding h (by decide) (by decide) s hs hcs
      · exact not_mem_of_deriveBinding h (by decide) (by decide) s hs hcs
      · exact not_mem_of_deriveBinding h (by decide) (by decide) s hs hcs
      · exact not_mem_of_deriveBinding h (by decide) (by decide) s hs hcs
  obtain ⟨_, hcut, -⟩ := Text.dropEndWhile_split pagesAlias (· = '/')
  refine List.all_eq_true.2 fun c hc => ?_
  rcases List.mem_append.1 hc with hc | hc
  · exact List.all_eq_true.1 halias c (hcut ▸ List.mem_append_left _ hc)
  · have hne : ∀ d, d = '\'' ∨ d = '\\' ∨ d = '\n' ∨ d = '\r' → c ≠ d := by
      rintro d hd rfl
      exact hsegments c hd hc
    simp only [hne '\'' (by simp), hne '\\' (by simp), hne '\n' (by simp), hne '\r' (by simp), ne_eq,
      not_false_eq_true, decide_true, Bool.and_self]

theorem IsPlanOf.isImportable {b : Bindings} {placed : Placed} {plan : PagePlan} {pagesAlias : Text}
    (h : IsPlanOf b placed plan) (halias : isPlainBetween '\'' pagesAlias = true) :
    IsImportable pagesAlias plan := by
  obtain ⟨hderived, hidentifier⟩ := deriveBinding_eq_ok h.identifier
  exact ⟨hidentifier, not_startsLower_of_deriveIdentifier hderived,
    isPlainBetween_importSource h.identifier halias⟩

/-- The import of the page of a plan alone, under its identifier. -/
def Import.ofPage (pagesAlias : Text) (plan : PagePlan) : Import :=
  ⟨[plan.identifier], plan.page.importSource pagesAlias, nowhere⟩

/-- The default import of a page. Its name follows the word at once, so no types are imported. -/
def Script.ModuleItem.ofPage (pagesAlias : Text) (plan : PagePlan) : ModuleItem :=
  ⟨.word "import", .word plan.identifier, [(Import.ofPage pagesAlias plan).part]⟩

section Lines

variable {pagesAlias brk : Text}

/-- What stands behind the word in the line of a plan. -/
def importTail (pagesAlias : Text) (plan : PagePlan) : Text :=
  " " ++ plan.identifier ++ " from '" ++ plan.page.importSource pagesAlias ++ "'"

theorem importLine_eq (plan : PagePlan) :
    Rewrite.importLine pagesAlias plan = "import" ++ importTail pagesAlias plan := by
  unfold Rewrite.importLine importTail
  simp only [List.append_assoc]
  rfl

/-- The word of a line that stands below a line break is read as itself. -/
theorem next_importLine (hbrk : brk = "\n" ∨ brk = "\r\n") (pagesAlias : Text) (plan : PagePlan)
    (after : Text) (pos : Nat) :
    Token.next ⟨pos, brk ++ ("import" ++ (importTail pagesAlias plan ++ after))⟩ =
      ⟨.word "import", ⟨pos + Text.size brk, "import" ++ (importTail pagesAlias plan ++ after)⟩,
        ⟨pos + Text.size brk + Text.size "import", importTail pagesAlias plan ++ after⟩, true, none⟩ :=
  next_belowBreak hbrk (w := "import") (by decide) rfl pos

/-- One line is read as one import, if it is read. -/
theorem importLine_read {plan : PagePlan} (h : IsImportable pagesAlias plan) {after : Text}
    (hafter : after = [] ∨ BeginsWithBreak after) {r : Rules} {m : Mode} {c d : Cursor}
    {item : List Part} (himport : c.token.lexeme = .word "import")
    (hstart : c.token.stop.rest = importTail pagesAlias plan ++ after)
    (hrun : (r.itemRule true).run m c = .done item d) :
    ∃ pos, c.ahead.lexeme = .word plan.identifier ∧
      Part.allBare item = [(Import.ofPage pagesAlias plan).part] ∧
      ((Token.next ⟨pos, after⟩).isSign ";" = false → d.token = Token.next ⟨pos, after⟩) := by
  have hrest : c.token.stop.rest = " " ++ plan.identifier ++
      (" from '" ++ plan.page.importSource pagesAlias ++ "'" ++ after) := by
    rw [hstart, importTail]
    simp only [List.append_assoc]
  have hname := isName_of_import h.identifier h.own himport hrest hrun
  obtain ⟨e, hread, hahead, he⟩ := import_run (isPlainWord_of_isName hname) h.own r m himport
    (show c.token.stop = ⟨c.token.stop.pos, _⟩ by rw [← importTail, ← hstart]) h.source
    (endsLine_of_break hafter _) rfl
  cases hrun.symm.trans hread
  exact ⟨_, hahead, rfl, fun hsign => (he hsign).1⟩

/-- One line that exports all names of another module is closed. -/
theorem isClosed_exportStar {markup : Bool} {source : Text}
    (hsource : isPlainBetween '\'' source = true) :
    IsClosed markup ("export * from '" ++ source ++ "'") [⟨.word "export", .sign "*", []⟩] := by
  intro depth below hdepth hbelow
  have htext : ("export * from '" ++ source ++ "'" ++ below : Text) =
      "export" ++ ' ' :: '*' :: ' ' :: ("from" ++ ' ' :: '\'' :: (source ++ '\'' :: below)) := by
    simp
  have hsize : Text.size ("export * from '" ++ source ++ "'") = 15 + Text.size source + 1 := by
    have hwords : Text.size "export * from '" = 15 ∧ Text.size "'" = 1 := by decide
    rw [Text.size_append, Text.size_append, hwords.1, hwords.2]
  rw [htext, hsize]
  generalize hc : Cursor.start ("export" ++ ' ' :: '*' :: ' ' ::
    ("from" ++ ' ' :: '\'' :: (source ++ '\'' :: below))) = c
  have hexport : c.token = _ := (congrArg Cursor.token hc).symm.trans
    (next_plainWord (w := "export") (by decide) rfl)
  have hstar : c.advanced.token = _ := Cursor.advanced_token hexport
    ((next_space _ _).trans (next_star _ _))
  have hfrom : c.advanced.advanced.token = _ := Cursor.advanced_token hstar
    ((next_space _ _).trans (next_plainWord (w := "from") (by decide) rfl))
  have hquoted : c.advanced.advanced.advanced.token = _ := Cursor.advanced_token hfrom
    ((next_space _ _).trans (next_quoted (.inl rfl) hsource))
  have hbehind : c.advanced.advanced.advanced.advanced.token =
      Token.next ⟨15 + Text.size source + 1, below⟩ := by
    refine Cursor.advanced_token hquoted (congrArg (fun p => Token.next ⟨p, below⟩) ?_)
    have hwords : Text.size "export" = 6 ∧ Text.size "from" = 4 ∧ '\''.utf8Size = 1 := by decide
    simp only [Text.size_append, Text.size]
    omega
  obtain ⟨n, rfl⟩ := Nat.exists_eq_add_of_le' (Nat.le_trans (Nat.le_add_left 1 _) hdepth)
  obtain ⟨d, hrun, hd⟩ := exportStar_run (r := rules n) (m := Mode.start markup) (by rw [hexport])
    (by rw [hstar]) (by rw [hfrom]) (by rw [hquoted])
    (by rw [hbehind]; exact endsLine_of_break (.inr hbelow) _)
  have hstep : (rules (n + 1)).itemStep.run (Mode.start markup) c = .done (some []) d :=
    itemStep_word (by rw [hexport]) hrun
  have hlast := Rules.Reads.cons hstep (.nil d)
  rw [hexport, show c.ahead.lexeme = c.advanced.token.lexeme from rfl, hstar] at hlast
  rw [hbehind] at hd
  exact ⟨d, hlast, fun hsign => by rw [hd hsign, hbehind]⟩

/-- A closed text with a default import on its last line is closed. -/
theorem Script.IsClosed.default {markup : Bool} {above name source : Text} {items : List ModuleItem}
    (h : IsClosed markup above items) (hbrk : brk = "\n" ∨ brk = "\r\n")
    (hname : isPlainWord name = true) (hown : startsLower name = false)
    (hsource : isPlainBetween '\'' source = true) :
    IsClosed markup (above ++ brk ++ ("import " ++ name ++ " from '" ++ source ++ "'"))
      (items ++ [⟨.word "import", .word name, [.imports [name] source nowhere]⟩]) := by
  intro depth below hdepth hbelow
  have htext : above ++ brk ++ ("import " ++ name ++ " from '" ++ source ++ "'") ++ below =
      above ++ (brk ++ ("import" ++ (" " ++ name ++ " from '" ++ source ++ "'" ++ below))) := by
    simp
  have hsize : Text.size (above ++ brk ++ ("import " ++ name ++ " from '" ++ source ++ "'")) =
      Text.size above + Text.size brk + Text.size "import" +
        Text.size (" " ++ name ++ " from '" ++ source ++ "'") := by
    have hwords : Text.size "import " = 7 ∧ Text.size "import" = 6 ∧ Text.size " " = 1 := by decide
    simp only [Text.size_append]
    omega
  rw [htext, hsize]
  have habove : depthFor above ≤ depth := by
    refine Nat.le_trans ?_ hdepth
    unfold depthFor
    simp only [List.length_append]
    omega
  have hnext := next_belowBreak hbrk (w := "import") (by decide)
    (show runsOn (" " ++ name ++ " from '" ++ source ++ "'" ++ below) = false from rfl)
    (Text.size above)
  obtain ⟨c, hreads, hc⟩ := h depth _ habove (beginsWithBreak_of_lineBreak hbrk _)
  have htoken : c.token = _ := (hc (by rw [hnext]; rfl)).trans hnext
  obtain ⟨n, rfl⟩ := Nat.exists_eq_add_of_le' (Nat.le_trans (Nat.le_add_left 1 _) hdepth)
  obtain ⟨d, hrun, hahead, hd⟩ := import_run hname hown (rules n) (Mode.start markup)
    (by rw [htoken]) (by rw [htoken]) hsource (endsLine_of_break (.inr hbelow) _) rfl
  have hstep : (rules (n + 1)).itemStep.run (Mode.start markup) c = .done (some _) d :=
    itemStep_word (by rw [htoken]) hrun
  have hlast := Rules.Reads.cons hstep (.nil d)
  rw [htoken, hahead] at hlast
  exact ⟨d, hreads.append hlast, fun hsign => (hd hsign).1⟩

/-- Lines one behind the other are read as one import each, in their order. -/
theorem importLines_read (hbrk : brk = "\n" ∨ brk = "\r\n") {plan : PagePlan} {plans : List PagePlan}
    (h : ∀ p ∈ plan :: plans, IsImportable pagesAlias p) {after : Text}
    (hafter : after = [] ∨ BeginsWithBreak after) {n fuel : Nat} {m : Mode} {c d : Cursor}
    {all : List (List Part)} (himport : c.token.lexeme = .word "import")
    (hstart : c.token.stop.rest = importTail pagesAlias plan ++
      (plans.flatMap (brk ++ Rewrite.importLine pagesAlias ·) ++ after))
    (hrun : (Parser.many (rules (n + 1)).itemStep fuel).run m c = .done all d) :
    ∃ (rest : List (List Part)) (fuel' : Nat) (e : Cursor),
      (rules (n + 1)).Reads m c ((plan :: plans).map (ModuleItem.ofPage pagesAlias)) e ∧
      (Parser.many (rules (n + 1)).itemStep fuel').run m e = .done rest d := by
  induction plans generalizing plan c fuel all with
  | nil =>
    obtain ⟨fuel', parts, e, rest, rfl, hitem, hreads, hloop⟩ := loop_import himport hrun
    obtain ⟨pos, hahead, hparts, -⟩ :=
      importLine_read (h plan List.mem_cons_self) hafter himport hstart hitem
    rw [hahead, hparts] at hreads
    exact ⟨rest, fuel', e, hreads, hloop⟩
  | cons next plans ih =>
    obtain ⟨fuel', parts, e, rest, rfl, hitem, hreads, hloop⟩ := loop_import himport hrun
    have hbehind : (next :: plans).flatMap (brk ++ Rewrite.importLine pagesAlias ·) ++ after =
        brk ++ ("import" ++ (importTail pagesAlias next ++
          (plans.flatMap (brk ++ Rewrite.importLine pagesAlias ·) ++ after))) := by
      rw [List.flatMap_cons, importLine_eq]
      simp only [List.append_assoc]
    rw [hbehind] at hstart
    obtain ⟨pos, hahead, hparts, he⟩ := importLine_read (h plan List.mem_cons_self)
      (.inr (beginsWithBreak_of_lineBreak hbrk _)) himport hstart hitem
    rw [hahead, hparts] at hreads
    -- the next token is the word of the next line, so the cursor is behind the line
    have hnext := next_importLine hbrk pagesAlias next
      (plans.flatMap (brk ++ Rewrite.importLine pagesAlias ·) ++ after) pos
    have htoken : e.token = _ := (he (by rw [hnext]; rfl)).trans hnext
    obtain ⟨more, fuel'', f, hmore, hend⟩ :=
      ih (fun p hp => h p (List.mem_cons_of_mem _ hp)) (by rw [htoken]) (by rw [htoken]) hloop
    exact ⟨more, fuel'', f, hreads.append hmore, hend⟩

end Lines

end RoutePages
