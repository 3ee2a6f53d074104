import RoutePages.Proofs.Page.Identifiers
import RoutePages.Proofs.Script.Names
import RoutePages.Proofs.Script.Quotes

/-!
# Identifiers that are read back

The identifier of a page is made of letters and numerals, some of which no identifier of the
language can have. It is read back from an import and from a component exactly if it has none of
these. It is never a reserved word, since it begins with no small letter.
-/
namespace RoutePages

open Script

/-! ## The first character -/

namespace Text

variable {c : Char} {s : Text}

theorem startsLower_cons (c : Char) (s : Text) :
    startsLower (c :: s) = (97 ≤ c.toNat && c.toNat ≤ 122) := by
  simp only [startsLower, List.head?_cons, Option.any_some, Char.le_def, UInt32.le_iff_toNat_le]
  rfl

/-- Upper case of a character that is not ASCII is no small letter of ASCII. -/
theorem upperInRuns_large {n : Nat} {runs : List CaseRun}
    (hruns : ∀ run ∈ runs, run.last < 128 ∨ 122 < run.upper ∨
      run.upper + (run.last - run.first) < 97) (hn : 128 ≤ n) :
    ¬ (97 ≤ upperInRuns n runs ∧ upperInRuns n runs ≤ 122) := by
  induction runs with
  | nil =>
    rw [upperInRuns]
    omega
  | cons run runs ih =>
    obtain ⟨hrun, hmore⟩ := List.forall_mem_cons.1 hruns
    rw [upperInRuns]
    split
    · omega
    · split
      · omega
      · exact ih hmore

/-- The upper case of a character begins with a character that is no small letter of ASCII. -/
theorem uppercase_cases (c : Char) :
    ∃ d s, uppercase c = d :: s ∧ startsLower (d :: s) = false := by
  unfold uppercase
  split
  · rename_i hascii
    refine ⟨_, _, rfl, ?_⟩
    have hupper := forall_of_lt (p := fun c => !startsLower [c.toUpper]) (by decide +kernel) hascii
    simpa using hupper
  · rename_i hlarge
    split
    · rename_i n upper hfind
      have hall : ∀ e ∈ longUppercase, e.2 ≠ [] ∧ startsLower (e.2.map Char.ofNat) = false := by
        decide +kernel
      obtain ⟨hne, hlower⟩ := hall _ (List.mem_of_find?_eq_some hfind)
      obtain ⟨first, rest, rfl⟩ := List.exists_cons_of_ne_nil hne
      exact ⟨_, _, rfl, hlower⟩
    · refine ⟨_, _, rfl, ?_⟩
      have hupper := @upperInRuns_large c.toNat caseRuns (by decide +kernel) (Nat.not_lt.1 hlarge)
      have hvalue : (Char.ofNat (upperInRuns c.toNat caseRuns)).toNat =
          upperInRuns c.toNat caseRuns ∨ (Char.ofNat (upperInRuns c.toNat caseRuns)).toNat = 0 := by
        rw [Char.ofNat]
        by_cases hvalid : (upperInRuns c.toNat caseRuns).isValidChar
        · rw [dif_pos hvalid]
          exact .inl rfl
        · rw [dif_neg hvalid]
          exact .inr rfl
      rw [startsLower_cons, ← Bool.not_eq_true, Bool.and_eq_true, decide_eq_true_eq,
        decide_eq_true_eq]
      omega

end Text

/-- A derived name begins with the upper case of a character. -/
theorem not_startsLower_of_deriveIdentifier {path name : Text}
    (h : deriveIdentifier path = .ok name) : startsLower name = false := by
  unfold deriveIdentifier at h
  dsimp only at h
  split at h
  · cases h
  · cases h
    cases hpieces : (PagePath.pieces path).filter (· ≠ []) with
    | nil => rfl
    | cons piece pieces =>
      have hne : piece ≠ [] := by
        have hmem : piece ∈ (PagePath.pieces path).filter (· ≠ []) := hpieces ▸ List.mem_cons_self
        exact of_decide_eq_true (List.mem_filter.1 hmem).2
      obtain ⟨c, s, rfl⟩ := List.exists_cons_of_ne_nil hne
      obtain ⟨d, t, hupper, hlower⟩ := Text.uppercase_cases c
      rw [List.flatMap_cons, Text.upperFirst, hupper]
      rw [Text.startsLower_cons] at hlower
      rw [List.cons_append, List.cons_append, Text.startsLower_cons, hlower]

/-! ## Names of the language -/

/-- Is the text an identifier of the language, written without escapes and joiners? -/
def isName : Text → Bool
  | [] => false
  | c :: s => Text.isNameStart c && s.all Text.isNamePart

theorem isPlainWord_of_isName {name : Text} (h : isName name = true) : isPlainWord name = true := by
  cases name with
  | nil => cases h
  | cons c s =>
    rw [isName, Bool.and_eq_true, Text.isNameStart_eq, List.all_eq_true] at h
    rw [isPlainWord, Bool.and_eq_true, List.all_eq_true]
    refine ⟨h.1, fun d hd => ?_⟩
    rw [Text.isIdentifierPart_eq, h.2 d hd]
    rfl

/-- How an identifier is read where it stands in a route file. -/
structure ReadsBack (name : Text) : Prop where
  /-- it is one token, wherever no word goes on behind it -/
  token : ∀ (pos : Nat) (after : Text), runsOn after = false →
    Token.next ⟨pos, name ++ after⟩ =
      ⟨.word name, ⟨pos, name ++ after⟩, ⟨pos + Text.size name, after⟩, false, none⟩
  /-- an import on a line of its own binds it alone -/
  imported : ∀ (depth : Nat) (m : Mode) (pos stop : Nat) (source after : Text),
    isPlainBetween '\'' source = true →
    (Token.next ⟨stop, after⟩).EndsLine →
    stop = pos + Text.size ("import " ++ name ++ " from '" ++ source ++ "'") →
    ∃ span d, ((rules (depth + 1)).item true).run m
        (Cursor.at ⟨pos, "import " ++ name ++ " from '" ++ source ++ "'" ++ after⟩) =
      .done [.imports [name] source span] d
  /-- as a component it is an identifier -/
  component : ∀ (depth : Nat) (m : Mode) (pos stop : Nat) (after : Text), runsOn after = false →
    (Token.next ⟨stop, after⟩).EndsValue → stop = pos + Text.size ("component: " ++ name) →
    ∃ key span d, (rules (depth + 5)).objectProperty.run m
        (Cursor.at ⟨pos, "component: " ++ name ++ after⟩) =
      .done (.field (.name "component" key) (.ident name span)) d

section Reads

variable {name : Text} (hname : isPlainWord name = true) (hown : startsLower name = false)
include hname hown

/-- From the word `import` on. Unless a semicolon follows, nothing is passed behind the source. -/
theorem import_run (r : Rules) (m : Mode) {c : Cursor} {pos stop : Nat} {source after : Text}
    (himport : c.token.lexeme = .word "import")
    (hstart : c.token.stop = ⟨pos, " " ++ name ++ " from '" ++ source ++ "'" ++ after⟩)
    (hsource : isPlainBetween '\'' source = true) (hend : (Token.next ⟨stop, after⟩).EndsLine)
    (hstop : stop = pos + Text.size (" " ++ name ++ " from '" ++ source ++ "'")) :
    ∃ d, (r.itemRule true).run m c =
        .done [.imports [name] source ⟨c.token.start.pos, d.lastStop⟩] d ∧
      c.ahead.lexeme = .word name ∧
      ((Token.next ⟨stop, after⟩).isSign ";" = false → d.token = Token.next ⟨stop, after⟩ ∧
        d.lastStop = stop ∧ ((Token.next ⟨stop, after⟩).flaw = none → d.flaw = c.flaw)) := by
  have htext : (" " ++ name ++ " from '" ++ source ++ "'" ++ after : Text) =
      ' ' :: (name ++ ' ' :: ("from" ++ ' ' :: '\'' :: (source ++ '\'' :: after))) := by
    simp
  rw [htext] at hstart
  have hlocal : c.advanced.token = _ := (congrArg Token.next hstart).trans
    ((next_space _ _).trans (next_plainWord hname rfl))
  have hfrom : c.advanced.advanced.token = _ := Cursor.advanced_token hlocal
    ((next_space _ _).trans (next_plainWord (w := "from") (by decide) rfl))
  have hquoted : c.advanced.advanced.advanced.token = _ := Cursor.advanced_token hfrom
    ((next_space _ _).trans (next_quoted (.inl rfl) hsource))
  have hplace : pos + 1 + Text.size name + 1 + Text.size "from" + 1 +
      Text.size ('\'' :: (source ++ ['\''])) = stop := by
    have hsizes : Text.size " " = 1 ∧ Text.size " from '" = 7 ∧ Text.size "from" = 4 ∧
        Text.size "'" = 1 ∧ '\''.utf8Size = 1 := by decide
    simp only [hstop, Text.size_append, Text.size]
    omega
  have hbehind : c.advanced.advanced.advanced.advanced.token = Token.next ⟨stop, after⟩ :=
    Cursor.advanced_token hquoted (congrArg (fun p => Token.next ⟨p, after⟩) hplace)
  have hsize : c.advanced.advanced.advanced.advanced.lastStop = stop := by
    have hlast : c.advanced.advanced.advanced.advanced.lastStop =
        c.advanced.advanced.advanced.token.stop.pos := rfl
    rw [hlast, hquoted]
    exact hplace
  obtain ⟨d, hrun, hd⟩ := itemRule_run (r := r) (m := m) himport ⟨by rw [hlocal], hown⟩
    (by rw [hfrom]) (by rw [hquoted]) (by rw [hbehind]; exact hend)
  rw [hbehind] at hd
  refine ⟨d, hrun, congrArg Token.lexeme hlocal, fun hsign => ?_⟩
  rw [hd hsign]
  refine ⟨hbehind, hsize, fun hflaw => ?_⟩
  rw [Cursor.advanced_flaw (by rw [hbehind, hflaw]), Cursor.advanced_flaw (by rw [hquoted]),
    Cursor.advanced_flaw (by rw [hfrom]), Cursor.advanced_flaw (by rw [hlocal])]

theorem import_read (r : Rules) (m : Mode) {pos stop : Nat} {source after : Text}
    (hsource : isPlainBetween '\'' source = true) (hend : (Token.next ⟨stop, after⟩).EndsLine)
    (hstop : stop = pos + Text.size ("import " ++ name ++ " from '" ++ source ++ "'")) :
    ∃ span d, (r.itemRule true).run m
        (Cursor.at ⟨pos, "import " ++ name ++ " from '" ++ source ++ "'" ++ after⟩) =
      .done [.imports [name] source span] d := by
  have htext : ("import " ++ name ++ " from '" ++ source ++ "'" ++ after : Text) =
      "import" ++ (" " ++ name ++ " from '" ++ source ++ "'" ++ after) := by
    simp
  rw [htext]
  generalize hc : Cursor.at ⟨pos, "import" ++ (" " ++ name ++ " from '" ++ source ++ "'" ++ after)⟩ = c
  have himport : c.token = _ :=
    Cursor.at_token hc (next_plainWord (w := "import") (by decide) rfl)
  have hsizes : Text.size "import " = 7 ∧ Text.size "import" = 6 ∧ Text.size " " = 1 := by decide
  obtain ⟨d, hrun, -⟩ := import_run hname hown r m (by rw [himport]) (by rw [himport]) hsource
    hend (by simp only [hstop, Text.size_append]; omega)
  exact ⟨_, d, hrun⟩

theorem component_read (n : Nat) (m : Mode) {pos stop : Nat} {after : Text}
    (hafter : runsOn after = false) (hend : (Token.next ⟨stop, after⟩).EndsValue)
    (hstop : stop = pos + Text.size ("component: " ++ name)) :
    ∃ key span d, (rules (n + 5)).objectProperty.run m
        (Cursor.at ⟨pos, "component: " ++ name ++ after⟩) =
      .done (.field (.name "component" key) (.ident name span)) d := by
  have htext : ("component: " ++ name ++ after : Text) =
      "component" ++ ':' :: ' ' :: (name ++ after) := by
    simp
  rw [htext]
  generalize hc : Cursor.at ⟨pos, "component" ++ ':' :: ' ' :: (name ++ after)⟩ = c
  have hkey : c.token = _ :=
    Cursor.at_token hc (next_plainWord (w := "component") (by decide) rfl)
  have hcolon : c.advanced.token = _ := Cursor.advanced_token hkey (next_colon _ _)
  have hlocal : c.advanced.advanced.token = _ := Cursor.advanced_token hcolon
    ((next_space _ _).trans (next_plainWord hname hafter))
  have hbehind : c.advanced.advanced.advanced.token = Token.next ⟨stop, after⟩ := by
    refine Cursor.advanced_token hlocal (congrArg (fun p => Token.next ⟨p, after⟩) ?_)
    have hsizes : Text.size "component: " = 11 ∧ Text.size "component" = 9 := by decide
    simp only [hstop, Text.size_append]
    omega
  have hname : c.advanced.advanced.token.IsName name := ⟨by rw [hlocal], hown⟩
  have hstops : c.advanced.advanced.advanced.token.Stops := by
    rw [hbehind]
    exact hend.stops
  obtain ⟨d, hrun, -⟩ := objectProperty_gives (c := c) (by rw [hkey]) (by rw [hcolon])
    (name_gives hname hstops n)
  exact ⟨_, _, d, hrun⟩

end Reads

/-- What is accepted as an identifier has a first character and others. -/
theorem exists_of_isIdentifier {name : Text} (h : isIdentifier name = true) :
    ∃ c s, name = c :: s ∧ (Text.isLetter c = true ∨ c = '_' ∨ c = '$') := by
  cases name with
  | nil => cases h
  | cons c s =>
    rw [isIdentifier, Bool.and_eq_true] at h
    simp only [Bool.or_eq_true, decide_eq_true_eq] at h
    exact ⟨c, s, rfl, by tauto⟩

theorem isName_iff {name : Text} (h : isIdentifier name = true) :
    isName name = true ↔ (∀ c ∈ name.head?, Text.isNameStart c = true) ∧
      ∀ c ∈ name.tail, Text.isStray c = false := by
  obtain ⟨c, s, rfl, -⟩ := exists_of_isIdentifier h
  rw [isName, Bool.and_eq_true, List.all_eq_true]
  refine and_congr (by simp) (forall₂_congr fun d hd => ?_)
  rw [Text.isNamePart_eq (isIdentifier_spec h (List.mem_cons_of_mem _ hd)), Bool.not_eq_true']

theorem isAsciiDigit_of_isDigit {c : Char} (h : isDigit 10 c = true) :
    Text.isAsciiDigit c = true := by
  rw [isDigit, decide_eq_true_eq, digitValue] at h
  rw [Text.isAsciiDigit, Bool.and_eq_true, decide_eq_true_eq, decide_eq_true_eq]
  split at h
  · assumption
  · split at h
    · omega
    · split at h <;> omega

/-- No numeral begins where a name begins. -/
theorem not_isDigit {c : Char} (h : Text.isLetter c = true ∨ c = '_' ∨ c = '$') :
    isDigit 10 c = false := by
  refine Bool.eq_false_iff.2 fun hdigit => ?_
  have hascii := isAsciiDigit_of_isDigit hdigit
  have hsmall : c.toNat < 128 := Nat.not_le.1 fun hlarge =>
    Bool.false_ne_true ((Text.not_isAsciiLetter hlarge).2.symm.trans hascii)
  obtain ⟨hname, -, hnone⟩ := Text.isName_ascii hsmall
  have hfirst : (Text.isLetter c || c = '_' || c = '$') = true := by
    simp only [Bool.or_eq_true, decide_eq_true_eq]
    tauto
  rw [hascii, ← hname, hfirst] at hnone
  cases hnone

/-- A token that starts where it was looked for was read there. -/
theorem lexemeAt_of_next {p : Place} {name : Text} (hlexeme : (Token.next p).lexeme = .word name)
    (hstart : (Token.next p).start = p) : (lexemeAt p).lexeme = .word name := by
  unfold Token.next Gap.token at hlexeme hstart
  cases hunclosed : (gap p).unclosed with
  | some start =>
    rw [hunclosed] at hlexeme
    cases hlexeme
  | none =>
    rw [hunclosed] at hlexeme hstart
    have hstop : (gap p).stop = p := hstart
    dsimp only [Read.token] at hlexeme
    rwa [hstop] at hlexeme

/-- An accepted name that is read as itself is an identifier of the language. -/
theorem isName_of_read {name : Text} (h : isIdentifier name = true)
    (hread : (lexemeAt ⟨0, name⟩).lexeme = .word name) : isName name = true := by
  have hother : ∀ d, Text.isLetter d = false → Text.isNumeral d = false → d ≠ '_' → d ≠ '$' →
      d ∉ name := by
    intro d hletter hnumeral hline hdollar hd
    rcases isIdentifier_spec h hd with h | h | h | h
    · exact Bool.false_ne_true (hletter.symm.trans h)
    · exact Bool.false_ne_true (hnumeral.symm.trans h)
    · exact hline h
    · exact hdollar h
  have hescape := hother '\\' (by decide) (by decide) (by decide) (by decide)
  have hpoint := hother '.' (by decide) (by decide) (by decide) (by decide)
  have hjoiner : ∀ n, n = 0x200C ∨ n = 0x200D → Char.ofNat n ∉ name := by
    rintro n (rfl | rfl)
    · obtain ⟨hletter, hnumeral⟩ := Text.not_isLetter_mark (n := 0x200C) (.inl rfl)
      exact hother _ hletter hnumeral (by decide) (by decide)
    · obtain ⟨hletter, hnumeral⟩ := Text.not_isLetter_mark (n := 0x200D) (.inr (.inl rfl))
      exact hother _ hletter hnumeral (by decide) (by decide)
  obtain ⟨c, s, rfl, hfirst⟩ := exists_of_isIdentifier h
  have hword : isPlainWord (c :: s) = true :=
    isPlainWord_of_lexemeAt hescape (fun hc => hpoint (hc ▸ List.mem_cons_self))
      (not_isDigit hfirst) hread
  rw [isPlainWord, Bool.and_eq_true, List.all_eq_true] at hword
  rw [isName, Bool.and_eq_true, List.all_eq_true, Text.isNameStart_eq]
  refine ⟨hword.1, fun d hd => ?_⟩
  have hpart := hword.2 d hd
  rw [Text.isIdentifierPart_eq] at hpart
  simp only [Bool.or_eq_true, decide_eq_true_eq, or_assoc] at hpart
  refine hpart.resolve_right fun hjoins => hjoiner d.toNat hjoins ?_
  rw [Char.ofNat_toNat]
  exact List.mem_cons_of_mem _ hd

/-- The name of a page is no reserved word. It is read back exactly if it is an identifier of the
language, and that is so exactly if the first of its characters can begin one and no other is a
stray letter or numeral. -/
theorem deriveBinding_readsBack_iff {path name : Text} (h : deriveBinding path = .ok name) :
    isReserved name = false ∧
    (ReadsBack name ↔ isName name = true) ∧
    (isName name = true ↔ (∀ c ∈ name.head?, Text.isNameStart c = true) ∧
      ∀ c ∈ name.tail, Text.isStray c = false) := by
  obtain ⟨hderived, hidentifier⟩ := deriveBinding_eq_ok h
  have hown := not_startsLower_of_deriveIdentifier hderived
  refine ⟨not_isReserved hown, ⟨fun hread => ?_, fun hname => ?_⟩, isName_iff hidentifier⟩
  · have htoken := hread.token 0 [] rfl
    rw [List.append_nil, Nat.zero_add] at htoken
    exact isName_of_read hidentifier (lexemeAt_of_next (by rw [htoken]) (by rw [htoken]))
  · have hword := isPlainWord_of_isName hname
    exact ⟨fun pos after hafter => next_plainWord hword hafter,
      fun depth m pos stop source after hsource hend hstop =>
        import_read hword hown (rules depth) m hsource hend hstop,
      fun depth m pos stop after hafter hend hstop =>
        component_read hword hown depth m hafter hend hstop⟩

/-- Two segments, the first of which begins with a character whose upper case is two. -/
theorem deriveBinding_readsBack_sharp :
    deriveBinding "/ßeta/表" = .ok "SSeta表".toList ∧ ReadsBack "SSeta表" := by
  have h : deriveBinding "/ßeta/表" = .ok "SSeta表".toList := by decide +kernel
  exact ⟨h, (deriveBinding_readsBack_iff h).2.1.2 (by decide +kernel)⟩

/-- A superscript is a numeral, and a letter in a circle is a letter. Both are accepted, but the
first ends the word before it, and no token begins with the second. -/
theorem deriveBinding_accepts_stray :
    (deriveBinding "/a²" = .ok "A²".toList ∧ isName "A²" = false ∧
      (lexemeAt ⟨0, "A²"⟩).lexeme = .word "A" ∧ ¬ ReadsBack "A²") ∧
    deriveBinding "/ⓐ" = .ok "Ⓐ".toList ∧ isName "Ⓐ" = false ∧
      (lexemeAt ⟨0, "Ⓐ"⟩).lexeme = .fault 0 ∧ ¬ ReadsBack "Ⓐ" := by
  have hunread : ∀ (name : Text) (lexeme : Lexeme), (Token.next ⟨0, name ++ []⟩).lexeme = lexeme →
      lexeme ≠ .word name → ¬ ReadsBack name := by
    intro name lexeme hlexeme hne hread
    rw [hread.token 0 [] rfl] at hlexeme
    exact hne hlexeme.symm
  refine ⟨⟨by decide +kernel, by decide +kernel, by decide +kernel,
      hunread "A²" (.word "A") (by decide +kernel) (by decide +kernel)⟩,
    by decide +kernel, by decide +kernel, by decide +kernel,
    hunread "Ⓐ" (.fault 0) (by decide +kernel) (by decide +kernel)⟩

end RoutePages
