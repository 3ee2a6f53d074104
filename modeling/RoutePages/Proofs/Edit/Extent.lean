import RoutePages.Edit.Removal
import RoutePages.Proofs.Text.Split
import RoutePages.Text.Trim

/-!
# How far a removal reaches

A removal takes along either the blank start of the line, or the comma before the
range with the white space behind that comma, or nothing. Behind the range it takes
a comma between gaps, and with the whole line also a line comment and the line break.
-/
namespace RoutePages

namespace Place

/-- Skipping as many characters as a part has leads behind it. -/
theorem skip_append (pos : Nat) (s t : Text) :
    (⟨pos, s ++ t⟩ : Place).skip s.length = ⟨pos + Text.size s, t⟩ := by
  induction s generalizing pos with
  | nil => rfl
  | cons c s ih =>
    rw [List.cons_append, List.length_cons, skip, next]
    exact (ih _).trans (by rw [Text.size_cons, Nat.add_assoc])

theorem at?_iff {p : Place} {start : Text} : p.at? start = true ↔ ∃ t, p.rest = start ++ t := by
  rw [at?, List.isPrefixOf_iff_prefix, List.IsPrefix]
  simp only [eq_comm]

end Place

namespace Removal

theorem isGap_iff {c : Char} : isGap c = true ↔ c = ' ' ∨ c = '\t' := by simp [isGap]

theorem isBlank_of_isGap {c : Char} (h : isGap c = true) : Text.isBlank c = true := by
  rcases isGap_iff.1 h with rfl | rfl <;> decide

/-- A text begins with its gap. -/
theorem gap_split (s : Text) :
    ∃ lead t, s = lead ++ t ∧ (∀ c ∈ lead, isGap c = true) ∧ ∀ c ∈ t.head?, isGap c = false :=
  ⟨s.takeWhile isGap, s.dropWhile isGap, List.takeWhile_append_dropWhile.symm,
    fun c hc => List.all_eq_true.1 List.all_takeWhile c hc, Text.head_dropWhile _ _⟩

theorem gapLength_append {lead t : Text} (hlead : ∀ c ∈ lead, isGap c = true)
    (ht : ∀ c ∈ t.head?, isGap c = false) : gapLength (lead ++ t) = lead.length := by
  have hrest : t.takeWhile isGap = [] := by
    cases t with
    | nil => rfl
    | cons c t => exact List.takeWhile_cons_of_neg (by simp [ht c (by simp)])
  rw [gapLength, List.takeWhile_append_of_pos hlead, hrest, List.append_nil]

/-- A gap, and a comma with its gap where one follows. -/
inductive CommaBehind : (taken : Text) → (comma : Bool) → (rest : Text) → Prop
  | found {lead tail rest : Text} (hlead : ∀ c ∈ lead, isGap c = true)
      (htail : ∀ c ∈ tail, isGap c = true) (hrest : ∀ c ∈ rest.head?, isGap c = false) :
      CommaBehind (lead ++ ',' :: tail) true rest
  | missing {lead rest : Text} (hlead : ∀ c ∈ lead, isGap c = true)
      (hrest : ∀ c ∈ rest.head?, isGap c = false ∧ c ≠ ',') : CommaBehind lead false rest

theorem exists_commaBehind (s : Text) :
    ∃ taken comma rest, s = taken ++ rest ∧ CommaBehind taken comma rest := by
  obtain ⟨lead, t, rfl, hlead, ht⟩ := gap_split s
  cases t with
  | nil => exact ⟨lead, false, [], rfl, .missing hlead nofun⟩
  | cons c t =>
    by_cases hc : c = ','
    · subst hc
      obtain ⟨tail, rest, rfl, htail, hrest⟩ := gap_split t
      exact ⟨lead ++ ',' :: tail, true, rest, by simp, .found hlead htail hrest⟩
    · refine ⟨lead, false, c :: t, rfl, .missing hlead fun d hd => ⟨ht d hd, ?_⟩⟩
      cases Option.mem_some_iff.1 hd
      exact hc

theorem CommaBehind.afterComma {taken rest : Text} {comma : Bool}
    (h : CommaBehind taken comma rest) (pos : Nat) :
    afterComma ⟨pos, taken ++ rest⟩ = (comma, ⟨pos + Text.size taken, rest⟩) := by
  cases h with
  | @found lead tail rest hlead htail hrest =>
    have hsplit : lead ++ ',' :: tail ++ rest = lead ++ ',' :: (tail ++ rest) := by simp
    have hskip : (⟨pos, lead ++ ',' :: tail ++ rest⟩ : Place).skip
        (gapLength (lead ++ ',' :: tail ++ rest)) =
          ⟨pos + Text.size lead, ',' :: (tail ++ rest)⟩ := by
      rw [hsplit, gapLength_append hlead (by simp [isGap])]
      exact Place.skip_append _ _ _
    have hlast : (⟨pos + Text.size lead, ',' :: (tail ++ rest)⟩ : Place).skip
        (1 + gapLength (tail ++ rest)) =
          ⟨pos + Text.size lead + Text.size (',' :: tail), rest⟩ := by
      rw [gapLength_append htail hrest, Nat.add_comm 1]
      exact Place.skip_append _ (',' :: tail) rest
    simp only [Removal.afterComma, hskip, hlast, Text.size_append, Nat.add_assoc]
  | missing hlead hrest =>
    have hskip : (⟨pos, taken ++ rest⟩ : Place).skip (gapLength (taken ++ rest)) =
        ⟨pos + Text.size taken, rest⟩ := by
      rw [gapLength_append hlead fun c hc => (hrest c hc).1]
      exact Place.skip_append _ _ _
    simp only [Removal.afterComma, hskip]
    split
    · exact absurd rfl (hrest ',' (by simp)).2
    · rfl

theorem afterComma_spec (pos : Nat) (s : Text) :
    ∃ taken comma rest, s = taken ++ rest ∧ CommaBehind taken comma rest ∧
      afterComma ⟨pos, s⟩ = (comma, ⟨pos + Text.size taken, rest⟩) := by
  obtain ⟨taken, comma, rest, rfl, h⟩ := exists_commaBehind s
  exact ⟨taken, comma, rest, rfl, h, h.afterComma pos⟩

/-- Does a line end here, but for a line comment? -/
def endsLine (s : Text) : Bool :=
  s.startsWith "//" || s.isEmpty || s.startsWith "\n" || s.startsWith "\r\n"

/-- A line comment up to the end of its line, or nothing at the end of a line. -/
inductive LineRest : (taken rest : Text) → Prop
  | comment {text rest : Text} (hline : '\n' ∉ text) (hrest : ∀ c ∈ rest.head?, c = '\n') :
      LineRest ('/' :: '/' :: text) rest
  | nothing {rest : Text}
      (hrest : rest = [] ∨ (∃ t, rest = '\n' :: t) ∨ ∃ t, rest = '\r' :: '\n' :: t) :
      LineRest [] rest

theorem beforeBreak_split (s : Text) :
    ∃ t, s = Text.beforeBreak s ++ t ∧ '\n' ∉ Text.beforeBreak s ∧ ∀ c ∈ t.head?, c = '\n' := by
  refine ⟨s.dropWhile (· ≠ '\n'), List.takeWhile_append_dropWhile.symm, fun h => ?_, fun c hc => ?_⟩
  · simpa using List.all_eq_true.1 List.all_takeWhile _ h
  · simpa using Text.head_dropWhile _ _ c hc

theorem beforeBreak_append {line rest : Text} (hline : '\n' ∉ line)
    (hrest : ∀ c ∈ rest.head?, c = '\n') : Text.beforeBreak (line ++ rest) = line := by
  have hall : ∀ c ∈ line, decide (c ≠ '\n') = true := fun c hc =>
    decide_eq_true fun hfeed => hline (hfeed ▸ hc)
  have hnone : rest.takeWhile (· ≠ '\n') = [] := by
    cases rest with
    | nil => rfl
    | cons c rest => exact List.takeWhile_cons_of_neg (by simp [hrest c (by simp)])
  rw [Text.beforeBreak, List.takeWhile_append_of_pos hall, hnone, List.append_nil]

/-- The end of a line is found where it ends, and only there. -/
theorem lineEnd?_isSome (p : Place) : (lineEnd? p).isSome = endsLine p.rest := by
  unfold lineEnd? endsLine Text.startsWith Place.at?
  split
  · rename_i hcomment
    rw [hcomment]
    rfl
  · rename_i hcomment
    split
    · rename_i hend
      rw [Bool.eq_false_iff.2 hcomment, Bool.false_or, hend]
      rfl
    · rename_i hend
      rw [Bool.eq_false_iff.2 hcomment, Bool.false_or, Bool.eq_false_iff.2 hend]
      rfl

theorem LineRest.lineEnd? {taken rest : Text} (h : LineRest taken rest) (pos : Nat) :
    lineEnd? ⟨pos, taken ++ rest⟩ = some ⟨pos + Text.size taken, rest⟩ := by
  cases h with
  | @comment text _ hline hrest =>
    have hat : (⟨pos, '/' :: '/' :: text ++ rest⟩ : Place).at? "//" = true :=
      Place.at?_iff.2 ⟨text ++ rest, rfl⟩
    have hbreak : Text.beforeBreak ('/' :: '/' :: text ++ rest) = '/' :: '/' :: text :=
      beforeBreak_append (by simp [hline]) hrest
    rw [Removal.lineEnd?, if_pos hat]
    dsimp only
    rw [hbreak]
    exact congrArg some (Place.skip_append pos _ rest)
  | nothing hrest =>
    rw [List.nil_append]
    rcases hrest with rfl | ⟨t, rfl⟩ | ⟨t, rfl⟩
    · rfl
    · rfl
    · rfl

theorem exists_lineRest {s : Text} (h : endsLine s = true) :
    ∃ taken rest, s = taken ++ rest ∧ LineRest taken rest := by
  have hat : ∀ start : Text, start.isPrefixOf s = true → ∃ t, s = start ++ t := fun start hstart =>
    (List.isPrefixOf_iff_prefix.1 hstart).imp fun t ht => ht.symm
  unfold endsLine Text.startsWith at h
  rw [Bool.or_eq_true, Bool.or_eq_true, Bool.or_eq_true] at h
  rcases h with ((hcomment | hempty) | hfeed) | hreturn
  · obtain ⟨u, rfl⟩ := hat _ hcomment
    obtain ⟨t, ht, hline, hhead⟩ := beforeBreak_split u
    exact ⟨'/' :: '/' :: Text.beforeBreak u, t, congrArg ('/' :: '/' :: ·) ht,
      .comment hline hhead⟩
  · exact ⟨[], s, rfl, .nothing (.inl (List.isEmpty_iff.1 hempty))⟩
  · exact ⟨[], s, rfl, .nothing (.inr (.inl (hat _ hfeed)))⟩
  · exact ⟨[], s, rfl, .nothing (.inr (.inr (hat _ hreturn)))⟩

theorem lineEnd?_spec {pos : Nat} {s : Text} {stop : Place} (h : lineEnd? ⟨pos, s⟩ = some stop) :
    ∃ taken rest, s = taken ++ rest ∧ LineRest taken rest ∧
      stop = ⟨pos + Text.size taken, rest⟩ := by
  have hends : endsLine s = true := by
    rw [← lineEnd?_isSome ⟨pos, s⟩, h]
    rfl
  obtain ⟨taken, rest, rfl, hline⟩ := exists_lineRest hends
  exact ⟨taken, rest, rfl, hline, Option.some.inj (h.symm.trans (hline.lineEnd? pos))⟩

/-- The characters that end a line, or none. -/
def IsBreak (s : Text) : Prop := s = [] ∨ s = ['\n'] ∨ s = ['\r', '\n']

theorem LineRest.exists_break {taken s : Text} (h : LineRest taken s) :
    ∃ brk rest, s = brk ++ rest ∧ IsBreak brk ∧ (brk = [] → rest = []) := by
  have hfeed : ∀ t : Text, s = '\n' :: t →
      ∃ brk rest, s = brk ++ rest ∧ IsBreak brk ∧ (brk = [] → rest = []) :=
    fun t hs => ⟨['\n'], t, hs, .inr (.inl rfl), nofun⟩
  have hnone : s = [] → ∃ brk rest, s = brk ++ rest ∧ IsBreak brk ∧ (brk = [] → rest = []) :=
    fun hs => ⟨[], [], hs, .inl rfl, fun _ => rfl⟩
  cases h with
  | comment _ hrest =>
    cases s with
    | nil => exact hnone rfl
    | cons c t =>
      cases hrest c rfl
      exact hfeed t rfl
  | nothing hrest =>
    rcases hrest with hs | ⟨t, hs⟩ | ⟨t, hs⟩
    · exact hnone hs
    · exact hfeed t hs
    · exact ⟨['\r', '\n'], t, hs, .inr (.inr rfl), nofun⟩

theorem IsBreak.afterBreak {brk rest : Text} (h : IsBreak brk) (hend : brk = [] → rest = [])
    (pos : Nat) : afterBreak ⟨pos, brk ++ rest⟩ = ⟨pos + Text.size brk, rest⟩ := by
  rcases h with rfl | rfl | rfl
  · cases hend rfl
    rfl
  · exact Place.skip_append pos ['\n'] rest
  · exact Place.skip_append pos ['\r', '\n'] rest

theorem lastLine_split (s : Text) :
    ∃ t, s = t ++ Text.lastLine s ∧ '\n' ∉ Text.lastLine s ∧ ∀ c ∈ t.getLast?, c = '\n' := by
  refine ⟨(s.reverse.dropWhile (· ≠ '\n')).reverse, ?_, fun h => ?_, fun c hc => ?_⟩
  · rw [Text.lastLine, ← List.reverse_append, List.takeWhile_append_dropWhile,
      List.reverse_reverse]
  · simpa using List.all_eq_true.1 List.all_takeWhile _ (List.mem_reverse.1 h)
  · rw [List.getLast?_reverse] at hc
    simpa using Text.head_dropWhile _ _ c hc

theorem lastLine_append {before line : Text} (hline : '\n' ∉ line)
    (hbefore : ∀ c ∈ before.getLast?, c = '\n') : Text.lastLine (before ++ line) = line := by
  have hhead : ∀ c ∈ before.reverse.head?, c = '\n' := by
    rwa [List.head?_reverse]
  have hbreak := beforeBreak_append (mt List.mem_reverse.1 hline) hhead
  unfold Text.beforeBreak at hbreak
  rw [Text.lastLine, List.reverse_append, hbreak, List.reverse_reverse]

theorem trimEnd_append_blank {s blank : Text} (hblank : ∀ c ∈ blank, Text.isBlank c = true)
    (hs : ∀ c ∈ s.getLast?, Text.isBlank c = false) : Text.trimEnd (s ++ blank) = s := by
  have hall : ∀ c ∈ blank.reverse, Text.isBlank c = true := fun c hc =>
    hblank c (List.mem_reverse.1 hc)
  rw [Text.trimEnd, List.reverse_append, List.dropWhile_append_of_pos hall,
    Text.dropWhile_of_head _ _ (by rwa [List.head?_reverse]), List.reverse_reverse]

/-- Does what stands between two texts have its line to itself? -/
def ownsLine (before after : Text) : Bool := before.lastLine.all Text.isBlank && endsLine after

/-- What a removal takes along: `left` before the range, with `kept` before that, and `right`
behind it, with `rest` behind that. -/
inductive Extent (kept : Text) : (left right rest : Text) → Prop
  /-- the blank start of the line, and what is left of the line -/
  | line {left taken comment brk rest : Text} {comma : Bool}
      (hblank : ∀ c ∈ left, Text.isBlank c = true) (hline : '\n' ∉ left)
      (hkept : ∀ c ∈ kept.getLast?, c = '\n')
      (hcomma : CommaBehind taken comma (comment ++ (brk ++ rest)))
      (hcomment : LineRest comment (brk ++ rest)) (hbreak : IsBreak brk)
      (hend : brk = [] → rest = []) :
      Extent kept left (taken ++ comment ++ brk) rest
  /-- the comma behind the range -/
  | behind {taken rest : Text} (hcomma : CommaBehind taken true rest)
      (hshared : ownsLine kept rest = false) : Extent kept [] taken rest
  /-- the comma before the range, since none follows -/
  | before {blank lead rest : Text} (hblank : ∀ c ∈ blank, Text.isBlank c = true)
      (hcomma : CommaBehind lead false rest)
      (hshared : ownsLine (kept ++ ',' :: blank) rest = false) :
      Extent kept (',' :: blank) [] (lead ++ rest)
  /-- no comma, since none stands on either side -/
  | nothing {lead rest : Text} (hcomma : CommaBehind lead false rest)
      (hkept : (Text.trimEnd kept).getLast? ≠ some ',') (hshared : ownsLine kept rest = false) :
      Extent kept [] [] (lead ++ rest)

/-- Some extent is found around each range. -/
theorem exists_extent (before after : Text) :
    ∃ kept left right rest, before = kept ++ left ∧ after = right ++ rest ∧
      Extent kept left right rest := by
  obtain ⟨taken, comma, rest, rfl, hcomma⟩ := exists_commaBehind after
  cases howns : ownsLine before rest with
  | true =>
    obtain ⟨hblank, hends⟩ := Bool.and_eq_true_iff.1 howns
    obtain ⟨head, hhead, hline, hbreak⟩ := lastLine_split before
    obtain ⟨comment, rest', rfl, hcomment⟩ := exists_lineRest hends
    obtain ⟨brk, rest'', rfl, hbrk, hend⟩ := hcomment.exists_break
    refine ⟨head, Text.lastLine before, taken ++ comment ++ brk, rest'', hhead, by simp, ?_⟩
    exact .line (fun c hc => List.all_eq_true.1 hblank c hc) hline hbreak hcomma hcomment hbrk hend
  | false =>
    cases comma with
    | true => exact ⟨before, [], taken, rest, by simp, rfl, .behind hcomma howns⟩
    | false =>
      obtain ⟨blank, hkept, hblank, -⟩ := Text.trimEnd_split before
      by_cases hlast : (Text.trimEnd before).getLast? = some ','
      · obtain ⟨kept, hcut⟩ := List.getLast?_eq_some_iff.1 hlast
        have hbefore : before = kept ++ ',' :: blank := by
          rw [hkept, hcut, List.append_assoc, List.singleton_append]
        subst hbefore
        exact ⟨kept, ',' :: blank, [], taken ++ rest, rfl, rfl, .before hblank hcomma howns⟩
      · exact ⟨before, [], [], taken ++ rest, by simp, rfl, .nothing hcomma hlast howns⟩

/-- A range that shares its line takes along a comma at most. -/
theorem rangeBetween_shared {before taken rest : Text} {comma : Bool} {s : Span}
    (hcomma : CommaBehind taken comma rest) (hshared : ownsLine before rest = false) :
    rangeBetween before s ⟨s.stop, taken ++ rest⟩ =
      if comma then ⟨s.start, s.stop + Text.size taken⟩
      else if (Text.trimEnd before).getLast? = some ',' then
        ⟨Text.size (Text.trimEnd before) - 1, s.stop⟩ else s := by
  unfold rangeBetween
  rw [hcomma.afterComma]
  dsimp only
  split
  · rename_i stop hblank hstop
    have hends := lineEnd?_isSome ⟨s.stop + Text.size taken, rest⟩
    rw [hstop] at hends
    rw [ownsLine, hblank, ← hends] at hshared
    cases hshared
  · rfl

/-- The range of a removal is the range itself with what it takes along. -/
theorem Extent.range {kept left right rest : Text} (h : Extent kept left right rest) (mid : Text)
    {s : Span} (hstart : Text.size (kept ++ left) = s.start)
    (hstop : s.stop = s.start + Text.size mid) :
    range (kept ++ left ++ mid ++ (right ++ rest)) s =
      ⟨Text.size kept, s.stop + Text.size right⟩ := by
  have htake : Text.take? s.start (kept ++ left ++ mid ++ (right ++ rest)) =
      some (kept ++ left) := by
    rw [← hstart, List.append_assoc]
    exact Text.take?_append _ _
  have hdrop : Text.drop? s.stop (kept ++ left ++ mid ++ (right ++ rest)) =
      some (right ++ rest) := by
    rw [hstop, ← hstart, ← Text.size_append]
    exact Text.drop?_append _ _
  rw [Removal.range, htake, hdrop]
  change rangeBetween (kept ++ left) s ⟨s.stop, right ++ rest⟩ = _
  cases h with
  | @line _ taken comment brk _ _ hblank hline hkept hcomma hcomment hbreak hend =>
    have hlast : Text.lastLine (kept ++ left) = left := lastLine_append hline hkept
    have hall : left.all Text.isBlank = true := List.all_eq_true.2 hblank
    have hright : taken ++ comment ++ brk ++ rest = taken ++ (comment ++ (brk ++ rest)) := by simp
    rw [hright, rangeBetween, hcomma.afterComma]
    dsimp only
    rw [hlast, hall, hcomment.lineEnd?]
    dsimp only
    rw [hbreak.afterBreak hend]
    rw [Text.size_append] at hstart
    simp only [Text.size_append, Span.mk.injEq]
    omega
  | behind hcomma hshared =>
    rw [List.append_nil] at hstart ⊢
    rw [rangeBetween_shared hcomma hshared, if_pos rfl, hstart]
  | @before blank lead rest hblank hcomma hshared =>
    have hcut : Text.trimEnd (kept ++ ',' :: blank) = kept ++ [','] := by
      rw [← List.singleton_append, ← List.append_assoc]
      exact trimEnd_append_blank hblank (by simp; decide)
    have hsize : Text.size (kept ++ [',']) = Text.size kept + 1 := Text.size_append _ _
    rw [List.nil_append, rangeBetween_shared hcomma hshared, hcut, if_neg Bool.false_ne_true,
      if_pos (by simp), hsize]
    rfl
  | nothing hcomma hkept hshared =>
    rw [List.append_nil] at hstart ⊢
    rw [List.nil_append, rangeBetween_shared hcomma hshared, if_neg Bool.false_ne_true,
      if_neg hkept, hstart]
    rfl

theorem range_extent (before mid after : Text) {s : Span} (hstart : Text.size before = s.start)
    (hstop : s.stop = s.start + Text.size mid) :
    ∃ kept left right rest, before = kept ++ left ∧ after = right ++ rest ∧
      Extent kept left right rest ∧
      range (before ++ mid ++ after) s = ⟨Text.size kept, s.stop + Text.size right⟩ := by
  obtain ⟨kept, left, right, rest, rfl, rfl, h⟩ := exists_extent before after
  exact ⟨kept, left, right, rest, rfl, rfl, h, h.range mid hstart hstop⟩

/-! ### Ranges as they mostly stand -/

section Written

variable {kept rest : Text}

/-- A range on a line of its own goes with the comma behind it and the line. -/
theorem Extent.ownLine {indent brk : Text} (hindent : indent.all isGap = true)
    (hkept : kept.getLast? = some '\n') (hbreak : brk = ['\n'] ∨ brk = ['\r', '\n']) :
    Extent kept indent (',' :: brk) rest := by
  have hgaps : ∀ c ∈ indent, isGap c = true := List.all_eq_true.1 hindent
  have hline : '\n' ∉ indent := fun hmem => absurd (hgaps _ hmem) (by decide)
  have hfeed : ∀ c ∈ kept.getLast?, c = '\n' := by
    intro c hc
    exact (Option.some.inj (hkept.symm.trans hc)).symm
  have hrest : LineRest [] (brk ++ rest) := by
    rcases hbreak with rfl | rfl
    · exact .nothing (.inr (.inl ⟨rest, rfl⟩))
    · exact .nothing (.inr (.inr ⟨rest, rfl⟩))
  have hgap : ∀ c ∈ (brk ++ rest).head?, isGap c = false := by
    intro c hc
    rcases hbreak with rfl | rfl <;> cases hc <;> rfl
  have hcomma : CommaBehind ([] ++ [',']) true ([] ++ (brk ++ rest)) := .found nofun nofun hgap
  have hne : brk ≠ [] := by
    rcases hbreak with rfl | rfl <;> nofun
  exact .line (fun c hc => isBlank_of_isGap (hgaps c hc)) hline hfeed hcomma hrest (.inr hbreak)
    (absurd · hne)

/-- A range before others on its line goes with the comma behind it. -/
theorem Extent.comma {tail : Text} (htail : tail.all isGap = true)
    (hrest : rest.head?.all (fun c => !isGap c) = true) (hshared : ownsLine kept rest = false) :
    Extent kept [] (',' :: tail) rest := by
  have hhead : ∀ c ∈ rest.head?, isGap c = false := by simpa [Option.all_eq_true] using hrest
  have hcomma : CommaBehind ([] ++ ',' :: tail) true rest :=
    .found nofun (List.all_eq_true.1 htail) hhead
  exact .behind hcomma hshared

/-- A range behind the others on its line goes with the comma before it. -/
theorem Extent.last {blank lead : Text} (hblank : blank.all Text.isBlank = true)
    (hlead : lead.all isGap = true) (hrest : rest.head?.all (fun c => !isGap c && c != ',') = true)
    (hshared : ownsLine (kept ++ ',' :: blank) rest = false) :
    Extent kept (',' :: blank) [] (lead ++ rest) := by
  have hhead : ∀ c ∈ rest.head?, isGap c = false ∧ c ≠ ',' := by
    simpa [Option.all_eq_true] using hrest
  exact .before (List.all_eq_true.1 hblank) (.missing (List.all_eq_true.1 hlead) hhead) hshared

end Written

end Removal
end RoutePages
