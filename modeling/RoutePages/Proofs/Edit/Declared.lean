import RoutePages.Proofs.Edit.Imports
import RoutePages.Proofs.Edit.Stale
import RoutePages.Proofs.Page.ImportLines
import RoutePages.Proofs.Route.Boundary

/-!
# Which imports a rewritten file declares

Where the line of the last import closes all that is begun on it or above it, the rewritten file has
the items that stood above, then the imports that were added, if it can be read.
-/
namespace RoutePages

open Script

/-! ## Where edits lie -/

theorem RouteTable.IsWellNested.marks_between {t : RouteTable} (h : t.IsWellNested) :
    ∀ s ∈ Entry.allMarks t.entries, s.Between t.arraySpan.start t.arraySpan.stop := by
  intro s hs
  rw [Entry.allMarks_eq] at hs
  obtain ⟨e, he, hs⟩ := List.mem_flatMap.1 hs
  have hentry := h.entries.between e.span (List.mem_map_of_mem he)
  exact ((h.below e he).marks.1 s hs).mono hentry.start hentry.stop

namespace Removal

/-- The text of a directive starts with a character that ends no line. -/
theorem exists_of_beginsWithKey {source : Text} {s : Span} {d : Directive}
    (h : beginsWithKey ((source.slice? s.start s.stop).getD []) d.key = true) :
    s.start < s.stop ∧ ∃ before c after, source = before ++ c :: after ∧
      Text.size before = s.start ∧ c ≠ '\n' ∧ c ≠ '\r' := by
  refine ⟨(fits_of_beginsWithKey h).2, ?_⟩
  have hbreak : ∀ c, c = '\n' ∨ c = '\r' → ∀ found,
      beginsWithKey (c :: found) d.key = false := by
    rintro c (rfl | rfl) found
    · cases d <;> rfl
    · cases d <;> rfl
  cases hs : source.slice? s.start s.stop with
  | none =>
    rw [hs, Option.getD_none, beginsWithKey_nil] at h
    cases h
  | some found =>
    rw [hs, Option.getD_some] at h
    obtain ⟨before, after, rfl, hbefore, -⟩ := Text.slice?_eq_some.1 hs
    cases found with
    | nil =>
      rw [beginsWithKey_nil] at h
      cases h
    | cons c found =>
      refine ⟨before, c, found ++ after, by simp, hbefore, fun hc => ?_, fun hc => ?_⟩
      · rw [hbreak c (.inl hc)] at h
        cases h
      · rw [hbreak c (.inr hc)] at h
        cases h

/-- What a removal takes along before its range: blanks, and a comma before them if they reach over
a line feed. -/
inductive IsLead : Text → Prop
  | nothing : IsLead []
  | more {c : Char} {blank : Text} (hline : c = ',' ∨ '\n' ∉ c :: blank)
      (hblank : ∀ d ∈ blank, Text.isBlank d = true) : IsLead (c :: blank)

theorem Extent.isLead {kept left right rest : Text} (h : Extent kept left right rest) :
    IsLead left := by
  cases h with
  | line hblank hline _ _ _ _ _ =>
    cases left with
    | nil => exact .nothing
    | cons c left => exact .more (.inr hline) fun d hd => hblank d (List.mem_cons_of_mem _ hd)
  | behind _ _ => exact .nothing
  | before hblank _ _ => exact .more (.inl rfl) hblank
  | nothing _ _ _ => exact .nothing

end Removal

namespace Rewrite

variable {dialect : Dialect} {source pagesAlias : Text} {t : RouteTable} {plans : List PagePlan}

/-- The rest of a text at the end of a line begins with the end, if there is a rest. -/
theorem AtLineEnd.beginsWithBreak {rest : Text} (h : AtLineEnd rest) (hne : rest ≠ []) :
    BeginsWithBreak rest := by
  rcases h with rfl | rfl | ⟨s, rfl⟩ | ⟨s, rfl⟩
  · exact absurd rfl hne
  · exact ⟨'\r', rfl, .inr rfl⟩
  · exact ⟨'\n', rfl, .inl rfl⟩
  · exact ⟨'\r', rfl, .inr rfl⟩

/-- A character that ends no line, behind others among which there is no line feed. -/
theorem not_atLineEnd {left : Text} (hleft : '\n' ∉ left) {c : Char} (hfeed : c ≠ '\n')
    (hreturn : c ≠ '\r') (s : Text) : ¬ AtLineEnd (left ++ c :: s) := by
  rintro (h | h | ⟨rest, h⟩ | ⟨rest, h⟩)
  · simp at h
  · cases left with
    | nil =>
      cases h
      exact hreturn rfl
    | cons d left => simp at h
  · cases left with
    | nil =>
      cases h
      exact hfeed rfl
    | cons d left =>
      cases h
      exact hleft List.mem_cons_self
  · cases left with
    | nil =>
      cases h
      exact hreturn rfl
    | cons d left =>
      cases left with
      | nil =>
        cases h
        exact hfeed rfl
      | cons e left =>
        cases h
        exact hleft (List.mem_cons_of_mem _ List.mem_cons_self)

/-- The edit stops inside the route array and does not start at the end of a line. -/
structure IsInArray (source : Text) (t : RouteTable) (e : Edit) : Prop where
  stop : t.arraySpan.start < e.span.stop
  start : ∀ above below, source = above ++ below → Text.size above = e.span.start →
    ¬ AtLineEnd below

/-- What is planned and removed stands in the route array. -/
theorem planned_between (h : IsPlanned dialect source pagesAlias t plans) :
    (∀ plan ∈ plans, plan.componentSpan.Between t.arraySpan.start t.arraySpan.stop) ∧
      ∀ directives ∈ directivesOf t.entries, ∀ d ∈ directives,
        d.span.Between t.arraySpan.start t.arraySpan.stop := by
  have hmarks := (allPlans_marks _ _ _ (planPages_eq_ok.1 h.plan).1).subset
  have hinside := (parseTable_nested h.read).marks_between
  refine ⟨fun plan hplan => hinside _ (hmarks ?_), fun directives hdirectives d hd =>
    hinside _ (hmarks ?_)⟩
  · exact List.mem_append_left _ (List.mem_map_of_mem hplan)
  · exact List.mem_append_right _
      (List.mem_map_of_mem (List.mem_flatten.2 ⟨directives, hdirectives, hd⟩))

theorem componentEdit_inArray {plan : PagePlan} {e : Edit}
    (hspan : plan.componentSpan.Between t.arraySpan.start t.arraySpan.stop)
    (h : componentEdit source plan = .ok e) : IsInArray source t e := by
  obtain ⟨rfl, hquotes⟩ := componentEdit_eq_ok.1 h
  obtain ⟨quote, body, hquote, hslice⟩ := isQuoted_iff.1 hquotes
  obtain ⟨before, after, rfl, hbefore, hstop⟩ := Text.slice?_eq_some.1 hslice
  have hpos := quote.utf8Size_pos
  have hstart := hspan.start
  rw [Text.size_cons] at hstop
  refine ⟨by dsimp only; omega, fun above below hcut hsize => ?_⟩
  rw [List.append_assoc] at hcut
  obtain ⟨rfl, rfl⟩ := Text.split_unique hcut.symm (hsize.trans hbefore.symm)
  refine not_atLineEnd List.not_mem_nil ?_ ?_ _
  · rintro rfl
    cases hquote
  · rintro rfl
    cases hquote

/-- Where a removal lies: its directives begin at `c`, inside the route array. -/
structure IsRemoval (source : Text) (t : RouteTable) (e : Edit) (kept left : Text) (c : Char)
    (behind : Text) : Prop where
  split : source = kept ++ (left ++ c :: behind)
  start : Text.size kept = e.span.start
  lead : Removal.IsLead left
  inside : t.arraySpan.start ≤ Text.size (kept ++ left)
  stop : t.arraySpan.start < e.span.stop
  noBreak : c ≠ '\n' ∧ c ≠ '\r'

theorem removal_lies {directives : List DirectiveSpan} {es : List Edit} {e : Edit}
    (hspans : ∀ d ∈ directives, d.span.Between t.arraySpan.start t.arraySpan.stop)
    (h : Removal.edits source directives = .ok es) (he : e ∈ es) :
    ∃ kept left c behind, IsRemoval source t e kept left c behind := by
  obtain ⟨cuts, rfl, hmembers, hjoined, hkeys⟩ := Removal.edits_joined h
  obtain ⟨x, hx, rfl⟩ := List.mem_map.1 he
  have hmember : ∀ s ∈ x.members, t.arraySpan.start ≤ s.start ∧ s.start < s.stop ∧
      ∃ before c after, source = before ++ c :: after ∧ Text.size before = s.start ∧
        c ≠ '\n' ∧ c ≠ '\r' := by
    intro s hs
    have hspan := hmembers.mem_iff.1 (List.mem_flatMap.2 ⟨x, hx, hs⟩)
    obtain ⟨d, hd, rfl⟩ := List.mem_map.1 hspan
    obtain ⟨hlt, hhead⟩ := Removal.exists_of_beginsWithKey (hkeys d hd)
    exact ⟨(hspans d hd).start, hlt, hhead⟩
  obtain ⟨first, hfirst, hstart⟩ := Option.map_eq_some_iff.1 (hjoined x hx).first
  obtain ⟨last, hlast, hstop⟩ := Option.map_eq_some_iff.1 (hjoined x hx).last
  obtain ⟨hinside, -, front, c, behind, hc, hfront, hbreak⟩ :=
    hmember first (List.mem_of_mem_head? hfirst)
  obtain ⟨hlow, hlt, -⟩ := hmember last (List.mem_of_getLast? hlast)
  obtain ⟨before, mid, after, hsplit, hbefore, hmid⟩ := Edit.fits_split (hjoined x hx).fits
  obtain ⟨kept, left, right, rest, rfl, rfl, hextent, hrange⟩ :=
    Removal.range_extent before mid after hbefore hmid
  rw [← hsplit] at hrange
  have hsame : Text.size front = Text.size (kept ++ left) := by omega
  rw [List.append_assoc] at hsplit
  obtain ⟨rfl, -⟩ := Text.split_unique (hc.symm.trans hsplit) hsame
  refine ⟨kept, left, c, behind, by rw [hc, List.append_assoc], by rw [hrange], hextent.isLead,
    by omega, ?_, hbreak⟩
  rw [hrange]
  dsimp only
  omega

theorem IsRemoval.inArray {e : Edit} {kept left behind : Text} {c : Char}
    (h : IsRemoval source t e kept left c behind) : IsInArray source t e := by
  refine ⟨h.stop, fun above below hcut hsize => ?_⟩
  have hwhole : above ++ below = kept ++ (left ++ c :: behind) := hcut.symm.trans h.split
  obtain ⟨rfl, rfl⟩ := Text.split_unique hwhole (hsize.trans h.start.symm)
  obtain ⟨hfeed, hreturn⟩ := h.noBreak
  cases h.lead with
  | nothing => exact not_atLineEnd List.not_mem_nil hfeed hreturn _
  | more hline _ =>
    rcases hline with rfl | hline
    · exact not_atLineEnd List.not_mem_nil (by decide) (by decide) _
    · exact not_atLineEnd hline hfeed hreturn _

/-- A removal does not reach up over the text in which the route array is declared. -/
theorem IsRemoval.behind {e : Edit} {kept left after : Text} {c : Char}
    (h : IsRemoval source t e kept left c after) {above middle rest : Text}
    (hsource : source = above ++ (middle ++ rest))
    (harray : t.arraySpan.start = Text.size (above ++ middle))
    (hmiddle : ∃ d ∈ middle, Text.isBlank d = false) : Text.size above ≤ e.span.start := by
  by_contra hover
  have hsplit := h.split.symm.trans hsource
  have hinside := h.inside
  have hstart := h.start
  obtain ⟨d, hd, hblank⟩ := hmiddle
  obtain ⟨m, rfl, hm⟩ := Text.split_of_size_le hsplit (by omega)
  cases h.lead with
  | nothing =>
    simp only [Text.size_append, List.append_nil] at hinside harray hover
    omega
  | @more first blank _ hblanks =>
    cases m with
    | nil =>
      rw [List.append_nil] at hover
      omega
    | cons x m =>
      obtain ⟨rfl, hbehind⟩ := List.cons.inj hm
      replace hbehind : blank ++ c :: after = (m ++ middle) ++ rest := by
        rw [List.append_assoc]
        exact hbehind
      have hle : Text.size (m ++ middle) ≤ Text.size blank := by
        simp only [Text.size_append, Text.size] at hinside harray ⊢
        omega
      obtain ⟨tail, rfl, -⟩ := Text.split_of_size_le hbehind.symm hle
      have hmem : d ∈ m ++ middle ++ tail :=
        List.mem_append_left _ (List.mem_append_right _ hd)
      rw [hblanks d hmem] at hblank
      cases hblank

theorem IsOwnEdit.inArray (h : IsPlanned dialect source pagesAlias t plans) {e : Edit}
    (he : IsOwnEdit source t plans e) : IsInArray source t e := by
  obtain ⟨hplans, hdirectives⟩ := planned_between h
  cases he with
  | component hplan hedit => exact componentEdit_inArray (hplans _ hplan) hedit
  | removal hmem hedits he =>
    obtain ⟨kept, left, c, behind, hlies⟩ := removal_lies (hdirectives _ hmem) hedits he
    exact hlies.inArray

/-- No edit reaches up over the text in which the route array is declared. -/
theorem IsOwnEdit.behind (h : IsPlanned dialect source pagesAlias t plans) {e : Edit}
    (he : IsOwnEdit source t plans e) {above middle rest : Text}
    (hsource : source = above ++ (middle ++ rest))
    (harray : t.arraySpan.start = Text.size (above ++ middle))
    (hmiddle : ∃ d ∈ middle, Text.isBlank d = false) : Text.size above ≤ e.span.start := by
  obtain ⟨hplans, hdirectives⟩ := planned_between h
  cases he with
  | component hplan hedit =>
    have hstart := (hplans _ hplan).start
    rw [(componentEdit_eq_ok.1 hedit).1]
    rw [harray, Text.size_append] at hstart
    dsimp only
    omega
  | removal hmem hedits he =>
    obtain ⟨kept, left, c, behind, hlies⟩ := removal_lies (hdirectives _ hmem) hedits he
    exact hlies.behind hsource harray hmiddle

end Rewrite

namespace Edit.Replaced

variable {pos : Nat} {s out : Text} {edits : List Edit}

/-- A text in which no edit stops is kept. -/
theorem eq_of_beyond (h : Replaced pos s edits out)
    (hbeyond : ∀ e ∈ edits, pos + Text.size s < e.span.stop) : out = s := by
  cases h with
  | keep => rfl
  | @edit _ e _ kept cut rest _ hstart hstop hmore =>
    have hstops := hbeyond e List.mem_cons_self
    simp only [Text.size_append] at hstops
    omega

/-- A text at whose start no edit starts begins as it did. -/
theorem beginsWithBreak (h : Replaced pos s edits out) (hstart : ∀ e ∈ edits, e.span.start ≠ pos)
    (hs : BeginsWithBreak s) : BeginsWithBreak out := by
  cases h with
  | keep => exact hs
  | @edit _ e _ kept cut rest _ hkept hstop hmore =>
    have hne : kept ≠ [] := by
      rintro rfl
      exact hstart e List.mem_cons_self hkept
    obtain ⟨c, kept, rfl⟩ := List.exists_cons_of_ne_nil hne
    obtain ⟨d, hd, hbreak⟩ := hs
    exact ⟨d, hd, hbreak⟩

/-- A text above all edits is kept. -/
theorem cut {above below : Text} (h : Replaced pos (above ++ below) edits out)
    (hstart : ∀ e ∈ edits, pos + Text.size above ≤ e.span.start) :
    ∃ after, out = above ++ after ∧ Replaced (pos + Text.size above) below edits after := by
  generalize hs : above ++ below = s at h
  cases h with
  | keep =>
    subst hs
    exact ⟨below, rfl, .keep _ _⟩
  | @edit _ e more kept cut rest after hkept hstop hmore =>
    have hle := hstart e List.mem_cons_self
    rw [List.append_assoc] at hs
    obtain ⟨between, rfl, rfl⟩ := Text.split_of_size_le hs (by omega)
    refine ⟨between ++ e.replacement ++ after, by simp, ?_⟩
    rw [← List.append_assoc]
    refine .edit ?_ hstop hmore
    rw [hkept, Text.size_append]
    omega

end Edit.Replaced

/-! ## The rewritten file -/

namespace Rewrite

variable {dialect : Dialect} {source pagesAlias : Text} {t : RouteTable} {plans : List PagePlan}
  {r : Rewrite}

theorem lineBreak_cases (source : Text) : lineBreak source = "\n" ∨ lineBreak source = "\r\n" := by
  unfold lineBreak
  split
  · exact .inr rfl
  · exact .inl rfl

theorem flatMap_behind (line : Text) (lines : List Text) (brk : Text) :
    (line :: lines).flatMap (· ++ brk) = line ++ (lines.flatMap (brk ++ ·) ++ brk) := by
  induction lines generalizing line with
  | nil => simp
  | cons next lines ih =>
    rw [List.flatMap_cons, ih, List.flatMap_cons]
    simp only [List.append_assoc]

/-- The lines down to that of the last import are closed: they are whole items, which hold all
imports, and the route array is declared on the lines below. -/
structure IsClosedAbove (dialect : Dialect) (source : Text) (t : RouteTable)
    (items : List ModuleItem) (above middle rest : Text) : Prop where
  split : source = above ++ (middle ++ rest)
  anchor : t.importAnchor = some (Text.size above)
  closed : IsClosed dialect.hasMarkup above items
  imports : Part.allImports (items.flatMap ModuleItem.parts) = t.imports.map Import.bare
  array : t.arraySpan.start = Text.size (above ++ middle)
  middle : ∃ c ∈ middle, Text.isBlank c = false

/-- What stands down to the line of the last import is closed. Without an import nothing does. -/
inductive AnchorCloses (dialect : Dialect) (source : Text) (t : RouteTable) :
    List ModuleItem → Prop
  | atTop (hnone : t.imports = []) : AnchorCloses dialect source t []
  | behindLast {items : List ModuleItem} {above middle rest : Text}
      (h : IsClosedAbove dialect source t items above middle rest) :
      AnchorCloses dialect source t items

section Above

variable {items : List ModuleItem} {above middle rest : Text}

theorem IsClosedAbove.atLineEnd (habove : IsClosedAbove dialect source t items above middle rest)
    (h : parseTable dialect source = .ok t) :
    AtLineEnd (middle ++ rest) ∧ BeginsWithBreak (middle ++ rest) := by
  obtain ⟨above', below, hsource, hplace, hanchor⟩ := parseTable_isPlace h
  have hsome := habove.anchor
  rcases hanchor with ⟨hnone, -, -⟩ | ⟨hanchor, himports⟩
  · cases hnone.symm.trans hsome
  · obtain ⟨rfl, rfl⟩ := Text.split_unique (habove.split.symm.trans hsource)
      (Option.some.inj (hsome.symm.trans hanchor))
    have hend : AtLineEnd (middle ++ rest) := by
      cases hplace with
      | behindLast _ _ hend _ => exact hend
      | atTop hnone => exact absurd hnone himports
    refine ⟨hend, hend.beginsWithBreak ?_⟩
    obtain ⟨c, hc, -⟩ := habove.middle
    exact List.append_ne_nil_of_left_ne_nil (List.ne_nil_of_mem hc) _

/-- Where no line is added, the text above is kept, and the text below it begins as it did. -/
theorem IsClosedAbove.kept (h : IsPlanned dialect source pagesAlias t plans)
    (habove : IsClosedAbove dialect source t items above middle rest)
    (hr : rewrite source t plans pagesAlias = .ok r) (hadded : r.importsAdded = []) :
    ∃ after, BeginsWithBreak after ∧ r.text = above ++ after := by
  obtain ⟨components, removals, hcomponents, hremovals, -, happly⟩ := rewrite_stages hr
  obtain ⟨sorted, hperm, -, -, hreplaced⟩ := Edit.applyAll_replaced happly
  rw [hadded, show importEdits source t.importAnchor [] = [] from rfl, List.append_nil] at hperm
  have hown : ∀ e ∈ sorted, IsOwnEdit source t plans e := fun e he =>
    isOwnEdit_of_mem hcomponents hremovals (hperm.mem_iff.1 he)
  obtain ⟨hend, hbreak⟩ := habove.atLineEnd h.read
  rw [habove.split] at hreplaced
  obtain ⟨after, htext, hafter⟩ := hreplaced.cut fun e he => by
    rw [Nat.zero_add]
    exact (hown e he).behind h habove.split habove.array habove.middle
  rw [Nat.zero_add] at hafter
  refine ⟨after, hafter.beginsWithBreak (fun e he hstart => ?_) hbreak, htext⟩
  exact ((hown e he).inArray h).start _ _ habove.split hstart.symm hend

/-- The rewritten text is the text above, which is kept, then the lines that are added, and a text
that begins as it did. -/
theorem IsClosedAbove.text (h : IsPlanned dialect source pagesAlias t plans)
    (habove : IsClosedAbove dialect source t items above middle rest)
    (hr : rewrite source t plans pagesAlias = .ok r) :
    ∃ after, BeginsWithBreak after ∧ r.text = above ++
      ((unimported t [] plans).flatMap (lineBreak source ++ importLine pagesAlias ·) ++ after) := by
  have hlines := rewrite_importsAdded hr
  by_cases hadded : r.importsAdded = []
  · obtain ⟨after, hafter, htext⟩ := habove.kept h hr hadded
    rw [List.map_eq_nil_iff.1 (hlines.symm.trans hadded)]
    exact ⟨after, hafter, htext⟩
  · obtain ⟨above', below, before, after, edits, others, hcut⟩ :=
      rewrite_cutAtLines h.read hr hadded
    have hplace : t.imports.isEmpty = false ∧ Text.size above = Text.size above' := by
      rcases hcut.anchor with ⟨hnone, -, -⟩ | ⟨hsome, hne⟩
      · cases hnone.symm.trans habove.anchor
      · exact ⟨by simpa using hne, Option.some.inj (habove.anchor.symm.trans hsome)⟩
    obtain ⟨himports, hsize⟩ := hplace
    obtain ⟨rfl, rfl⟩ := Text.split_unique (habove.split.symm.trans hcut.split) hsize
    obtain ⟨hend, hbreak⟩ := habove.atLineEnd h.read
    have harray := habove.array
    rw [Text.size_append] at harray
    have hinside : ∀ e ∈ edits ++ others, IsInArray source t e := fun e he =>
      (hcut.own e he).inArray h
    have hbefore : before = above := hcut.replacedAbove.eq_of_beyond fun e he => by
      have hstop := (hinside e (List.mem_append_left _ he)).stop
      omega
    refine ⟨after, hcut.replacedBelow.beginsWithBreak (fun e he hstart => ?_) hbreak, ?_⟩
    · exact (hinside e (List.mem_append_right _ he)).start _ _ hcut.split hstart.symm hend
    · rw [hcut.text, hbefore, addedBlock, himports, if_neg Bool.false_ne_true, hlines,
        List.flatMap_map, List.append_assoc]

end Above

/-- A text that begins as an unmarked one, down to the end of a line, is read as it is. -/
theorem withoutMark_of_above {above below after : Text} (hmark : isMarked (above ++ below) = false)
    (hafter : BeginsWithBreak after) : withoutMark (above ++ after) = above ++ after := by
  apply withoutMark_of_unmarked
  cases above with
  | nil =>
    obtain ⟨c, t, rfl, rfl | rfl⟩ := hafter.exists_cons
    · rfl
    · rfl
  | cons c above => exact hmark

/-- A line break stands at the start of lines that are added. -/
theorem beginsWithBreak_lines {brk after : Text} (hbrk : brk = "\n" ∨ brk = "\r\n")
    (hafter : BeginsWithBreak after) (added : List PagePlan) :
    BeginsWithBreak (added.flatMap (brk ++ importLine pagesAlias ·) ++ after) := by
  cases added with
  | nil => exact hafter
  | cons plan more =>
    rw [List.flatMap_cons, List.append_assoc, List.append_assoc]
    exact beginsWithBreak_of_lineBreak hbrk _

/-- The lines for the pages of plans that are made can be written. -/
theorem isImportable_unimported (h : IsPlanned dialect source pagesAlias t plans)
    (halias : isPlainBetween '\'' pagesAlias = true) :
    ∀ p ∈ unimported t [] plans, IsImportable pagesAlias p := by
  intro p hp
  obtain ⟨_, hof⟩ := exists_isPlanOf (planPages_eq_ok.1 h.plan).1
    ((unimported_sublist [] plans).subset hp)
  exact hof.isImportable halias

theorem depthFor_eq (s : Text) : depthFor s = 4 * s.length + 15 + 1 := rfl

/-- Where a closed text stands above, the items begin with its own, and then there are the imports
that were added. -/
theorem items_behindLast {above brk after : Text} {markup : Bool} {items : List ModuleItem}
    (hclosed : IsClosed markup above items) (hbrk : brk = "\n" ∨ brk = "\r\n")
    (hafter : BeginsWithBreak after) {added : List PagePlan}
    (hadded : ∀ p ∈ added, IsImportable pagesAlias p) {all : List (List Part)}
    (hread : parseItems markup
      (above ++ (added.flatMap (brk ++ importLine pagesAlias ·) ++ after)) = .ok all) :
    ∃ rest, IsModule markup (above ++ (added.flatMap (brk ++ importLine pagesAlias ·) ++ after))
      (items ++ added.map (ModuleItem.ofPage pagesAlias) ++ rest) := by
  cases added with
  | nil =>
    obtain ⟨fuel, c, d, _, hreads, -, hloop⟩ := hclosed.loop hafter hread
    obtain ⟨rest, hmore, hdone⟩ := reads_of_loop hloop
    exact ⟨rest, d, by simpa using hreads.append hmore, hdone⟩
  | cons plan more =>
    have hlines : (plan :: more).flatMap (brk ++ importLine pagesAlias ·) ++ after =
        brk ++ ("import" ++ (importTail pagesAlias plan ++
          (more.flatMap (brk ++ importLine pagesAlias ·) ++ after))) := by
      rw [List.flatMap_cons, importLine_eq]
      simp only [List.append_assoc]
    rw [hlines] at hread ⊢
    have hbelow := beginsWithBreak_of_lineBreak hbrk ("import" ++ (importTail pagesAlias plan ++
      (more.flatMap (brk ++ importLine pagesAlias ·) ++ after)))
    obtain ⟨fuel, c, d, _, hreads, htoken, hloop⟩ := hclosed.loop hbelow hread
    have hnext := next_importLine hbrk pagesAlias plan
      (more.flatMap (brk ++ importLine pagesAlias ·) ++ after) (Text.size above)
    replace htoken := (htoken (by rw [hnext]; rfl)).trans hnext
    rw [depthFor_eq] at hloop hreads
    obtain ⟨_, fuel', e, hmore, hbehind⟩ := importLines_read hbrk hadded
      (.inr hafter) (by rw [htoken]) (by rw [htoken]) hloop
    obtain ⟨rest, hrest, hdone⟩ := reads_of_loop hbehind
    exact ⟨rest, d, (hreads.append hmore).append hrest, hdone⟩

/-- Where lines stand at the top, the items begin with the imports that were added. -/
theorem items_atTop {brk after : Text} {markup : Bool} (hbrk : brk = "\n" ∨ brk = "\r\n")
    {plan : PagePlan} {more : List PagePlan}
    (hadded : ∀ p ∈ plan :: more, IsImportable pagesAlias p) {all : List (List Part)}
    (hread : parseItems markup
      ((plan :: more).flatMap (importLine pagesAlias · ++ brk) ++ after) = .ok all) :
    ∃ rest, IsModule markup ((plan :: more).flatMap (importLine pagesAlias · ++ brk) ++ after)
      ((plan :: more).map (ModuleItem.ofPage pagesAlias) ++ rest) := by
  have hlines : (plan :: more).flatMap (importLine pagesAlias · ++ brk) ++ after =
      "import" ++ (importTail pagesAlias plan ++
        (more.flatMap (brk ++ importLine pagesAlias ·) ++ (brk ++ after))) := by
    have hblock := flatMap_behind (importLine pagesAlias plan) (more.map (importLine pagesAlias)) brk
    rw [← List.map_cons (f := importLine pagesAlias), List.flatMap_map, List.flatMap_map] at hblock
    rw [hblock, importLine_eq]
    simp only [List.append_assoc]
  rw [hlines] at hread ⊢
  obtain ⟨d, hloop⟩ := parseItems_loop hread
  have hstart : ∀ tail, runsOn tail = false → (Cursor.start ("import" ++ tail)).token =
      ⟨.word "import", ⟨0, "import" ++ tail⟩, ⟨0 + Text.size "import", tail⟩, false, none⟩ :=
    fun tail htail => next_plainWord (w := "import") (by decide) htail
  have htoken := hstart (importTail pagesAlias plan ++
    (more.flatMap (brk ++ importLine pagesAlias ·) ++ (brk ++ after))) rfl
  rw [depthFor_eq] at hloop
  obtain ⟨_, fuel, e, hreads, hbehind⟩ := importLines_read hbrk hadded
    (.inr (beginsWithBreak_of_lineBreak hbrk after)) (by rw [htoken]) (by rw [htoken]) hloop
  obtain ⟨rest, hmore, hdone⟩ := reads_of_loop hbehind
  exact ⟨rest, d, hreads.append hmore, hdone⟩

/-- Where nothing is imported, the lines that are added stand at the top. -/
theorem text_atTop (h : IsPlanned dialect source pagesAlias t plans)
    (hr : rewrite source t plans pagesAlias = .ok r) (hnone : t.imports = [])
    (hadded : unimported t [] plans ≠ []) :
    ∃ after, r.text =
      (unimported t [] plans).flatMap (importLine pagesAlias · ++ lineBreak source) ++ after := by
  have hlines := rewrite_importsAdded hr
  have hne : r.importsAdded ≠ [] := fun hnil =>
    hadded (List.map_eq_nil_iff.1 (hlines.symm.trans hnil))
  obtain ⟨above, below, before, after, edits, others, hcut⟩ := rewrite_cutAtLines h.read hr hne
  have habove : above = [] := by
    rcases hcut.anchor with ⟨-, -, habove⟩ | ⟨-, hsome⟩
    · exact habove
    · exact absurd hnone hsome
  subst habove
  have hbefore : before = [] := hcut.replacedAbove.eq_of_beyond fun e he => by
    have hstop := ((hcut.own e (List.mem_append_left _ he)).inArray h).stop
    rw [Text.size]
    omega
  refine ⟨after, ?_⟩
  rw [hcut.text, hbefore, addedBlock, hnone, List.isEmpty_nil, if_pos rfl, hlines, List.flatMap_map,
    List.nil_append]

/-- The items of the rewritten text begin with those that stood above and the imports that were
added. -/
theorem rewrite_items (h : IsPlanned dialect source pagesAlias t plans)
    (hr : rewrite source t plans pagesAlias = .ok r) (hmark : isMarked source = false)
    (halias : isPlainBetween '\'' pagesAlias = true) {items : List ModuleItem}
    (hcloses : AnchorCloses dialect source t items) {all : List (List Part)}
    (hread : parseItems dialect.hasMarkup (withoutMark r.text) = .ok all) :
    ∃ rest, IsModule dialect.hasMarkup (withoutMark r.text)
      (items ++ (unimported t [] plans).map (ModuleItem.ofPage pagesAlias) ++ rest) := by
  have himportable := isImportable_unimported h halias
  have hbrk := lineBreak_cases source
  cases hcloses with
  | atTop hnone =>
    by_cases hadded : unimported t [] plans = []
    · obtain ⟨rest, hmodule⟩ := isModule_of_parseItems hread
      rw [hadded]
      exact ⟨rest, hmodule⟩
    · obtain ⟨after, htext⟩ := text_atTop h hr hnone hadded
      obtain ⟨plan, more, hcons⟩ := List.exists_cons_of_ne_nil hadded
      rw [hcons] at htext himportable ⊢
      have hunmarked : withoutMark r.text = r.text := by
        rw [htext, List.flatMap_cons, importLine_eq]
        rfl
      rw [hunmarked, htext] at hread ⊢
      exact items_atTop hbrk himportable hread
  | behindLast habove =>
    obtain ⟨after, hafter, htext⟩ := habove.text h hr
    have hunmarked : withoutMark r.text = r.text := by
      rw [habove.split] at hmark
      rw [htext]
      exact withoutMark_of_above hmark (beginsWithBreak_lines hbrk hafter _)
    rw [hunmarked, htext] at hread ⊢
    exact items_behindLast habove.closed hbrk hafter himportable hread

theorem allImports_ofPage (plans : List PagePlan) :
    Part.allImports ((plans.map (ModuleItem.ofPage pagesAlias)).flatMap ModuleItem.parts) =
      plans.map (Import.ofPage pagesAlias) := by
  induction plans with
  | nil => rfl
  | cons plan plans ih =>
    rw [List.map_cons, List.flatMap_cons, allImports_append, ih]
    rfl

/-- The lexemes from a place on. -/
def lexemesFrom : Nat → Place → List Lexeme
  | 0, _ => []
  | n + 1, p =>
    if (Token.next p).isDone then []
    else (Token.next p).lexeme :: lexemesFrom n (Token.next p).stop

/-- The import is one of the items, and none of its words marks types. -/
structure IsValueImport (source : Text) (items : List ModuleItem) (i : Import) : Prop where
  top : ∃ second, ⟨.word "import", second, [i.part.bare]⟩ ∈ items
  values : .word "type" ∉ lexemesFrom source.length
    ⟨0, (source.slice? i.span.start i.span.stop).getD []⟩

/-- A rewritten file declares its imports: the items that stood above, then a default import of each
page that was added, and behind them the rest. -/
structure DeclaresPages (dialect : Dialect) (source : Text) (t : RouteTable) (plans : List PagePlan)
    (pagesAlias : Text) (r : Rewrite) (added : List PagePlan) (items rest : List ModuleItem) :
    Prop where
  module : IsModule dialect.hasMarkup (withoutMark r.text)
    (items ++ added.map (ModuleItem.ofPage pagesAlias) ++ rest)
  /-- down to the line of the last import the text is kept -/
  kept : ∀ n, t.importAnchor = some n → r.text.take? n = source.take? n
  /-- all imports of the source are there, and those that were added follow them -/
  imports : Part.allImports
    ((items ++ added.map (ModuleItem.ofPage pagesAlias)).flatMap ModuleItem.parts) =
      t.imports.map Import.bare ++ added.map (Import.ofPage pagesAlias)
  /-- each page is imported at the top, by one of its own or by an import of the source -/
  bound : ∀ plan ∈ plans,
    (∃ first ∈ added, first.identifier = plan.identifier ∧ first.page = plan.page) ∨
    ∃ i ∈ t.imports, plan.identifier ∈ i.locals ∧ i.source = plan.page.importSource pagesAlias ∧
      IsValueImport source items i

/-- Every page that a rewritten file names is imported, if the file can be read: where the line of
the last import closes what is begun above, and the imports that bind identifiers of pages stand at
the top, the imports of the source are kept and those that were added follow them. -/
theorem rewrite_declaresPages (h : IsPlanned dialect source pagesAlias t plans)
    (hr : rewrite source t plans pagesAlias = .ok r) (hmark : isMarked source = false)
    (halias : isPlainBetween '\'' pagesAlias = true) {items : List ModuleItem}
    (hcloses : AnchorCloses dialect source t items)
    (htop : ∀ plan ∈ plans, ∀ i, t.importOf? plan.identifier = some i →
      IsValueImport source items i)
    {parts : List Part} (hread : readModule dialect r.text = .ok parts) :
    ∃ added rest, ImportsPages source t plans pagesAlias r added ∧
      DeclaresPages dialect source t plans pagesAlias r added items rest := by
  rw [readModule_eq_ok] at hread
  obtain ⟨all, hall, rfl⟩ := map_eq_ok.1 hread
  obtain ⟨rest, hmodule⟩ := rewrite_items h hr hmark halias hcloses hall
  have himports : Part.allImports (items.flatMap ModuleItem.parts) = t.imports.map Import.bare := by
    cases hcloses with
    | atTop hnone => rw [hnone]; rfl
    | behindLast habove => exact habove.imports
  have hkept : ∀ n, t.importAnchor = some n → r.text.take? n = source.take? n := by
    intro n hn
    cases hcloses with
    | atTop hnone =>
      obtain ⟨_, _, -, -, ⟨hnone', -, -⟩ | ⟨-, hsome⟩⟩ := parseTable_isPlace h.read
      · cases hnone'.symm.trans hn
      · exact absurd hnone hsome
    | behindLast habove =>
      obtain ⟨after, -, htext⟩ := habove.text h hr
      cases habove.anchor.symm.trans hn
      rw [htext, habove.split, Text.take?_append, Text.take?_append]
  refine ⟨_, rest, rewrite_importsPages h hr, hmodule, hkept, ?_, fun plan hplan => ?_⟩
  · rw [List.flatMap_append, allImports_append, himports, allImports_ofPage]
  obtain ⟨hagree, hpages⟩ := planPages_agree h.plan
  rcases unimported_or_imported hpages hagree hplan with
    ⟨first, hfirst, hsame, hpage⟩ | ⟨i, hfound, hsource⟩
  · exact .inl ⟨first, hfirst, hsame, hpage⟩
  · have hcontains : i.locals.contains plan.identifier = true :=
      @List.find?_some _ (fun i : Import => i.locals.contains plan.identifier) _ _ hfound
    exact .inr ⟨i, List.mem_of_find?_eq_some hfound, List.contains_iff_mem.1 hcontains, hsource,
      htop plan hplan i hfound⟩

/-- Names of another module are exported above the last import, which binds the identifier of one of
the two pages. -/
theorem rewrite_declaresPages_behind :
    let above : Text := "export * from './x'\nimport Kept from '@/pages/kept'"
    let middle : Text := "\nconst r: R[]="
    let rest : Text := "[\x7bname:'k',component:'/kept'\x7d,\x7bname:'a',component:'/a'\x7d]"
    let source : Text := above ++ (middle ++ rest)
    let text : Text := "export * from './x'\nimport Kept from '@/pages/kept'\n" ++
      "import A from '@/pages/a'\nconst r: R[]=[\x7bname:'k',component:Kept\x7d,\x7bname:'a',component:A\x7d]"
    let r : Rewrite := ⟨text, ["import A from '@/pages/a'"], true⟩
    let items : List ModuleItem := [⟨.word "export", .sign "*", []⟩,
      ⟨.word "import", .word "Kept", [.imports ["Kept"] "@/pages/kept" nowhere]⟩]
    ∃ t plans parts added behind, IsPlanned .ts source "@/pages" t plans ∧
      rewrite source t plans "@/pages" = .ok r ∧ isMarked source = false ∧
      isPlainBetween '\'' "@/pages" = true ∧ AnchorCloses .ts source t items ∧
      (∀ plan ∈ plans, ∀ i, t.importOf? plan.identifier = some i → IsValueImport source items i) ∧
      readModule .ts r.text = .ok parts ∧ ImportsPages source t plans "@/pages" r added ∧
      DeclaresPages .ts source t plans "@/pages" r added items behind := by
  intro above middle rest source text r items
  let kept : Import := ⟨["Kept"], "@/pages/kept", ⟨20, 51⟩⟩
  have hcheck : holdsOfPlanned .ts source "@/pages" (fun t plans => decide
      (rewrite source t plans "@/pages" = .ok r ∧ t.importAnchor = some (Text.size above) ∧
        t.imports = [kept] ∧ t.arraySpan.start = Text.size (above ++ middle))) = true := by
    decide +kernel
  obtain ⟨t, plans, hplanned, hfound⟩ := exists_of_holdsOfPlanned hcheck
  obtain ⟨hr, hanchor, himports, harray⟩ := of_decide_eq_true hfound
  have hmark : isMarked source = false := by decide
  have halias : isPlainBetween '\'' "@/pages" = true := by decide
  have hexport : IsClosed Dialect.ts.hasMarkup ("export * from '" ++ "./x" ++ "'")
      [⟨.word "export", .sign "*", []⟩] := isClosed_exportStar (by decide)
  have himport : IsClosed Dialect.ts.hasMarkup ("export * from '" ++ "./x" ++ "'" ++ "\n" ++
      ("import " ++ "Kept" ++ " from '" ++ "@/pages/kept" ++ "'")) items :=
    hexport.default (.inl rfl) (by decide) (by decide) (by decide)
  have habove : above = "export * from '" ++ "./x" ++ "'" ++ "\n" ++
      ("import " ++ "Kept" ++ " from '" ++ "@/pages/kept" ++ "'") := by decide
  have hcloses : AnchorCloses .ts source t items :=
    .behindLast ⟨rfl, hanchor, habove ▸ himport, by rw [himports]; rfl, harray, 'c', by decide,
      by decide⟩
  have htop : ∀ plan ∈ plans, ∀ i, t.importOf? plan.identifier = some i →
      IsValueImport source items i := by
    intro plan _ i hi
    have hmem := List.mem_of_find?_eq_some hi
    rw [himports, List.mem_singleton] at hmem
    subst hmem
    exact ⟨⟨.word "Kept", List.mem_cons_of_mem _ List.mem_cons_self⟩, by decide +kernel⟩
  obtain ⟨parts, hread⟩ : ∃ parts, readModule .ts r.text = .ok parts := by
    have hsome : (readModule .ts r.text).toOption.isSome = true := by decide +kernel
    obtain ⟨parts, hparts⟩ := Option.isSome_iff_exists.1 hsome
    exact ⟨parts, toOption_eq_some.1 hparts⟩
  obtain ⟨added, behind, hpages, hdeclares⟩ :=
    rewrite_declaresPages hplanned hr hmark halias hcloses htop hread
  exact ⟨t, plans, parts, added, behind, hplanned, hr, hmark, halias, hcloses, htop, hread, hpages,
    hdeclares⟩

/-- The local names of the imports that a text is read with. -/
def importedNames? (dialect : Dialect) (source : Text) : Option (List Text) :=
  (parseTable dialect source).toOption.map fun t => t.imports.flatMap Import.locals

/-- A line that is added where the line of the last import ends inside a comment imports nothing,
and none is added where an import of types alone binds the identifier. -/
theorem rewrite_imports_nothing :
    (let source : Text := "import b from 'b' /*\n*/\nconst r: R[]=[\x7bname:'a',component:'/a'\x7d]"
      let text : Text := "import b from 'b' /*\nimport A from '@/pages/a'\n*/\n" ++
        "const r: R[]=[\x7bname:'a',component:A\x7d]"
      outcome? .ts source "@/pages" = some (.ok ⟨text, ["import A from '@/pages/a'"], true⟩) ∧
        importedNames? .ts text = some [("b" : Text)]) ∧
    (let source : Text := "import type A from '@/pages/a'\nconst r: R[]=[\x7bname:'a',component:'/a'\x7d]"
      let text : Text := "import type A from '@/pages/a'\nconst r: R[]=[\x7bname:'a',component:A\x7d]"
      outcome? .ts source "@/pages" = some (.ok ⟨text, [], true⟩)) := by
  refine ⟨⟨?_, ?_⟩, ?_⟩ <;> decide +kernel

end Rewrite
end RoutePages
