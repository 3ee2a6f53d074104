import RoutePages.Proofs.Edit.Imports
import RoutePages.Proofs.Edit.Stale
import RoutePages.Proofs.Page.Identifiers
import RoutePages.Proofs.Page.Lineage
import RoutePages.Proofs.Text.LineEnds

/-!
# A rewrite keeps the line ends

A range that is replaced starts and stops at the ends of lines or at characters that end none, so
it takes a carriage return and the line feed behind it together or not at all. What is put in has
no line ends but that of the source.
-/
namespace RoutePages

/-- Neither end of the span lies between a carriage return and a line feed. -/
structure Span.KeepsPairs (source : Text) (s : Span) : Prop where
  start : source.splitsPair s.start = false
  stop : source.splitsPair s.stop = false

/-! ## Texts with ranges replaced -/

namespace Edit

/-- Where no edit cuts a pair or brings in the half of one, the pairs of a text stay pairs. -/
theorem Replaced.isPaired {pos : Nat} {s out : Text} {edits : List Edit}
    (h : Replaced pos s edits out) (before : Text) (hpos : Text.size before = pos)
    (hs : s.IsPaired) (hspans : ∀ e ∈ edits, e.span.KeepsPairs (before ++ s))
    (hreplacements : ∀ e ∈ edits, e.replacement.IsPaired) : out.IsPaired := by
  induction h generalizing before with
  | keep => exact hs
  | @edit pos e edits kept cut rest out hstart hstop more ih =>
    obtain ⟨he, hmore⟩ := List.forall_mem_cons.1 hspans
    obtain ⟨hreplacement, hothers⟩ := List.forall_mem_cons.1 hreplacements
    have hkept : kept.IsPaired := by
      have hcut := he.start
      rw [hstart, ← hpos, List.append_assoc] at hcut
      rw [List.append_assoc] at hs
      exact (hs.cut_at hcut).1
    have hrest : rest.IsPaired := by
      have hcut := he.stop
      rw [hstop, hstart, ← hpos, Nat.add_assoc, ← Text.size_append] at hcut
      exact (hs.cut_at hcut).2
    have hbehind : before ++ (kept ++ cut ++ rest) = (before ++ kept ++ cut) ++ rest := by simp
    rw [hbehind] at hmore
    have hsize : Text.size (before ++ kept ++ cut) = e.span.stop := by
      rw [Text.size_append, Text.size_append]
      omega
    exact (hkept.append hreplacement).append (ih _ hsize hrest hmore hothers)

/-- A character that is in no replacement does not come in. -/
theorem Replaced.not_mem {pos : Nat} {s out : Text} {edits : List Edit} {c : Char}
    (h : Replaced pos s edits out) (hs : c ∉ s) (hreplacements : ∀ e ∈ edits, c ∉ e.replacement) :
    c ∉ out := by
  induction h with
  | keep => exact hs
  | edit _ _ _ ih =>
    obtain ⟨hreplacement, hothers⟩ := List.forall_mem_cons.1 hreplacements
    simp only [List.mem_append, not_or] at hs ⊢
    exact ⟨⟨hs.1.1, hreplacement⟩, ih hs.2 hothers⟩

end Edit

/-! ## Where ranges end -/

namespace Removal

variable {source kept left right rest : Text}

theorem CommaBehind.no_return {taken : Text} {comma : Bool} (h : CommaBehind taken comma rest) :
    '\r' ∉ taken := by
  have hgap : ∀ {s : Text}, (∀ c ∈ s, isGap c = true) → '\r' ∉ s := by
    intro s hs hmem
    exact absurd (hs _ hmem) (by decide)
  cases h with
  | found hlead htail _ =>
    intro hmem
    rcases List.mem_append.1 hmem with hmem | hmem
    · exact hgap hlead hmem
    · rcases List.mem_cons.1 hmem with hcomma | hmem
      · exact absurd hcomma (by decide)
      · exact hgap htail hmem
  | missing hlead _ => exact hgap hlead

/-- What a removal takes along before its range starts a line or with a comma. -/
theorem Extent.not_splitsPair_start (h : Extent kept left right rest) (hleft : left ≠ [])
    (s : Text) : Text.splitsPair (kept ++ (left ++ s)) (Text.size kept) = false := by
  cases h with
  | line _ _ hkept _ _ _ _ =>
    apply Text.not_splitsPair_of_getLast?
    intro hreturn
    exact absurd (hkept _ hreturn) (by decide)
  | behind _ _ => exact absurd rfl hleft
  | before _ _ _ => exact Text.not_splitsPair_of_head? _ (by simp)
  | nothing _ _ _ => exact absurd rfl hleft

/-- What a removal takes along behind its range stops at the end of a line, or of a comma with its
gap. -/
theorem Extent.not_splitsPair_stop (h : Extent kept left right rest) (hright : right ≠ [])
    (s : Text) : Text.splitsPair (s ++ right ++ rest) (Text.size (s ++ right)) = false := by
  cases h with
  | line _ _ _ _ _ hbreak hend =>
    rcases hbreak with rfl | rfl | rfl
    · exact Text.not_splitsPair_of_head? _ (by rw [hend rfl]; nofun)
    · exact Text.not_splitsPair_of_getLast? _ (by simp)
    · exact Text.not_splitsPair_of_getLast? _ (by simp)
  | behind hcomma _ =>
    apply Text.not_splitsPair_of_getLast?
    intro hreturn
    rw [List.getLast?_append_of_ne_nil _ hright] at hreturn
    exact hcomma.no_return (List.mem_of_getLast? hreturn)
  | before _ _ _ => exact absurd rfl hright
  | nothing _ _ _ => exact absurd rfl hright

/-- Where a range cuts no pair, neither does the range of its removal. -/
theorem range_keepsPairs {s : Span} (hfits : Edit.fits source s = true)
    (h : s.KeepsPairs source) : (range source s).KeepsPairs source := by
  obtain ⟨before, mid, after, rfl, hbefore, hmid⟩ := Edit.fits_split hfits
  obtain ⟨kept, left, right, rest, rfl, rfl, hextent, hrange⟩ :=
    range_extent before mid after hbefore hmid
  rw [hrange]
  constructor
  · by_cases hleft : left = []
    · subst hleft
      rw [List.append_nil] at hbefore
      dsimp only
      rw [hbefore]
      exact h.start
    · have hstart := hextent.not_splitsPair_start hleft (mid ++ (right ++ rest))
      simpa using hstart
  · by_cases hright : right = []
    · subst hright
      exact h.stop
    · have hstop := hextent.not_splitsPair_stop hright (kept ++ left ++ mid)
      have hsize : Text.size (kept ++ left ++ mid ++ right) = s.stop + Text.size right := by
        rw [Text.size_append, Text.size_append, hbefore, hmid]
      rw [hsize] at hstop
      simpa using hstop

theorem beginsWithKey_break (d : Directive) (s : Text) :
    beginsWithKey ('\n' :: s) d.key = false := by
  cases d <;> rfl

/-- A directive starts with its key. -/
theorem not_splitsPair_of_beginsWithKey {s : Span} {d : Directive}
    (h : beginsWithKey ((source.slice? s.start s.stop).getD []) d.key = true) :
    source.splitsPair s.start = false := by
  cases hs : source.slice? s.start s.stop with
  | none =>
    rw [hs, Option.getD_none, beginsWithKey_nil] at h
    cases h
  | some found =>
    rw [hs, Option.getD_some] at h
    cases found with
    | nil =>
      rw [beginsWithKey_nil] at h
      cases h
    | cons c found =>
      have hc : c ≠ '\n' := by
        intro hc
        rw [hc, beginsWithKey_break] at h
        cases h
      exact Text.not_splitsPair_start hs hc

/-- The directives of an entry are removed without cutting a pair, if none of them stops in one. -/
theorem edits_keepsPairs {directives : List DirectiveSpan} {es : List Edit}
    (h : edits source directives = .ok es)
    (hstops : ∀ d ∈ directives, source.splitsPair d.span.stop = false) :
    ∀ e ∈ es, e.span.KeepsPairs source ∧ e.replacement = [] := by
  obtain ⟨cuts, rfl, hmembers, hjoined, hkeys⟩ := edits_joined h
  intro e he
  obtain ⟨x, hx, rfl⟩ := List.mem_map.1 he
  have hmember : ∀ s ∈ x.members, s.KeepsPairs source := by
    intro s hs
    have hspan := hmembers.mem_iff.1 (List.mem_flatMap.2 ⟨x, hx, hs⟩)
    obtain ⟨d, hd, rfl⟩ := List.mem_map.1 hspan
    exact ⟨not_splitsPair_of_beginsWithKey (hkeys d hd), hstops d hd⟩
  have hcut : x.span.KeepsPairs source := by
    obtain ⟨first, hfirst, hstart⟩ := Option.map_eq_some_iff.1 (hjoined x hx).first
    obtain ⟨last, hlast, hstop⟩ := Option.map_eq_some_iff.1 (hjoined x hx).last
    constructor
    · rw [← hstart]
      exact (hmember first (List.mem_of_mem_head? hfirst)).start
    · rw [← hstop]
      exact (hmember last (List.mem_of_getLast? hlast)).stop
  exact ⟨range_keepsPairs (hjoined x hx).fits hcut, rfl⟩

end Removal

/-- Imports are added before or behind both characters that end a line. -/
theorem parseTable_anchor_not_splitsPair {dialect : Dialect} {source : Text} {t : RouteTable}
    (h : parseTable dialect source = .ok t) {n : Nat} (hn : t.importAnchor = some n) :
    source.splitsPair n = false := by
  obtain ⟨_, _, -, -, -, -, -, hanchor, -⟩ := parseTable_stages h
  rw [hn] at hanchor
  unfold importAnchor at hanchor
  split at hanchor
  · cases hanchor
  · obtain ⟨_, hline, h⟩ := map_eq_ok.1 hanchor
    cases h
    obtain ⟨before, line, after, rfl, -, -, -, ⟨hlast, rfl⟩ | ⟨kept, hcut, rfl⟩⟩ :=
      lineEnd_spec hline
    · exact Text.not_splitsPair_of_getLast? _ hlast
    · rw [hcut, List.append_assoc]
      exact Text.not_splitsPair_of_head? _ (by simp)

/-! ## What is put in -/

theorem isUnbroken_of_isIdentifier {name : Text} (h : isIdentifier name = true) :
    name.IsUnbroken := by
  constructor
  · intro hreturn
    exact absurd (isIdentifier_spec h hreturn) (by decide)
  · intro hfeed
    exact absurd (isIdentifier_spec h hfeed) (by decide)

/-- A page that an identifier is made from has no line ends. -/
theorem PagePath.isUnbroken_toText {p : PagePath} {identifier : Text}
    (h : deriveBinding p.toText = .ok identifier) : p.toText.IsUnbroken := by
  have hreturn := not_mem_of_deriveBinding h (c := '\r') (by decide) (by decide)
  have hfeed := not_mem_of_deriveBinding h (c := '\n') (by decide) (by decide)
  constructor
  · simpa [toText] using hreturn
  · simpa [toText] using hfeed

namespace Rewrite

variable {source pagesAlias : Text}

/-- What is written for a plan has no line ends. -/
structure IsUnbroken (pagesAlias : Text) (plan : PagePlan) : Prop where
  identifier : plan.identifier.IsUnbroken
  importLine : (importLine pagesAlias plan).IsUnbroken

theorem isUnbroken_of_planned {t : RouteTable} {b : Bindings} {planAlias : Text}
    {plans : List PagePlan} (h : planPages t b planAlias = .ok plans)
    (halias : pagesAlias.IsUnbroken) : ∀ plan ∈ plans, IsUnbroken pagesAlias plan := by
  intro plan hplan
  obtain ⟨_, hof⟩ := exists_isPlanOf (planPages_eq_ok.1 h).1 hplan
  have hidentifier := isUnbroken_of_isIdentifier (deriveBinding_eq_ok hof.identifier).2
  have hpage := PagePath.isUnbroken_toText hof.identifier
  have htrimmed : (PagePath.trimAlias pagesAlias).IsUnbroken := by
    obtain ⟨_, hcut, -⟩ := Text.dropEndWhile_split pagesAlias (· = '/')
    exact halias.mono fun c hc => hcut ▸ List.mem_append_left _ hc
  have himport : Text.IsUnbroken "import " := by decide
  have hfrom : Text.IsUnbroken " from '" := by decide
  have hquote : Text.IsUnbroken "'" := by decide
  refine ⟨hidentifier, ?_⟩
  exact (((himport.append hidentifier).append hfrom).append (htrimmed.append hpage)).append hquote

/-- A component is replaced with its quotes. -/
theorem componentEdit_keepsPairs {plan : PagePlan} {e : Edit}
    (h : componentEdit source plan = .ok e) : e.span.KeepsPairs source := by
  obtain ⟨rfl, hquotes⟩ := componentEdit_eq_ok.1 h
  obtain ⟨quote, body, hquote, hslice⟩ := isQuoted_iff.1 hquotes
  constructor
  · refine Text.not_splitsPair_start hslice ?_
    rintro rfl
    cases hquote
  · have hlast : (quote :: body ++ [quote]).getLast? = some quote := List.getLast?_concat
    refine Text.not_splitsPair_stop hslice hlast ?_
    rintro rfl
    cases hquote

theorem Inserts.keepsPairs {anchor : Option Nat} {lines : List Text} {inserted : List Edit}
    (h : Inserts source anchor lines inserted)
    (hanchor : ∀ n, anchor = some n → source.splitsPair n = false)
    (hlines : ∀ line ∈ lines, line.IsUnbroken) :
    ∀ e ∈ inserted,
      e.span.KeepsPairs source ∧ Text.BreaksWith (lineBreak source) e.replacement := by
  intro e he
  cases h with
  | nothing => cases he
  | atAnchor pos hne =>
    cases List.mem_singleton.1 he
    refine ⟨⟨hanchor pos rfl, hanchor pos rfl⟩, .flatMap fun line hline => ?_⟩
    exact .append .stop (.unbroken (hlines line hline))
  | atStart hne =>
    cases List.mem_singleton.1 he
    refine ⟨⟨Text.not_splitsPair_zero _, Text.not_splitsPair_zero _⟩, .flatMap fun line hline => ?_⟩
    exact .append (.unbroken (hlines line hline)) .stop

/-- The edits of a rewrite cut no pair and put in no line ends but that of the source. -/
theorem rewrite_keepsPairs {dialect : Dialect} {t : RouteTable} {b : Bindings} {planAlias : Text}
    {plans : List PagePlan} {r : Rewrite} (ht : parseTable dialect source = .ok t)
    (hplans : planPages t b planAlias = .ok plans) (halias : pagesAlias.IsUnbroken)
    (hstops : ∀ d ∈ (directivesOf t.entries).flatten, source.splitsPair d.span.stop = false)
    (hr : rewrite source t plans pagesAlias = .ok r) :
    ∃ edits, Edit.Replaced 0 source edits r.text ∧ ∀ e ∈ edits,
      e.span.KeepsPairs source ∧ Text.BreaksWith (lineBreak source) e.replacement := by
  obtain ⟨components, removals, hcomponents, hremovals, hlines, happly⟩ := rewrite_stages hr
  obtain ⟨sorted, hperm, -, -, hreplaced⟩ := Edit.applyAll_replaced happly
  have hunbroken := isUnbroken_of_planned hplans halias
  refine ⟨sorted, hreplaced, fun e he => ?_⟩
  rcases List.mem_append.1 (hperm.mem_iff.1 he) with he | he
  · rcases List.mem_append.1 he with he | he
    · obtain ⟨plan, hplan, hedit⟩ := forall₂_exists_left hcomponents he
      refine ⟨componentEdit_keepsPairs hedit, ?_⟩
      rw [(componentEdit_eq_ok.1 hedit).1]
      exact .unbroken (hunbroken plan hplan).identifier
    · obtain ⟨es, hes, he⟩ := List.mem_flatten.1 he
      obtain ⟨directives, hdirectives, hedits⟩ := forall₂_exists_left hremovals hes
      have hstops' : ∀ d ∈ directives, source.splitsPair d.span.stop = false :=
        fun d hd => hstops d (List.mem_flatten.2 ⟨directives, hdirectives, hd⟩)
      obtain ⟨hspan, hempty⟩ := Removal.edits_keepsPairs hedits hstops' e he
      rw [hempty]
      exact ⟨hspan, .unbroken .nil⟩
  · have hadded : ∀ line ∈ r.importsAdded, line.IsUnbroken := by
      intro line hline
      rw [hlines, missingImports_eq] at hline
      obtain ⟨plan, hplan, rfl⟩ := List.mem_map.1 hline
      exact (hunbroken plan ((unimported_sublist _ _).subset hplan)).importLine
    have hinserts := importEdits_inserts source t.importAnchor r.importsAdded
    exact hinserts.keepsPairs (fun n hn => parseTable_anchor_not_splitsPair ht hn) hadded e he

/-- Where all lines of a source end in a carriage return and a line feed, so do those of the
rewritten text, and where none has a carriage return, none gets one. Of the parser it is assumed
that it stops the span of no directive between a carriage return and a line feed. -/
theorem rewrite_keepsLineEnds {dialect : Dialect} {t : RouteTable} {b : Bindings} {planAlias : Text}
    {plans : List PagePlan} {r : Rewrite} (ht : parseTable dialect source = .ok t)
    (hplans : planPages t b planAlias = .ok plans) (halias : pagesAlias.IsUnbroken)
    (hstops : ∀ d ∈ (directivesOf t.entries).flatten, source.splitsPair d.span.stop = false)
    (hr : rewrite source t plans pagesAlias = .ok r) :
    (source.IsPaired → ¬ source.IsUnbroken → r.text.IsPaired) ∧
      ('\r' ∉ source → '\r' ∉ r.text) := by
  obtain ⟨edits, hreplaced, hedits⟩ := rewrite_keepsPairs ht hplans halias hstops hr
  constructor
  · intro hpaired hbroken
    have hbreak : (lineBreak source).IsPaired := by
      have hpair : Text.occursIn "\r\n".toList source = true := hpaired.occursIn_pair hbroken
      rw [lineBreak, if_pos hpair]
      exact .pair
    exact hreplaced.isPaired [] rfl hpaired (fun e he => (hedits e he).1)
      fun e he => (hedits e he).2.isPaired hbreak
  · intro hreturn
    have hbreak : '\r' ∉ lineBreak source := by
      unfold lineBreak
      split
      · rename_i hpair
        exact absurd (Text.subset_of_occursIn hpair (by decide)) hreturn
      · decide
    exact hreplaced.not_mem hreturn fun e he => (hedits e he).2.no_return hbreak

/-- Directives that are removed with their lines, with a comment and with a comma, in a file of
pairs. -/
theorem rewrite_keepsLineEnds_pairs :
    let source : Text := "import 'b'\r\nconst r: R[]=[\x7bname:'a',\r\n" ++
      "  table: true, // kept\r\n  component:'/a'\r\n  ,service: true\r\n\x7d,\x7b\r\n" ++
      "  cover:false\r\n\x7d]\r\n"
    let text : Text := "import 'b'\r\nimport A from '@/pages/a'\r\n" ++
      "const r: R[]=[\x7bname:'a',\r\n  component:A\r\n  \r\n\x7d,\x7b\r\n\x7d]\r\n"
    let r : Rewrite := ⟨text, ["import A from '@/pages/a'"], true⟩
    ∃ t plans, IsPlanned .ts source "@/pages" t plans ∧ Text.IsUnbroken "@/pages" ∧
      (∀ d ∈ (directivesOf t.entries).flatten, source.splitsPair d.span.stop = false) ∧
      rewrite source t plans "@/pages" = .ok r ∧
      source.IsPaired ∧ ¬ source.IsUnbroken ∧ text.IsPaired := by
  intro source text r
  have h : holdsOfPlanned .ts source "@/pages" (fun t plans => decide
      ((∀ d ∈ (directivesOf t.entries).flatten, source.splitsPair d.span.stop = false) ∧
        rewrite source t plans "@/pages" = .ok r)) = true := by decide +kernel
  obtain ⟨t, plans, hplanned, hcheck⟩ := exists_of_holdsOfPlanned h
  obtain ⟨hstops, hr⟩ := of_decide_eq_true hcheck
  have halias : Text.IsUnbroken "@/pages" := by decide
  have hpaired : source.IsPaired := by decide +kernel
  have hbroken : ¬ source.IsUnbroken := by decide +kernel
  have hkept := rewrite_keepsLineEnds hplanned.read hplanned.plan halias hstops hr
  exact ⟨t, plans, hplanned, halias, hstops, hr, hpaired, hbroken, hkept.1 hpaired hbroken⟩

end Rewrite
end RoutePages
