import RoutePages.Proofs.Edit.Frame
import RoutePages.Proofs.Edit.Outcome
import RoutePages.Proofs.Route.Marks

/-!
# When a rewrite succeeds

The ranges of a route file that was just read lie in its text and apart from each
other, so a rewrite of it can fail only for the way the file is written: a page or
a directive is spelled in a way that is not recognised in the text, or two removals
reach for the same comma or comment.
-/
namespace RoutePages

open Script

namespace Removal

variable {source : Text}

/-- The ranges that are left when those with only a comma between them are joined, starting
with one that has been joined so far. -/
def runsFrom (source : Text) (current : Span) : List Span → List Span
  | [] => [current]
  | next :: rest =>
    if isComma ((source.slice? current.stop next.start).getD []) then
      runsFrom source ⟨current.start, next.stop⟩ rest
    else current :: runsFrom source next rest

def runs (source : Text) : List Span → List Span
  | [] => []
  | first :: rest => runsFrom source first rest

/-- The ranges of directives in the order of the source. -/
def inOrder (directives : List DirectiveSpan) : List Span :=
  sortBy (fun a b => a.start < b.start) (directives.map DirectiveSpan.span)

/-- The ranges that are removed with the directives of one entry. -/
def ranges (source : Text) (directives : List DirectiveSpan) : List Span :=
  (runs source (inOrder directives)).map (range source)

/-- Does the text of a directive still begin with its key? -/
def IsKeyed (source : Text) (d : DirectiveSpan) : Prop :=
  beginsWithKey ((source.slice? d.span.start d.span.stop).getD []) d.directive.key = true

theorem joined_eq_runsFrom {current : Span} {rest : List Span}
    (h : (current :: rest).Pairwise (fun a b => a.stop ≤ b.start)) :
    joined source current rest = .ok (runsFrom source current rest) := by
  induction rest generalizing current with
  | nil => rfl
  | cons next rest ih =>
    obtain ⟨hcurrent, hrest⟩ := List.pairwise_cons.1 h
    have hnext := hcurrent next List.mem_cons_self
    rw [joined, runsFrom, if_neg (by omega)]
    split
    · exact ih (List.pairwise_cons.2 ⟨(List.pairwise_cons.1 hrest).1, (List.pairwise_cons.1 hrest).2⟩)
    · rw [ih hrest]
      rfl

/-- Ranges in order are joined without fail. -/
theorem groups_eq_runs {spans : List Span} (h : spans.Pairwise (fun a b => a.stop ≤ b.start)) :
    groups source spans = .ok (runs source spans) := by
  cases spans with
  | nil => rfl
  | cons first rest => exact joined_eq_runsFrom h

theorem runsFrom_fits {current : Span} {rest : List Span}
    (h : (current :: rest).Pairwise (fun a b => a.stop ≤ b.start))
    (hfits : ∀ s ∈ current :: rest, Edit.fits source s = true) :
    ∀ s ∈ runsFrom source current rest, Edit.fits source s = true := by
  induction rest generalizing current with
  | nil => exact hfits
  | cons next rest ih =>
    obtain ⟨hcurrent, hrest⟩ := List.pairwise_cons.1 h
    obtain ⟨hfirst, hmore⟩ := List.forall_mem_cons.1 hfits
    obtain ⟨hnext, hbehind⟩ := List.forall_mem_cons.1 hmore
    rw [runsFrom]
    split
    · obtain ⟨hle, hstart, -⟩ := Edit.fits_iff.1 hfirst
      obtain ⟨hle', -, hstop⟩ := Edit.fits_iff.1 hnext
      have hbetween := hcurrent next List.mem_cons_self
      refine ih (List.pairwise_cons.2 (List.pairwise_cons.1 hrest)) ?_
      refine List.forall_mem_cons.2 ⟨Edit.fits_iff.2 ⟨?_, hstart, hstop⟩, hbehind⟩
      dsimp only
      omega
    · exact List.forall_mem_cons.2 ⟨hfirst, ih hrest hmore⟩

theorem runs_fits {spans : List Span} (h : spans.Pairwise (fun a b => a.stop ≤ b.start))
    (hfits : ∀ s ∈ spans, Edit.fits source s = true) :
    ∀ s ∈ runs source spans, Edit.fits source s = true := by
  cases spans with
  | nil => exact nofun
  | cons first rest => exact runsFrom_fits h hfits

theorem range_fits {s : Span} (h : Edit.fits source s = true) :
    Edit.fits source (range source s) = true := by
  obtain ⟨before, mid, after, rfl, hstart, hstop⟩ := Edit.fits_split h
  obtain ⟨kept, left, right, rest, rfl, rfl, -, hrange⟩ := range_extent _ mid after hstart hstop
  rw [hrange]
  rw [Text.size_append] at hstart
  refine Edit.fits_iff.2 ⟨by dsimp only; omega, ?_, ?_⟩
  · rw [List.append_assoc, List.append_assoc]
    exact Text.isBoundary_size_append _ _
  · have hsize : s.stop + Text.size right = Text.size (kept ++ left ++ mid ++ right) := by
      simp only [Text.size_append]
      omega
    rw [hsize, ← List.append_assoc]
    exact Text.isBoundary_size_append _ _

theorem inOrder_perm (directives : List DirectiveSpan) :
    (inOrder directives).Perm (directives.map DirectiveSpan.span) := sortBy_perm _ _

theorem fits_of_isKeyed {d : DirectiveSpan} (h : IsKeyed source d) :
    Edit.fits source d.span = true ∧ d.span.start < d.span.stop := fits_of_beginsWithKey h

section Directives

variable {directives : List DirectiveSpan} (hkeyed : ∀ d ∈ directives, IsKeyed source d)
include hkeyed

theorem inOrder_fits :
    ∀ s ∈ inOrder directives, Edit.fits source s = true ∧ s.start < s.stop := by
  intro s hs
  obtain ⟨d, hd, rfl⟩ := List.mem_map.1 ((inOrder_perm directives).mem_iff.1 hs)
  exact fits_of_isKeyed (hkeyed d hd)

variable (hapart : (directives.map DirectiveSpan.span).Pairwise Span.Apart)
include hapart

/-- Directives that lie apart end before the next one starts. -/
theorem inOrder_pairwise : (inOrder directives).Pairwise (fun a b => a.stop ≤ b.start) := by
  have horder : (inOrder directives).Pairwise (fun a b => decide (b.start < a.start) = false) :=
    sortBy_pairwise (by simp; omega) (by simp; omega) _
  have hdisjoint := ((inOrder_perm directives).pairwise_iff fun {_ _} h => h.symm).2 hapart
  refine (hdisjoint.and horder).imp_of_mem fun {a b} ha hb h => ?_
  have hlt := (inOrder_fits hkeyed b hb).2
  have hnot : ¬ b.start < a.start := by simpa using h.2
  rcases h.1 with hstop | hstop
  · exact hstop
  · omega

theorem ranges_fits : ∀ s ∈ ranges source directives, Edit.fits source s = true := by
  intro s hs
  obtain ⟨run, hrun, rfl⟩ := List.mem_map.1 hs
  have hfits := fun s hs => (inOrder_fits hkeyed s hs).1
  exact range_fits (runs_fits (inOrder_pairwise hkeyed hapart) hfits run hrun)

end Directives

/-- The directives of one entry can be removed exactly when each is keyed. -/
theorem edits_eq_ok {directives : List DirectiveSpan} {es : List Edit}
    (hapart : (directives.map DirectiveSpan.span).Pairwise Span.Apart) :
    edits source directives = .ok es ↔
      (∀ d ∈ directives, IsKeyed source d) ∧
        es = (ranges source directives).map (fun s => ⟨s, []⟩) := by
  have hcheck : ∀ spans, directives.mapM (check source) = .ok spans ↔
      (∀ d ∈ directives, IsKeyed source d) ∧ spans = directives.map DirectiveSpan.span :=
    fun spans => mapM_eq_map fun d _ s => by rw [check_eq_ok, IsKeyed, and_comm]
  have hgroups : (∀ d ∈ directives, IsKeyed source d) →
      groups source (inOrder directives) = .ok (runs source (inOrder directives)) :=
    fun hkeyed => groups_eq_runs (inOrder_pairwise hkeyed hapart)
  rw [edits, bind_eq_ok]
  constructor
  · rintro ⟨spans, hspans, h⟩
    obtain ⟨hkeyed, rfl⟩ := (hcheck spans).1 hspans
    change groups source (inOrder directives) >>= _ = _ at h
    rw [hgroups hkeyed] at h
    cases h
    exact ⟨hkeyed, by rw [ranges, List.map_map]; rfl⟩
  · rintro ⟨hkeyed, rfl⟩
    refine ⟨_, (hcheck _).2 ⟨hkeyed, rfl⟩, ?_⟩
    change groups source (inOrder directives) >>= _ = _
    rw [hgroups hkeyed, ranges, List.map_map]
    rfl

end Removal

namespace Rewrite

/-- The ranges that are removed with the directives of all entries. -/
def removals (source : Text) (t : RouteTable) : List Span :=
  (Entry.allNodes t.entries).flatMap fun node => Removal.ranges source node.directives

theorem removals_eq (source : Text) (t : RouteTable) :
    removals source t = (directivesOf t.entries).flatMap (Removal.ranges source) := by
  rw [removals, directivesOf_eq, List.flatMap_map]

/-- Does a quoted text stand where a plan says that its page is named? -/
def IsQuoted (source : Text) (plan : PagePlan) : Prop :=
  isBetweenQuotes
    ((source.slice? plan.componentSpan.start plan.componentSpan.stop).getD []) = true

/-- How a route file has to be written for its rewrite to succeed. -/
structure IsWellSpaced (source : Text) (t : RouteTable) (plans : List PagePlan)
    (pagesAlias : Text) : Prop where
  /-- each page is named by one literal -/
  quoted : ∀ plan ∈ plans, IsQuoted source plan
  /-- the key of each directive is spelled out -/
  keyed : ∀ directives ∈ directivesOf t.entries, ∀ d ∈ directives, Removal.IsKeyed source d
  /-- no two removals take the same comma, comment or blank -/
  apart : (removals source t).Pairwise Span.Apart
  /-- no removal takes a comment that a page is named in -/
  clear : ∀ plan ∈ plans, ∀ s ∈ removals source t, plan.componentSpan.Apart s
  /-- the line of the last import does not end inside what is changed -/
  anchor : missingImports t pagesAlias [] plans ≠ [] → ∀ n, t.importAnchor = some n →
    ∀ s ∈ plans.map PagePlan.componentSpan ++ removals source t, s.Apart ⟨n, n⟩

/-- The range between the quotes lies in the source. -/
theorem fits_of_isQuoted {source : Text} {plan : PagePlan} (h : IsQuoted source plan) :
    Edit.fits source plan.componentSpan = true := by
  unfold IsQuoted at h
  cases hs : source.slice? plan.componentSpan.start plan.componentSpan.stop with
  | none =>
    rw [hs] at h
    cases h
  | some found => exact (Edit.fits_of_slice? hs).1

/-- The edits of a rewrite whose plans and directives pass their checks. -/
def edits (source : Text) (t : RouteTable) (plans : List PagePlan) (pagesAlias : Text) :
    List Edit :=
  plans.map (fun plan => ⟨plan.componentSpan, plan.identifier⟩) ++
    (removals source t).map (fun s => ⟨s, []⟩) ++
      importEdits source t.importAnchor (missingImports t pagesAlias [] plans)

theorem componentEdits_eq_ok {source : Text} {plans : List PagePlan} {es : List Edit} :
    plans.mapM (componentEdit source) = .ok es ↔ (∀ plan ∈ plans, IsQuoted source plan) ∧
      es = plans.map (fun plan => ⟨plan.componentSpan, plan.identifier⟩) :=
  mapM_eq_map fun plan _ e => by rw [componentEdit_eq_ok, IsQuoted, and_comm]

section Directives

variable {source : Text} {t : RouteTable} {plans : List PagePlan} {pagesAlias : Text}
  (hapart : ∀ directives ∈ directivesOf t.entries,
    (directives.map DirectiveSpan.span).Pairwise Span.Apart)
include hapart

theorem removalEdits_eq_ok {es : List (List Edit)} :
    (directivesOf t.entries).mapM (Removal.edits source) = .ok es ↔
      (∀ directives ∈ directivesOf t.entries, ∀ d ∈ directives, Removal.IsKeyed source d) ∧
        es = (directivesOf t.entries).map fun directives =>
          (Removal.ranges source directives).map (fun s => ⟨s, []⟩) :=
  mapM_eq_map fun directives hmem _ => Removal.edits_eq_ok (hapart directives hmem)

omit hapart in
theorem flatten_removalEdits : ((directivesOf t.entries).map fun directives =>
    (Removal.ranges source directives).map (fun s => (⟨s, []⟩ : Edit))).flatten =
      (removals source t).map (fun s => ⟨s, []⟩) := by
  rw [removals_eq, List.map_flatMap, List.flatMap_def]

/-- The edits of a rewrite are those of its checked plans and directives. -/
theorem rewrite_edits {r : Rewrite} (h : rewrite source t plans pagesAlias = .ok r) :
    (∀ plan ∈ plans, IsQuoted source plan) ∧
      (∀ directives ∈ directivesOf t.entries, ∀ d ∈ directives, Removal.IsKeyed source d) ∧
      Edit.applyAll source (edits source t plans pagesAlias) = .ok r.text := by
  obtain ⟨_, hc, h⟩ := bind_eq_ok.1 h
  obtain ⟨_, hr, h⟩ := bind_eq_ok.1 h
  obtain ⟨text, htext, h⟩ := bind_eq_ok.1 h
  cases h
  obtain ⟨hquoted, rfl⟩ := componentEdits_eq_ok.1 hc
  obtain ⟨hkeyed, rfl⟩ := (removalEdits_eq_ok hapart).1 hr
  rw [flatten_removalEdits] at htext
  exact ⟨hquoted, hkeyed, htext⟩

/-- A rewrite succeeds exactly when its checks pass and its edits can be made. -/
theorem rewrite_isOk :
    (∃ r, rewrite source t plans pagesAlias = .ok r) ↔
      (∀ plan ∈ plans, IsQuoted source plan) ∧
      (∀ directives ∈ directivesOf t.entries, ∀ d ∈ directives, Removal.IsKeyed source d) ∧
      ∃ text, Edit.applyAll source (edits source t plans pagesAlias) = .ok text := by
  constructor
  · rintro ⟨r, h⟩
    obtain ⟨hquoted, hkeyed, htext⟩ := rewrite_edits hapart h
    exact ⟨hquoted, hkeyed, r.text, htext⟩
  · rintro ⟨hquoted, hkeyed, text, htext⟩
    refine ⟨_, bind_eq_ok.2 ⟨_, componentEdits_eq_ok.2 ⟨hquoted, rfl⟩, bind_eq_ok.2 ⟨_,
      (removalEdits_eq_ok hapart).2 ⟨hkeyed, rfl⟩, bind_eq_ok.2 ⟨text, ?_, rfl⟩⟩⟩⟩
    rw [flatten_removalEdits]
    exact htext

end Directives

theorem importEdits_pairwise (source : Text) (anchor : Option Nat) (lines : List Text) :
    ((importEdits source anchor lines).map Edit.span).Pairwise Span.Apart := by
  have h := importEdits_inserts source anchor lines
  generalize importEdits source anchor lines = es at h
  cases h with
  | nothing => exact .nil
  | atAnchor pos hne => exact List.pairwise_singleton _ _
  | atStart hne => exact List.pairwise_singleton _ _

/-- Only an insertion behind an anchor can stand inside a range. -/
theorem apart_importEdits {source : Text} {anchor : Option Nat} {lines : List Text}
    {spans : List Span} :
    (∀ s ∈ spans, ∀ inserted ∈ (importEdits source anchor lines).map Edit.span, s.Apart inserted) ↔
      (lines ≠ [] → ∀ n, anchor = some n → ∀ s ∈ spans, s.Apart ⟨n, n⟩) := by
  have h := importEdits_inserts source anchor lines
  generalize importEdits source anchor lines = es at h
  cases h with
  | nothing => simp
  | atAnchor pos hne => simp [hne]
  | atStart hne =>
    have hzero : ∀ s : Span, s.Apart ⟨0, 0⟩ := fun s => .inr (Nat.zero_le _)
    simp [hzero]

/-- The ranges of the edits lie apart exactly when no removal meets a page, another removal or
the place of the imports. -/
theorem edits_pairwise_iff {source : Text} {t : RouteTable} {plans : List PagePlan}
    {pagesAlias : Text} (hplans : (plans.map PagePlan.componentSpan).Pairwise Span.Apart) :
    (edits source t plans pagesAlias).Pairwise (fun a b => a.span.Apart b.span) ↔
      (removals source t).Pairwise Span.Apart ∧
      (∀ plan ∈ plans, ∀ s ∈ removals source t, plan.componentSpan.Apart s) ∧
      (missingImports t pagesAlias [] plans ≠ [] → ∀ n, t.importAnchor = some n →
        ∀ s ∈ plans.map PagePlan.componentSpan ++ removals source t, s.Apart ⟨n, n⟩) := by
  have hspans : (edits source t plans pagesAlias).map Edit.span =
      plans.map PagePlan.componentSpan ++ removals source t ++
        (importEdits source t.importAnchor (missingImports t pagesAlias [] plans)).map Edit.span := by
    simp [edits, Function.comp_def]
  rw [← List.pairwise_map (f := Edit.span), hspans, List.pairwise_append, apart_importEdits,
    List.pairwise_append, List.forall_mem_map]
  have hinserted := importEdits_pairwise source t.importAnchor (missingImports t pagesAlias [] plans)
  exact ⟨fun ⟨⟨_, hapart, hclear⟩, _, hanchor⟩ => ⟨hapart, hclear, hanchor⟩,
    fun ⟨hapart, hclear, hanchor⟩ => ⟨⟨hplans, hapart, hclear⟩, hinserted, hanchor⟩⟩

/-- Of all ranges that are edited only the place of the imports may lie outside the source. -/
theorem anchor_of_not_fits {source : Text} {t : RouteTable} {plans : List PagePlan}
    {pagesAlias : Text} (hquoted : ∀ plan ∈ plans, IsQuoted source plan)
    (hremovals : ∀ s ∈ removals source t, Edit.fits source s = true) {e : Edit}
    (he : e ∈ edits source t plans pagesAlias) (hout : Edit.fits source e.span = false) :
    ∃ n, e.span = ⟨n, n⟩ ∧ missingImports t pagesAlias [] plans ≠ [] ∧ t.importAnchor = some n ∧
      source.isBoundary n = false := by
  have hinside : Edit.fits source e.span ≠ true := Bool.eq_false_iff.1 hout
  unfold edits at he
  rcases List.mem_append.1 he with he | he
  · rcases List.mem_append.1 he with he | he
    · obtain ⟨plan, hplan, rfl⟩ := List.mem_map.1 he
      exact absurd (fits_of_isQuoted (hquoted plan hplan)) hinside
    · obtain ⟨s, hs, rfl⟩ := List.mem_map.1 he
      exact absurd (hremovals s hs) hinside
  · have h := importEdits_inserts source t.importAnchor (missingImports t pagesAlias [] plans)
    generalize missingImports t pagesAlias [] plans = lines at h he
    generalize importEdits source t.importAnchor lines = es at h he
    generalize t.importAnchor = anchor at h
    cases h with
    | nothing => cases he
    | atAnchor pos hne =>
      cases List.mem_singleton.1 he
      refine ⟨pos, rfl, hne, rfl, Bool.eq_false_iff.2 fun hpos => ?_⟩
      exact hinside (Edit.fits_iff.2 ⟨Nat.le_refl _, hpos, hpos⟩)
    | atStart hne =>
      cases List.mem_singleton.1 he
      have hstart := Text.isBoundary_size_append [] source
      exact absurd (Edit.fits_iff.2 ⟨Nat.le_refl _, hstart, hstart⟩) hinside

/-- All ranges that are edited lie in the source. -/
theorem edits_fits {source : Text} {t : RouteTable} {plans : List PagePlan} {pagesAlias : Text}
    (hquoted : ∀ plan ∈ plans, IsQuoted source plan)
    (hremovals : ∀ s ∈ removals source t, Edit.fits source s = true)
    (hanchor : ∀ n, t.importAnchor = some n → source.isBoundary n = true) :
    ∀ e ∈ edits source t plans pagesAlias, Edit.fits source e.span = true := by
  intro e he
  cases hfits : Edit.fits source e.span with
  | true => rfl
  | false =>
    obtain ⟨n, -, -, hn, hout⟩ := anchor_of_not_fits hquoted hremovals he hfits
    rw [hanchor n hn] at hout
    cases hout

/-- The directives of each entry that was read lie apart. -/
theorem directives_apart {dialect : Dialect} {source : Text} {t : RouteTable} {b : Bindings}
    {planAlias : Text} {plans : List PagePlan} (ht : parseTable dialect source = .ok t)
    (hplans : planPages t b planAlias = .ok plans) :
    ∀ directives ∈ directivesOf t.entries,
      (directives.map DirectiveSpan.span).Pairwise Span.Apart := by
  intro directives hmem
  obtain ⟨-, hdirectives, -⟩ := List.pairwise_append.1 (planPages_apart ht hplans)
  rw [List.map_flatten] at hdirectives
  exact (List.pairwise_flatten.1 hdirectives).1 _ (List.mem_map_of_mem hmem)

/-- A rewrite of an unchanged route file succeeds exactly when the file is well spaced: what is
edited lies in the text, and the pages and directives themselves never overlap. -/
theorem rewrite_isOk_iff {dialect : Dialect} {source : Text} {t : RouteTable} {b : Bindings}
    {planAlias pagesAlias : Text} {plans : List PagePlan}
    (ht : parseTable dialect source = .ok t) (hplans : planPages t b planAlias = .ok plans) :
    (∃ r, rewrite source t plans pagesAlias = .ok r) ↔
      IsWellSpaced source t plans pagesAlias := by
  have hcomponents := (List.pairwise_append.1 (planPages_apart ht hplans)).1
  have hown := directives_apart ht hplans
  rw [rewrite_isOk hown]
  constructor
  · rintro ⟨hquoted, hkeyed, htext⟩
    obtain ⟨-, hpairs⟩ := Edit.applyAll_isOk_iff.1 htext
    obtain ⟨hapart, hclear, hanchor⟩ := (edits_pairwise_iff hcomponents).1 hpairs
    exact ⟨hquoted, hkeyed, hapart, hclear, hanchor⟩
  · rintro ⟨hquoted, hkeyed, hapart, hclear, hanchor⟩
    have hremovals : ∀ s ∈ removals source t, Edit.fits source s = true := by
      intro s hs
      rw [removals_eq] at hs
      obtain ⟨directives, hmem, hs⟩ := List.mem_flatMap.1 hs
      exact Removal.ranges_fits (hkeyed directives hmem) (hown directives hmem) s hs
    refine ⟨hquoted, hkeyed, Edit.applyAll_isOk_iff.2 ⟨?_, ?_⟩⟩
    · exact edits_fits hquoted hremovals fun n hn => parseTable_anchor_isBoundary ht hn
    · exact (edits_pairwise_iff hcomponents).2 ⟨hapart, hclear, hanchor⟩

/-- Directives on lines of their own, behind the page: a well spaced file. -/
theorem rewrite_isOk_iff_lines :
    let source : Text := "const r: R[] = [\x7b name: 'a',\n  component: '/a',\n  table: true,\n\x7d]"
    ∃ t plans, IsPlanned .ts source "@/pages" t plans ∧ IsWellSpaced source t plans "@/pages" := by
  intro source
  let text : Text := "import A from '@/pages/a'\n" ++
    "const r: R[] = [\x7b name: 'a',\n  component: A,\n\x7d]"
  have h : outcome? .ts source "@/pages" =
      some (.ok ⟨text, ["import A from '@/pages/a'"], true⟩) := by decide +kernel
  obtain ⟨t, plans, hplanned, hrewrite⟩ := outcome?_eq_some.1 h
  exact ⟨t, plans, hplanned, (rewrite_isOk_iff hplanned.read hplanned.plan).1 ⟨_, hrewrite⟩⟩

/-- Files that are read and planned, but whose rewrite fails on the very text that was read: two
removals reach for one comma, a page is named in parentheses, or a key is spelled with an
escape. -/
theorem rewrite_fails_unchanged :
    (let source : Text := "const r: R[] = [\x7b name: 'a', component: '/a',\n" ++
        "  table: true,\n  service: true \x7d]"
      ∃ t plans, IsPlanned .ts source "@/pages" t plans ∧
        rewrite source t plans "@/pages" = .error (.overlap ⟨46, 61⟩ ⟨59, 76⟩)) ∧
    (let source : Text := "const r: R[] = [\x7b name: 'a', component: ('/a') \x7d]"
      ∃ t plans, IsPlanned .ts source "@/pages" t plans ∧
        rewrite source t plans "@/pages" = .error (.noComponent 40 "('/a')")) ∧
    let source : Text := "const r: R[] = [\x7b name: 'a', 't\\x61ble': true \x7d]"
    ∃ t plans, IsPlanned .ts source "@/pages" t plans ∧
      rewrite source t plans "@/pages" = .error (.noDirective "table" 29 "'t\\x61ble': true") :=
  ⟨outcome?_eq_some.1 (by decide +kernel), outcome?_eq_some.1 (by decide +kernel),
    outcome?_eq_some.1 (by decide +kernel)⟩

end Rewrite
end RoutePages
