import Mathlib.Data.List.Nodup
import RoutePages.Proofs.Edit.Frame
import RoutePages.Proofs.Edit.Outcome
import RoutePages.Proofs.Page.Agree
import RoutePages.Proofs.Route.Marks

/-!
# Which imports a rewrite adds

Every page that is named by an identifier is imported: by a declaration that was there,
from the source of the page, or by one line that is added. The lines come in the order
in which pages are planned, one for each identifier, behind the line of the last import
or at the top.
-/
namespace RoutePages

namespace Edit

/-- A range in the middle of those that are replaced cuts the text in two. -/
theorem Replaced.split {pos : Nat} {s out : Text} {e : Edit} {edits more : List Edit}
    (h : Replaced pos s (edits ++ e :: more) out) :
    ∃ kept cut rest before after, s = kept ++ cut ++ rest ∧
      e.span.start = pos + Text.size kept ∧ e.span.stop = e.span.start + Text.size cut ∧
      out = before ++ e.replacement ++ after ∧ Replaced pos kept edits before ∧
      Replaced e.span.stop rest more after := by
  induction edits generalizing pos s out with
  | nil =>
    cases h with
    | @edit _ _ _ kept cut rest after hstart hstop hmore =>
      exact ⟨kept, cut, rest, kept, after, rfl, hstart, hstop, rfl, .keep _ _, hmore⟩
  | cons first edits ih =>
    cases h with
    | @edit _ _ _ kept cut rest after hstart hstop hmore =>
      obtain ⟨kept', cut', rest', before, after', rfl, hstart', hstop', rfl, hfirst, hrest⟩ := ih hmore
      refine ⟨kept ++ cut ++ kept', cut', rest', kept ++ first.replacement ++ before, after', by simp,
        ?_, hstop', by simp, .edit hstart hstop hfirst, hrest⟩
      simp only [Text.size_append]
      omega

end Edit

namespace Rewrite

variable {t : RouteTable} {pagesAlias : Text}

/-- The plans whose identifiers are neither imported nor in `queued`, one for each identifier. -/
def unimported (t : RouteTable) : (queued : List Text) → List PagePlan → List PagePlan
  | _, [] => []
  | queued, plan :: rest =>
    if (t.importOf? plan.identifier).isSome || queued.contains plan.identifier then
      unimported t queued rest
    else plan :: unimported t (plan.identifier :: queued) rest

theorem missingImports_eq (queued : List Text) (plans : List PagePlan) :
    missingImports t pagesAlias queued plans =
      (unimported t queued plans).map (importLine pagesAlias) := by
  induction plans generalizing queued with
  | nil => rfl
  | cons plan rest ih =>
    rw [missingImports, unimported]
    split
    · exact ih queued
    · rw [ih, List.map_cons]

theorem unimported_sublist (queued : List Text) (plans : List PagePlan) :
    (unimported t queued plans).Sublist plans := by
  induction plans generalizing queued with
  | nil => exact .slnil
  | cons plan rest ih =>
    rw [unimported]
    split
    · exact (ih queued).cons plan
    · exact (ih _).cons_cons plan

/-- None of the identifiers is imported or waits already. -/
theorem unimported_fresh {queued : List Text} {plans : List PagePlan} {plan : PagePlan}
    (h : plan ∈ unimported t queued plans) :
    t.importOf? plan.identifier = none ∧ plan.identifier ∉ queued := by
  induction plans generalizing queued with
  | nil => cases h
  | cons first rest ih =>
    rw [unimported] at h
    split at h
    · exact ih h
    · rename_i hfirst
      rcases List.mem_cons.1 h with rfl | h
      · simpa using hfirst
      · obtain ⟨hnone, hqueued⟩ := ih h
        exact ⟨hnone, fun hmem => hqueued (List.mem_cons_of_mem _ hmem)⟩

theorem unimported_nodup (queued : List Text) (plans : List PagePlan) :
    ((unimported t queued plans).map PagePlan.identifier).Nodup := by
  induction plans generalizing queued with
  | nil => exact .nil
  | cons plan rest ih =>
    rw [unimported]
    split
    · exact ih queued
    · refine List.nodup_cons.2 ⟨fun hmem => ?_, ih _⟩
      obtain ⟨other, hother, heq⟩ := List.mem_map.1 hmem
      exact (unimported_fresh hother).2 (heq ▸ List.mem_cons_self)

/-- Every plan whose identifier is not imported waits already, or the first plan of that identifier
is among those that are imported for it. -/
theorem exists_unimported {queued : List Text} {plans : List PagePlan} {plan : PagePlan}
    (hmem : plan ∈ plans) (hnone : t.importOf? plan.identifier = none)
    (hqueued : plan.identifier ∉ queued) :
    ∃ first ∈ unimported t queued plans, first.identifier = plan.identifier ∧
      plans.find? (·.identifier == plan.identifier) = some first := by
  induction plans generalizing queued with
  | nil => cases hmem
  | cons first rest ih =>
    by_cases heq : first.identifier = plan.identifier
    · refine ⟨first, ?_, heq, by simp [heq]⟩
      have hskip : ((t.importOf? first.identifier).isSome ||
          queued.contains first.identifier) = false := by simp [heq, hnone, hqueued]
      rw [unimported, hskip]
      exact List.mem_cons_self
    · have hrest : plan ∈ rest := by
        rcases List.mem_cons.1 hmem with rfl | h
        · exact absurd rfl heq
        · exact h
      have hne : (first.identifier == plan.identifier) = false := beq_eq_false_iff_ne.2 heq
      rw [unimported, List.find?_cons, hne]
      split
      · exact ih hrest hqueued
      · have hwaits : plan.identifier ∉ first.identifier :: queued := by
          simp [hqueued, Ne.symm heq]
        obtain ⟨found, hfound, hsame, hfind⟩ := ih hrest hwaits
        exact ⟨found, List.mem_cons_of_mem _ hfound, hsame, hfind⟩

/-- Where plans agree with each other and with the imports, each of them has its identifier and its
page among those that are imported for it, or by an import that is there. -/
theorem unimported_or_imported {plans : List PagePlan} {plan : PagePlan}
    (hpages : ∀ p ∈ plans, ∀ q ∈ plans, p.identifier = q.identifier → p.page = q.page)
    (himports : ∀ p ∈ plans, ∀ i, t.importOf? p.identifier = some i →
      i.source = p.page.importSource pagesAlias) (hplan : plan ∈ plans) :
    (∃ first ∈ unimported t [] plans, first.identifier = plan.identifier ∧
      first.page = plan.page) ∨
    ∃ i, t.importOf? plan.identifier = some i ∧ i.source = plan.page.importSource pagesAlias := by
  cases hfound : t.importOf? plan.identifier with
  | some i => exact .inr ⟨i, rfl, himports plan hplan i hfound⟩
  | none =>
    obtain ⟨first, hfirst, hsame, -⟩ := exists_unimported hplan hfound List.not_mem_nil
    have hmem : first ∈ plans := (unimported_sublist [] plans).subset hfirst
    exact .inl ⟨first, hfirst, hsame, hpages first hmem plan hplan hsame⟩

/-- The rest of a text at the end of one of its lines. -/
def AtLineEnd (rest : Text) : Prop :=
  rest = [] ∨ rest = ['\r'] ∨ (∃ t, rest = '\n' :: t) ∨ ∃ t, rest = '\r' :: '\n' :: t

/-- Where the added lines stand: `above` is the text before them and `below` the text behind them. -/
inductive IsPlace (source : Text) (imports : List Import) : (above below : Text) → Prop
  /-- at the end of the line on which the last import ends -/
  | behindLast {above below : Text} {last : Import} (hsource : source = above ++ below)
      (hlast : imports.getLast? = some last) (hend : AtLineEnd below)
      (hline : ∀ s, source.slice? last.span.stop (Text.size above) = some s → '\n' ∉ s) :
      IsPlace source imports above below
  /-- at the top, since nothing is imported -/
  | atTop (hnone : imports = []) : IsPlace source imports [] source

/-- The end of a line is found behind an offset, with no line break on the way. -/
theorem lineEnd_split {source : Text} {offset n : Nat} (h : lineEnd source offset = .ok n) :
    ∃ above below, source = above ++ below ∧ Text.size above = n ∧ AtLineEnd below ∧
      ∀ s, source.slice? offset n = some s → '\n' ∉ s := by
  obtain ⟨before, line, after, rfl, rfl, hline, hafter, hend⟩ := lineEnd_spec h
  have hrest : AtLineEnd after ∧ AtLineEnd ('\r' :: after) := by
    cases after with
    | nil => exact ⟨.inl rfl, .inr (.inl rfl)⟩
    | cons c after =>
      cases hafter c rfl
      exact ⟨.inr (.inr (.inl ⟨after, rfl⟩)), .inr (.inr (.inr ⟨after, rfl⟩))⟩
  rcases hend with ⟨-, rfl⟩ | ⟨kept, hcut, rfl⟩
  · refine ⟨before ++ line, after, rfl, rfl, hrest.1, fun s hs => ?_⟩
    rw [Text.size_append, Text.slice?_append] at hs
    cases hs
    exact hline
  · have hsource : before ++ line ++ after = kept ++ '\r' :: after := by
      rw [hcut, List.append_assoc]
      rfl
    refine ⟨kept, '\r' :: after, hsource, rfl, hrest.2, fun s hs => ?_⟩
    rw [hsource] at hs
    obtain ⟨_, _, -, -, hssize⟩ := Text.slice?_eq_some.1 hs
    obtain ⟨m, rfl, hm⟩ := Text.split_of_size_le ((List.append_assoc _ _ _).symm.trans hsource)
      (by omega)
    have hmem : ∀ c ∈ m, c ∈ line := by
      rw [List.append_assoc, List.append_cancel_left_eq] at hcut
      exact fun c hc => hcut ▸ List.mem_append_left _ hc
    rw [Text.size_append, Text.slice?_append] at hs
    cases hs
    exact fun hbreak => hline (hmem _ hbreak)

/-- The place that a route table tells, and the anchor that tells it. -/
theorem parseTable_isPlace {dialect : Dialect} {source : Text}
    (h : parseTable dialect source = .ok t) :
    ∃ above below, source = above ++ below ∧ IsPlace source t.imports above below ∧
      (t.importAnchor = none ∧ t.imports = [] ∧ above = [] ∨
        t.importAnchor = some (Text.size above) ∧ t.imports ≠ []) := by
  obtain ⟨_, _, -, -, -, -, -, hanchor, -⟩ := parseTable_stages h
  unfold importAnchor at hanchor
  split at hanchor
  · rename_i hnone
    have himports := List.getLast?_eq_none_iff.1 hnone
    exact ⟨[], source, rfl, .atTop himports, .inl ⟨(Except.ok.inj hanchor).symm, himports, rfl⟩⟩
  · rename_i last hlast
    obtain ⟨n, hline, hanchor⟩ := map_eq_ok.1 hanchor
    obtain ⟨above, below, hsource, rfl, hend, hbreak⟩ := lineEnd_split hline
    refine ⟨above, below, hsource, .behindLast hsource hlast hend hbreak, .inr ⟨hanchor.symm, ?_⟩⟩
    intro himports
    rw [himports] at hlast
    cases hlast

/-- The lines that are added, with their line breaks. -/
def addedBlock (source : Text) (imports : List Import) (lines : List Text) : Text :=
  if imports.isEmpty then lines.flatMap (· ++ lineBreak source)
  else lines.flatMap (lineBreak source ++ ·)

theorem addedBlock_nil (source : Text) (imports : List Import) :
    addedBlock source imports [] = [] := by
  unfold addedBlock
  split
  · rfl
  · rfl

/-- What a rewrite imports: `added` are the plans that a line is added for. -/
structure ImportsPages (source : Text) (t : RouteTable) (plans : List PagePlan)
    (pagesAlias : Text) (r : Rewrite) (added : List PagePlan) : Prop where
  lines : r.importsAdded = added.map (importLine pagesAlias)
  /-- in the order of planning -/
  ordered : added.Sublist plans
  /-- one line for each identifier, for the first page that is planned for it -/
  unique : (added.map PagePlan.identifier).Nodup
  first : ∀ plan ∈ added, plans.find? (·.identifier == plan.identifier) = some plan
  /-- no line for an identifier that an import binds -/
  fresh : ∀ plan ∈ added, t.importOf? plan.identifier = none
  /-- each page is imported from its own source -/
  imported : ∀ plan ∈ plans,
    (∃ i, t.importOf? plan.identifier = some i ∧
      i.source = plan.page.importSource pagesAlias) ∨
    importLine pagesAlias plan ∈ r.importsAdded
  /-- the lines stand together at their place; around them only components are replaced and
  directives removed -/
  placed : added ≠ [] → ∃ above below before after,
    source = above ++ below ∧ IsPlace source t.imports above below ∧
    r.text = before ++ addedBlock source t.imports r.importsAdded ++ after ∧
    ∃ edits more : List Edit, Edit.Replaced 0 above edits before ∧
      Edit.Replaced (Text.size above) below more after ∧
      ∀ e ∈ edits ++ more,
        e.replacement = [] ∨ ∃ plan ∈ plans, e = ⟨plan.componentSpan, plan.identifier⟩

/-- The insertion of lines at their place. -/
theorem inserts_block {source above : Text} {lines : List Text} {inserted : List Edit}
    (h : Inserts source t.importAnchor lines inserted) (hne : lines ≠ [])
    (hplace : t.importAnchor = none ∧ t.imports = [] ∧ above = [] ∨
      t.importAnchor = some (Text.size above) ∧ t.imports ≠ []) :
    inserted = [⟨⟨Text.size above, Text.size above⟩, addedBlock source t.imports lines⟩] := by
  unfold addedBlock
  rcases hplace with ⟨hanchor, himports, rfl⟩ | ⟨hanchor, himports⟩
  · rw [hanchor] at h
    cases h with
    | nothing => exact absurd rfl hne
    | atStart => simp [himports]
  · rw [hanchor] at h
    cases h with
    | nothing => exact absurd rfl hne
    | atAnchor => simp [himports]

/-- An edit that replaces the component of a plan or removes directives of an entry. -/
inductive IsOwnEdit (source : Text) (t : RouteTable) (plans : List PagePlan) (e : Edit) : Prop
  | component {plan : PagePlan} (hplan : plan ∈ plans) (hedit : componentEdit source plan = .ok e)
  | removal {directives : List DirectiveSpan} {es : List Edit}
      (hdirectives : directives ∈ directivesOf t.entries)
      (hedits : Removal.edits source directives = .ok es) (he : e ∈ es)

theorem isOwnEdit_of_mem {source : Text} {plans : List PagePlan} {components : List Edit}
    {removals : List (List Edit)} {e : Edit}
    (hcomponents : List.Forall₂ (fun plan e => componentEdit source plan = .ok e) plans components)
    (hremovals : List.Forall₂ (fun directives es => Removal.edits source directives = .ok es)
      (directivesOf t.entries) removals) (he : e ∈ components ++ removals.flatten) :
    IsOwnEdit source t plans e := by
  rcases List.mem_append.1 he with he | he
  · obtain ⟨plan, hplan, hedit⟩ := forall₂_exists_left hcomponents he
    exact .component hplan hedit
  · obtain ⟨es, hes, he⟩ := List.mem_flatten.1 he
    obtain ⟨directives, hdirectives, hedits⟩ := forall₂_exists_left hremovals hes
    exact .removal hdirectives hedits he

/-- A rewrite cut at the lines that it adds: `before` is what becomes of the text above them, and
`after` what becomes of the text below. -/
structure CutAtLines (source : Text) (t : RouteTable) (plans : List PagePlan) (r : Rewrite)
    (above below before after : Text) (edits more : List Edit) : Prop where
  split : source = above ++ below
  place : IsPlace source t.imports above below
  anchor : t.importAnchor = none ∧ t.imports = [] ∧ above = [] ∨
    t.importAnchor = some (Text.size above) ∧ t.imports ≠ []
  text : r.text = before ++ addedBlock source t.imports r.importsAdded ++ after
  replacedAbove : Edit.Replaced 0 above edits before
  replacedBelow : Edit.Replaced (Text.size above) below more after
  own : ∀ e ∈ edits ++ more, IsOwnEdit source t plans e

theorem rewrite_cutAtLines {dialect : Dialect} {source : Text} {plans : List PagePlan} {r : Rewrite}
    (hread : parseTable dialect source = .ok t) (hr : rewrite source t plans pagesAlias = .ok r)
    (hadded : r.importsAdded ≠ []) :
    ∃ above below before after edits more,
      CutAtLines source t plans r above below before after edits more := by
  obtain ⟨components, removals, hcomponents, hremovals, -, happly⟩ := rewrite_stages hr
  obtain ⟨sorted, hperm, -, -, hreplaced⟩ := Edit.applyAll_replaced happly
  obtain ⟨above, below, hsource, hplace, hanchor⟩ := parseTable_isPlace hread
  rw [inserts_block (importEdits_inserts _ _ _) hadded hanchor] at hperm
  have hmem := hperm.mem_iff.2 (List.mem_append_right _ (List.mem_singleton_self _))
  -- the insertion replaces nothing, so it cuts the source where its place does
  obtain ⟨edits, more, rfl⟩ := List.append_of_mem hmem
  obtain ⟨kept, cut, rest, before, after, hsplit, hstart, hstop, htext, hfirst, hrest⟩ :=
    hreplaced.split
  dsimp only at hstart hstop htext hrest
  have hcut : cut = [] := Text.size_eq_zero (by omega)
  subst hcut
  rw [List.append_nil] at hsplit
  obtain ⟨rfl, rfl⟩ := Text.split_unique (hsplit.symm.trans hsource) (by omega)
  have hothers :=
    (List.perm_middle.symm.trans (hperm.trans (List.perm_append_singleton _ _))).cons_inv
  exact ⟨kept, rest, before, after, edits, more, hsource, hplace, hanchor, htext, hfirst, hrest,
    fun e he => isOwnEdit_of_mem hcomponents hremovals (hothers.mem_iff.1 he)⟩

/-- Where plans are made for a table, the lines are added for those that nothing imports. -/
theorem rewrite_importsAdded {source : Text} {plans : List PagePlan} {r : Rewrite}
    (hr : rewrite source t plans pagesAlias = .ok r) :
    r.importsAdded = (unimported t [] plans).map (importLine pagesAlias) := by
  obtain ⟨_, _, -, -, hlines, -⟩ := rewrite_stages hr
  rw [hlines, missingImports_eq]

/-- Every page that a rewritten file names is imported. -/
theorem rewrite_importsPages {dialect : Dialect} {source : Text} {plans : List PagePlan} {r : Rewrite}
    (h : IsPlanned dialect source pagesAlias t plans)
    (hr : rewrite source t plans pagesAlias = .ok r) :
    ImportsPages source t plans pagesAlias r (unimported t [] plans) := by
  obtain ⟨himports, hpages⟩ := planPages_agree h.plan
  have hlines := rewrite_importsAdded hr
  refine ⟨hlines, unimported_sublist _ _, unimported_nodup _ _, ?_,
    fun plan hplan => (unimported_fresh hplan).1, ?_, ?_⟩
  · intro plan hplan
    obtain ⟨found, hfound, hsame, hfind⟩ := exists_unimported
      ((unimported_sublist _ _).subset hplan) (unimported_fresh hplan).1 List.not_mem_nil
    have heq := List.inj_on_of_nodup_map (unimported_nodup [] plans) hfound hplan hsame
    rwa [heq] at hfind
  · intro plan hplan
    rcases unimported_or_imported hpages himports hplan with ⟨first, hfirst, hsame, hpage⟩ | h
    · have hline : importLine pagesAlias first = importLine pagesAlias plan := by
        unfold importLine
        rw [hsame, hpage]
      exact .inr (hlines ▸ hline ▸ List.mem_map_of_mem hfirst)
    · exact .inl h
  · intro hadded
    have hne : r.importsAdded ≠ [] := by
      rw [hlines]
      exact fun hnil => hadded (List.map_eq_nil_iff.1 hnil)
    obtain ⟨above, below, before, after, edits, more, hcut⟩ := rewrite_cutAtLines h.read hr hne
    refine ⟨above, below, before, after, hcut.split, hcut.place, hcut.text, edits, more,
      hcut.replacedAbove, hcut.replacedBelow, fun e he => ?_⟩
    cases hcut.own e he with
    | component hplan hedit => exact .inr ⟨_, hplan, (componentEdit_eq_ok.1 hedit).1⟩
    | removal hdirectives hedits he =>
      obtain ⟨cuts, rfl, -⟩ := Removal.edits_joined hedits
      obtain ⟨cut, -, rfl⟩ := List.mem_map.1 he
      exact .inl rfl

end Rewrite
end RoutePages
