import RoutePages.Proofs.Edit.Sliced

/-!
# What a rewrite refuses

A rewrite refuses the first plan whose page is not named in the source, or else the first entry,
depth first, whose directives are not found or overlap, or else edits that overlap. That a range
is not in the source can only be said of the place of the imports.
-/
namespace RoutePages

namespace Edit

variable {source : Text} {edits : List Edit} {e : EditError}

/-- The first range that is not in the source is refused. -/
theorem checkBounds_eq_error : checkBounds source edits = .error e ↔
    ∃ before a after, edits = before ++ a :: after ∧ (∀ x ∈ before, fits source x.span = true) ∧
      fits source a.span = false ∧ e = .outOfBounds a.span := by
  induction edits with
  | nil =>
    refine ⟨nofun, ?_⟩
    rintro ⟨before, a, after, h, -⟩
    cases before <;> cases h
  | cons first edits ih =>
    rw [checkBounds]
    split
    · rename_i hfirst
      rw [ih]
      constructor
      · rintro ⟨before, a, after, rfl, hbefore, ha⟩
        exact ⟨first :: before, a, after, rfl, List.forall_mem_cons.2 ⟨hfirst, hbefore⟩, ha⟩
      · rintro ⟨before, a, after, h, hbefore, hout, he⟩
        cases before with
        | nil =>
          cases h
          cases hfirst.symm.trans hout
        | cons _ before =>
          cases h
          exact ⟨before, a, after, rfl, (List.forall_mem_cons.1 hbefore).2, hout, he⟩
    · rename_i hfirst
      constructor
      · intro h
        cases h
        exact ⟨[], first, edits, rfl, List.forall_mem_nil _, Bool.eq_false_iff.2 hfirst, rfl⟩
      · rintro ⟨before, a, after, h, hbefore, -, rfl⟩
        cases before with
        | nil =>
          cases h
          rfl
        | cons _ before =>
          cases h
          exact absurd (hbefore first List.mem_cons_self) hfirst

theorem checkApart_cons_eq_ok {a : Edit} : checkApart (a :: edits) = .ok () ↔
    (∀ b ∈ edits.head?, ¬ b.span.start < a.span.stop) ∧ checkApart edits = .ok () := by
  cases edits with
  | nil => exact ⟨fun _ => ⟨nofun, rfl⟩, fun _ => rfl⟩
  | cons b rest =>
    rw [checkApart]
    split
    · rename_i hoverlap
      refine ⟨fun h => ?_, fun h => absurd hoverlap (h.1 b rfl)⟩
      cases h
    · rename_i hapart
      refine ⟨fun h => ⟨fun other hother => ?_, h⟩, And.right⟩
      cases hother
      exact hapart

/-- The first two neighbours that overlap are refused. -/
theorem checkApart_eq_error : checkApart edits = .error e ↔
    ∃ before a b after, edits = before ++ a :: b :: after ∧
      checkApart (before ++ [a]) = .ok () ∧ b.span.start < a.span.stop ∧
      e = .overlap a.span b.span := by
  induction edits with
  | nil =>
    refine ⟨nofun, ?_⟩
    rintro ⟨before, a, b, after, h, -⟩
    cases before <;> cases h
  | cons first edits ih =>
    cases edits with
    | nil =>
      refine ⟨nofun, ?_⟩
      rintro ⟨_ | ⟨_, before⟩, a, b, after, h, -⟩
      · cases h
      · cases before <;> cases h
    | cons second rest =>
      have hhead : ∀ {before a more}, second :: rest = before ++ a :: more →
          (before ++ [a]).head? = some second := by
        intro before a more h
        cases before <;> cases h <;> rfl
      rw [checkApart]
      split
      · rename_i hoverlap
        constructor
        · intro h
          cases h
          exact ⟨[], first, second, rest, rfl, rfl, hoverlap, rfl⟩
        · rintro ⟨_ | ⟨_, before⟩, a, b, after, h, hbefore, hlt, rfl⟩
          · cases h
            rfl
          · obtain ⟨rfl, htail⟩ := List.cons.inj h
            exact absurd hoverlap ((checkApart_cons_eq_ok.1 hbefore).1 second (hhead htail))
      · rename_i hapart
        rw [ih]
        constructor
        · rintro ⟨before, a, b, after, h, hbefore, hlt, he⟩
          refine ⟨first :: before, a, b, after, by rw [h]; rfl, ?_, hlt, he⟩
          refine checkApart_cons_eq_ok.2 ⟨fun other hother => ?_, hbefore⟩
          cases (hhead h).symm.trans hother
          exact hapart
        · rintro ⟨_ | ⟨_, before⟩, a, b, after, h, hbefore, hlt, he⟩
          · cases h
            exact absurd hlt hapart
          · exact ⟨before, a, b, after, (List.cons.inj h).2, (checkApart_cons_eq_ok.1 hbefore).2,
              hlt, he⟩

end Edit

namespace Removal

variable {source : Text} {current : Span} {rest spans runs : List Span} {e : EditError}

theorem joined_ne_nil (h : joined source current rest = .ok runs) : runs ≠ [] := by
  induction rest generalizing current runs with
  | nil =>
    cases h
    exact List.cons_ne_nil _ _
  | cons next rest ih =>
    rw [joined] at h
    split at h
    · cases h
    · split at h
      · exact ih h
      · obtain ⟨more, -, rfl⟩ := map_eq_ok.1 h
        exact List.cons_ne_nil _ _

/-- Ranges that were joined end before the next one starts. -/
theorem pairwise_of_joined (h : joined source current rest = .ok runs)
    (hle : ∀ s ∈ rest, s.start ≤ s.stop) :
    (current :: rest).Pairwise (fun a b => a.stop ≤ b.start) := by
  induction rest generalizing current runs with
  | nil => exact List.pairwise_singleton _ _
  | cons next rest ih =>
    obtain ⟨hnext, hmore⟩ := List.forall_mem_cons.1 hle
    rw [joined] at h
    split at h
    · cases h
    · rename_i horder
      have hbehind : (∀ s ∈ rest, next.stop ≤ s.start) ∧
          rest.Pairwise (fun a b => a.stop ≤ b.start) := by
        split at h
        · exact List.pairwise_cons.1 (ih h hmore)
        · obtain ⟨more, hjoined, -⟩ := map_eq_ok.1 h
          exact List.pairwise_cons.1 (ih hjoined hmore)
      have hall : ∀ s ∈ next :: rest, current.stop ≤ s.start := by
        intro s hs
        rcases List.mem_cons.1 hs with rfl | hs
        · exact Nat.not_lt.1 horder
        · have hlast := hbehind.1 s hs
          omega
      exact List.pairwise_cons.2 ⟨hall, List.pairwise_cons.2 hbehind⟩

theorem joined_eq_error : joined source current rest = .error e ↔
    ∃ before next after runs run, rest = before ++ next :: after ∧
      joined source current before = .ok (runs ++ [run]) ∧ next.start < run.stop ∧
      e = .overlap run next := by
  induction rest generalizing current with
  | nil =>
    refine ⟨nofun, ?_⟩
    rintro ⟨before, next, after, runs, run, h, -⟩
    cases before <;> cases h
  | cons first rest ih =>
    have halone : ∀ {runs run}, joined source current [] = .ok (runs ++ [run]) → run = current := by
      intro runs run h
      have hruns : [current] = runs ++ [run] := Except.ok.inj h
      exact (List.singleton_inj.1 (@List.append_inj' _ [] _ _ _ hruns rfl).2).symm
    rw [joined]
    split
    · rename_i hoverlap
      constructor
      · intro h
        cases h
        exact ⟨[], first, rest, [], current, rfl, rfl, hoverlap, rfl⟩
      · rintro ⟨_ | ⟨_, before⟩, next, after, runs, run, h, hbefore, hlt, rfl⟩
        · cases h
          cases halone hbefore
          rfl
        · cases h
          rw [joined, if_pos hoverlap] at hbefore
          cases hbefore
    · rename_i horder
      split
      · rename_i hcomma
        rw [ih]
        constructor
        · rintro ⟨before, next, after, runs, run, rfl, hbefore, hlt, he⟩
          refine ⟨first :: before, next, after, runs, run, rfl, ?_, hlt, he⟩
          rw [joined, if_neg horder, if_pos hcomma]
          exact hbefore
        · rintro ⟨_ | ⟨_, before⟩, next, after, runs, run, h, hbefore, hlt, he⟩
          · cases h
            cases halone hbefore
            exact absurd hlt horder
          · cases h
            rw [joined, if_neg horder, if_pos hcomma] at hbefore
            exact ⟨before, next, after, runs, run, rfl, hbefore, hlt, he⟩
      · rename_i hcomma
        rw [map_eq_error, ih]
        constructor
        · rintro ⟨before, next, after, runs, run, rfl, hbefore, hlt, he⟩
          refine ⟨first :: before, next, after, current :: runs, run, rfl, ?_, hlt, he⟩
          rw [joined, if_neg horder, if_neg hcomma, hbefore]
          rfl
        · rintro ⟨_ | ⟨_, before⟩, next, after, runs, run, h, hbefore, hlt, he⟩
          · cases h
            cases halone hbefore
            exact absurd hlt horder
          · cases h
            rw [joined, if_neg horder, if_neg hcomma] at hbefore
            obtain ⟨more, hmore, hruns⟩ := map_eq_ok.1 hbefore
            cases runs with
            | nil => exact absurd (List.cons.inj hruns).2 (joined_ne_nil hmore)
            | cons _ runs =>
              cases (List.cons.inj hruns).2
              exact ⟨before, next, after, runs, run, rfl, hmore, hlt, he⟩

/-- The first range that starts in the run before it is refused. -/
theorem groups_eq_error : groups source spans = .error e ↔
    ∃ before next after runs run, spans = before ++ next :: after ∧
      groups source before = .ok (runs ++ [run]) ∧ next.start < run.stop ∧
      e = .overlap run next := by
  cases spans with
  | nil =>
    refine ⟨nofun, ?_⟩
    rintro ⟨before, next, after, runs, run, h, -⟩
    cases before <;> cases h
  | cons first rest =>
    refine joined_eq_error.trans ⟨?_, ?_⟩
    · rintro ⟨before, next, after, runs, run, rfl, h⟩
      exact ⟨first :: before, next, after, runs, run, rfl, h⟩
    · rintro ⟨_ | ⟨_, before⟩, next, after, runs, run, h, hbefore, hlt, he⟩
      · have hruns : [] = runs ++ [run] := Except.ok.inj hbefore
        cases runs <;> cases hruns
      · cases h
        exact ⟨before, next, after, runs, run, rfl, hbefore, hlt, he⟩

/-- The directives of one entry are all found, and lie apart. -/
def IsRemovable (source : Text) (directives : List DirectiveSpan) : Prop :=
  (∀ d ∈ directives, IsKeyed source d) ∧ (directives.map DirectiveSpan.span).Pairwise Span.Apart

/-- What stands where a directive should be. -/
def missed (source : Text) (d : DirectiveSpan) : EditError :=
  .noDirective d.directive.key d.span.start
    ((source.slice? d.span.start d.span.stop).getD []).firstLine

theorem check_eq_error {d : DirectiveSpan} :
    check source d = .error e ↔ ¬ IsKeyed source d ∧ e = missed source d := by
  unfold check IsKeyed
  dsimp only
  split
  · rename_i hkeyed
    exact ⟨nofun, fun h => absurd hkeyed h.1⟩
  · rename_i hkeyed
    exact ⟨fun h => ⟨hkeyed, by cases h; rfl⟩, fun h => by rw [h.2]; rfl⟩

variable {directives : List DirectiveSpan}

theorem mapM_check_eq_ok : directives.mapM (check source) = .ok spans ↔
    (∀ d ∈ directives, IsKeyed source d) ∧ spans = directives.map DirectiveSpan.span :=
  mapM_eq_map fun d _ s => by rw [check_eq_ok, IsKeyed, and_comm]

theorem edits_isOk_iff : (∃ es, edits source directives = .ok es) ↔
    IsRemovable source directives := by
  constructor
  · rintro ⟨es, h⟩
    obtain ⟨spans, hspans, h⟩ := bind_eq_ok.1 h
    obtain ⟨runs, hgroups, -⟩ := bind_eq_ok.1 h
    obtain ⟨hkeyed, rfl⟩ := mapM_check_eq_ok.1 hspans
    refine ⟨hkeyed, ?_⟩
    have hfits := inOrder_fits hkeyed
    have horder : (inOrder directives).Pairwise (fun a b => a.stop ≤ b.start) := by
      unfold inOrder at hfits ⊢
      cases hsorted : sortBy (fun a b => a.start < b.start)
          (directives.map DirectiveSpan.span) with
      | nil => exact .nil
      | cons first rest =>
        rw [hsorted] at hgroups hfits
        exact pairwise_of_joined hgroups fun s hs =>
          Nat.le_of_lt (hfits s (List.mem_cons_of_mem _ hs)).2
    exact ((inOrder_perm directives).pairwise_iff fun {_ _} h => h.symm).1 (horder.imp Or.inl)
  · rintro ⟨hkeyed, hapart⟩
    exact ⟨_, (edits_eq_ok hapart).2 ⟨hkeyed, rfl⟩⟩

/-- The first directive that is not found is refused, or else the first one that overlaps those
before it in the source. -/
theorem edits_eq_error : edits source directives = .error e ↔
    (∃ before d after, directives = before ++ d :: after ∧ (∀ x ∈ before, IsKeyed source x) ∧
      ¬ IsKeyed source d ∧ e = missed source d) ∨
    (∀ d ∈ directives, IsKeyed source d) ∧ ∃ before next after runs run,
      inOrder directives = before ++ next :: after ∧ groups source before = .ok (runs ++ [run]) ∧
        next.start < run.stop ∧ e = .overlap run next := by
  have hchecked : ∀ d : DirectiveSpan, (∃ s, check source d = .ok s) ↔ IsKeyed source d :=
    fun d => ⟨fun ⟨s, hs⟩ => (check_eq_ok.1 hs).2, fun h => ⟨d.span, check_eq_ok.2 ⟨rfl, h⟩⟩⟩
  have htogether : ∀ {x : Except EditError (List Span)},
      (x >>= fun together => (pure (together.map fun s => (⟨range source s, []⟩ : Edit)) :
        Except EditError (List Edit))) = .error e ↔ x = .error e := by
    intro x
    rw [bind_eq_error]
    exact ⟨fun h => h.resolve_right nofun, .inl⟩
  rw [edits, bind_eq_error, mapM_eq_error]
  simp only [hchecked, check_eq_error, htogether]
  refine or_congr Iff.rfl ⟨?_, ?_⟩
  · rintro ⟨spans, hspans, h⟩
    obtain ⟨hkeyed, rfl⟩ := mapM_check_eq_ok.1 hspans
    exact ⟨hkeyed, groups_eq_error.1 h⟩
  · rintro ⟨hkeyed, h⟩
    exact ⟨_, mapM_check_eq_ok.2 ⟨hkeyed, rfl⟩, groups_eq_error.2 h⟩

end Removal

namespace Rewrite

open Removal

variable {source : Text} {t : RouteTable} {plans : List PagePlan} {pagesAlias : Text}
  {e : EditError}

/-- The error that a rewrite is refused with: that of the first plan whose page is not named in
the source; else that of the first entry whose directives are not all found, or overlap; else that
of the edits. -/
inductive Refuses (source : Text) (t : RouteTable) (plans : List PagePlan) (pagesAlias : Text) :
    EditError → Prop
  | component {before after : List PagePlan} {plan : PagePlan}
      (hplans : plans = before ++ plan :: after)
      (hbefore : ∀ other ∈ before, IsQuoted source other) (hplan : ¬ IsQuoted source plan) :
      Refuses source t plans pagesAlias (.noComponent plan.componentSpan.start
        ((source.slice? plan.componentSpan.start plan.componentSpan.stop).getD []))
  /-- the first directive of the first entry that is not found -/
  | directive {before after : List Entry} {node : Entry} {own more : List DirectiveSpan}
      {d : DirectiveSpan} (hplans : ∀ plan ∈ plans, IsQuoted source plan)
      (hentries : Entry.allNodes t.entries = before ++ node :: after)
      (hbefore : ∀ other ∈ before, IsRemovable source other.directives)
      (hnode : node.directives = own ++ d :: more)
      (hown : ∀ other ∈ own, IsKeyed source other) (hd : ¬ IsKeyed source d) :
      Refuses source t plans pagesAlias (missed source d)
  /-- the first directive that starts in the run of directives before it -/
  | directives {before after : List Entry} {node : Entry} {first rest runs : List Span}
      {run next : Span} (hplans : ∀ plan ∈ plans, IsQuoted source plan)
      (hentries : Entry.allNodes t.entries = before ++ node :: after)
      (hbefore : ∀ other ∈ before, IsRemovable source other.directives)
      (hkeyed : ∀ d ∈ node.directives, IsKeyed source d)
      (horder : inOrder node.directives = first ++ next :: rest)
      (hruns : groups source first = .ok (runs ++ [run])) (hoverlap : next.start < run.stop) :
      Refuses source t plans pagesAlias (.overlap run next)
  /-- the place of the imports is not in the source -/
  | anchor {n : Nat} (hplans : ∀ plan ∈ plans, IsQuoted source plan)
      (hentries : ∀ node ∈ Entry.allNodes t.entries, IsRemovable source node.directives)
      (himports : missingImports t pagesAlias [] plans ≠ [])
      (hanchor : t.importAnchor = some n) (hout : source.isBoundary n = false) :
      Refuses source t plans pagesAlias (.outOfBounds ⟨n, n⟩)
  /-- the first edit that starts in the one before it -/
  | edits {first rest : List Edit} {a b : Edit} (hplans : ∀ plan ∈ plans, IsQuoted source plan)
      (hentries : ∀ node ∈ Entry.allNodes t.entries, IsRemovable source node.directives)
      (hfits : ∀ x ∈ edits source t plans pagesAlias, Edit.fits source x.span = true)
      (horder : sortBy Edit.precedes (edits source t plans pagesAlias) = first ++ a :: b :: rest)
      (hfirst : (first ++ [a]).Pairwise fun a b => a.span.stop ≤ b.span.start)
      (hoverlap : b.span.start < a.span.stop) :
      Refuses source t plans pagesAlias (.overlap a.span b.span)

theorem componentEdit_eq_error {plan : PagePlan} : componentEdit source plan = .error e ↔
    ¬ IsQuoted source plan ∧ e = .noComponent plan.componentSpan.start
      ((source.slice? plan.componentSpan.start plan.componentSpan.stop).getD []) := by
  unfold componentEdit IsQuoted
  dsimp only
  split
  · rename_i hquoted
    exact ⟨nofun, fun h => absurd hquoted h.1⟩
  · rename_i hquoted
    exact ⟨fun h => ⟨hquoted, by cases h; rfl⟩, fun h => by rw [h.2]⟩

theorem componentEdit_isOk_iff {plan : PagePlan} :
    (∃ x, componentEdit source plan = .ok x) ↔ IsQuoted source plan :=
  ⟨fun ⟨_, h⟩ => (componentEdit_eq_ok.1 h).2, fun h => ⟨_, componentEdit_eq_ok.2 ⟨rfl, h⟩⟩⟩

section Checked

variable (hplans : ∀ plan ∈ plans, IsQuoted source plan)
  (hentries : ∀ node ∈ Entry.allNodes t.entries, IsRemovable source node.directives)
include hplans hentries

/-- A rewrite whose plans and directives are found makes its edits. -/
theorem rewrite_eq_applyAll : rewrite source t plans pagesAlias =
    (Edit.applyAll source (edits source t plans pagesAlias)).map fun text =>
      ⟨text, missingImports t pagesAlias [] plans,
        !(edits source t plans pagesAlias).isEmpty⟩ := by
  have hcomponents : plans.mapM (componentEdit source) =
      .ok (plans.map fun plan => ⟨plan.componentSpan, plan.identifier⟩) :=
    (mapM_eq_map (p := IsQuoted source) (g := fun plan => (⟨plan.componentSpan,
      plan.identifier⟩ : Edit)) fun plan _ x => by
        rw [componentEdit_eq_ok, IsQuoted, and_comm]).2 ⟨hplans, rfl⟩
  have hremovals : (directivesOf t.entries).mapM (Removal.edits source) =
      .ok ((Entry.allNodes t.entries).map fun node =>
        (ranges source node.directives).map fun s => ⟨s, []⟩) := by
    rw [directivesOf_eq, List.mapM_map]
    exact (mapM_eq_map (p := fun node => IsRemovable source node.directives) (g := fun node =>
      (ranges source node.directives).map fun s => (⟨s, []⟩ : Edit)) fun node hmem es => by
        rw [Function.comp_apply, edits_eq_ok (hentries node hmem).2, IsRemovable,
          and_iff_left (hentries node hmem).2]).2 ⟨hentries, rfl⟩
  have hflatten : ((Entry.allNodes t.entries).map fun node =>
      (ranges source node.directives).map (fun s => (⟨s, []⟩ : Edit))).flatten =
        (removals source t).map (fun s => ⟨s, []⟩) := by
    rw [removals, List.map_flatMap, List.flatMap_def]
  unfold rewrite
  rw [hcomponents, hremovals]
  show (Edit.applyAll source _ >>= _) = _
  rw [hflatten]
  show (Edit.applyAll source (edits source t plans pagesAlias) >>= _) = _
  cases Edit.applyAll source (edits source t plans pagesAlias) <;> rfl

omit hplans in
theorem removals_fits : ∀ s ∈ removals source t, Edit.fits source s = true := by
  intro s hs
  obtain ⟨node, hmem, hs⟩ := List.mem_flatMap.1 hs
  obtain ⟨hkeyed, hapart⟩ := hentries node hmem
  exact ranges_fits hkeyed hapart s hs

/-- Where imports are added at a place outside the source, the edits are refused for it. -/
theorem checkBounds_anchor {n : Nat} (himports : missingImports t pagesAlias [] plans ≠ [])
    (hanchor : t.importAnchor = some n) (hout : source.isBoundary n = false) :
    Edit.checkBounds source (sortBy Edit.precedes (edits source t plans pagesAlias)) =
      .error (.outOfBounds ⟨n, n⟩) := by
  have hperm := sortBy_perm Edit.precedes (edits source t plans pagesAlias)
  obtain ⟨x, hx, hspan⟩ : ∃ x ∈ edits source t plans pagesAlias, x.span = ⟨n, n⟩ := by
    have h := importEdits_inserts source t.importAnchor (missingImports t pagesAlias [] plans)
    unfold edits
    generalize missingImports t pagesAlias [] plans = lines at h himports ⊢
    generalize importEdits source t.importAnchor lines = es at h ⊢
    rw [hanchor] at h
    cases h with
    | nothing => exact absurd rfl himports
    | atAnchor _ _ => exact ⟨_, List.mem_append_right _ List.mem_cons_self, rfl⟩
  cases hbounds : Edit.checkBounds source
      (sortBy Edit.precedes (edits source t plans pagesAlias)) with
  | ok _ =>
    have hfits := Edit.checkBounds_eq_ok.1 hbounds x (hperm.mem_iff.2 hx)
    rw [hspan] at hfits
    cases hout.symm.trans (Edit.fits_iff.1 hfits).2.1
  | error e =>
    obtain ⟨before, a, after, hsorted, -, ha, rfl⟩ := Edit.checkBounds_eq_error.1 hbounds
    have hmem : a ∈ edits source t plans pagesAlias := by
      rw [← hperm.mem_iff, hsorted]
      exact List.mem_append_right _ List.mem_cons_self
    obtain ⟨m, hm, -, hanchor', -⟩ :=
      anchor_of_not_fits hplans (removals_fits hentries) hmem ha
    cases hanchor.symm.trans hanchor'
    rw [hm]

/-- Edits are refused for the place of the imports, or else since two of them overlap. -/
theorem applyAll_eq_error_iff : Edit.applyAll source (edits source t plans pagesAlias) = .error e ↔
    (∃ n, missingImports t pagesAlias [] plans ≠ [] ∧ t.importAnchor = some n ∧
      source.isBoundary n = false ∧ e = .outOfBounds ⟨n, n⟩) ∨
    (∀ x ∈ edits source t plans pagesAlias, Edit.fits source x.span = true) ∧
      ∃ first a b rest, sortBy Edit.precedes (edits source t plans pagesAlias) =
          first ++ a :: b :: rest ∧
        (first ++ [a]).Pairwise (fun a b => a.span.stop ≤ b.span.start) ∧
        b.span.start < a.span.stop ∧ e = .overlap a.span b.span := by
  have hperm := sortBy_perm Edit.precedes (edits source t plans pagesAlias)
  have hfits_iff : Edit.checkBounds source
      (sortBy Edit.precedes (edits source t plans pagesAlias)) = .ok () ↔
        ∀ x ∈ edits source t plans pagesAlias, Edit.fits source x.span = true := by
    rw [Edit.checkBounds_eq_ok]
    simp only [hperm.mem_iff]
  have hle : (∀ x ∈ edits source t plans pagesAlias, Edit.fits source x.span = true) →
      ∀ {first a more}, sortBy Edit.precedes (edits source t plans pagesAlias) =
        first ++ a :: more → ∀ x ∈ first ++ [a], x.span.start ≤ x.span.stop := by
    intro hfits first a more hsorted x hx
    refine (Edit.fits_iff.1 (hfits x (hperm.mem_iff.1 ?_))).1
    rw [hsorted, List.append_cons]
    exact List.mem_append_left _ hx
  unfold Edit.applyAll
  dsimp only
  constructor
  · intro h
    rcases bind_eq_error.1 h with hbounds | ⟨_, hbounds, h⟩
    · obtain ⟨before, a, after, hsorted, -, ha, rfl⟩ := Edit.checkBounds_eq_error.1 hbounds
      have hmem : a ∈ edits source t plans pagesAlias := by
        rw [← hperm.mem_iff, hsorted]
        exact List.mem_append_right _ List.mem_cons_self
      obtain ⟨n, hn, himports, hanchor, hout⟩ :=
        anchor_of_not_fits hplans (removals_fits hentries) hmem ha
      exact .inl ⟨n, himports, hanchor, hout, by rw [hn]⟩
    · have hfits := hfits_iff.1 hbounds
      rcases bind_eq_error.1 h with hapart | ⟨_, -, ⟨⟩⟩
      obtain ⟨first, a, b, rest, hsorted, hfirst, hoverlap, he⟩ := Edit.checkApart_eq_error.1 hapart
      exact .inr ⟨hfits, first, a, b, rest, hsorted,
        (Edit.checkApart_eq_ok (hle hfits hsorted)).1 hfirst, hoverlap, he⟩
  · rintro (⟨n, himports, hanchor, hout, rfl⟩ |
      ⟨hfits, first, a, b, rest, hsorted, hfirst, hoverlap, rfl⟩)
    · exact bind_eq_error.2 (.inl (checkBounds_anchor hplans hentries himports hanchor hout))
    · have hapart := (Edit.checkApart_eq_ok (hle hfits hsorted)).2 hfirst
      exact bind_eq_error.2 (.inr ⟨(), hfits_iff.2 hfits, bind_eq_error.2 (.inl
        (Edit.checkApart_eq_error.2 ⟨first, a, b, rest, hsorted, hapart, hoverlap, rfl⟩))⟩)

end Checked

/-- The steps of a rewrite that may be refused. -/
theorem rewrite_eq_error_cases : rewrite source t plans pagesAlias = .error e ↔
    plans.mapM (componentEdit source) = .error e ∨
    (∀ plan ∈ plans, IsQuoted source plan) ∧
      ((Entry.allNodes t.entries).mapM (fun node => Removal.edits source node.directives) =
          .error e ∨
        (∀ node ∈ Entry.allNodes t.entries, IsRemovable source node.directives) ∧
          Edit.applyAll source (edits source t plans pagesAlias) = .error e) := by
  have hplans : (∃ es, plans.mapM (componentEdit source) = .ok es) ↔
      ∀ plan ∈ plans, IsQuoted source plan := by
    rw [mapM_isOk_iff]
    simp only [componentEdit_isOk_iff]
  have hnodes : (directivesOf t.entries).mapM (Removal.edits source) =
      (Entry.allNodes t.entries).mapM fun node => Removal.edits source node.directives := by
    rw [directivesOf_eq, List.mapM_map]
    rfl
  have hentries : (∃ es, (directivesOf t.entries).mapM (Removal.edits source) = .ok es) ↔
      ∀ node ∈ Entry.allNodes t.entries, IsRemovable source node.directives := by
    rw [hnodes, mapM_isOk_iff]
    simp only [edits_isOk_iff]
  have hmade : (∀ plan ∈ plans, IsQuoted source plan) →
      (∀ node ∈ Entry.allNodes t.entries, IsRemovable source node.directives) →
        (rewrite source t plans pagesAlias = .error e ↔
          Edit.applyAll source (edits source t plans pagesAlias) = .error e) := by
    intro hplans hentries
    rw [rewrite_eq_applyAll hplans hentries, map_eq_error]
  rw [← hnodes]
  constructor
  · intro h
    have hsteps := h
    rcases bind_eq_error.1 hsteps with hfails | ⟨components, hcomponents, hsteps⟩
    · exact .inl hfails
    · have hquoted := hplans.1 ⟨components, hcomponents⟩
      rcases bind_eq_error.1 hsteps with hfails | ⟨removals, hremovals, -⟩
      · exact .inr ⟨hquoted, .inl hfails⟩
      · have hremovable := hentries.1 ⟨removals, hremovals⟩
        exact .inr ⟨hquoted, .inr ⟨hremovable, (hmade hquoted hremovable).1 h⟩⟩
  · rintro (hfails | ⟨hquoted, hfails | ⟨hremovable, hfails⟩⟩)
    · exact bind_eq_error.2 (.inl hfails)
    · obtain ⟨components, hcomponents⟩ := hplans.2 hquoted
      exact bind_eq_error.2 (.inr ⟨components, hcomponents, bind_eq_error.2 (.inl hfails)⟩)
    · exact (hmade hquoted hremovable).2 hfails

/-- A rewrite is refused exactly with the error that it should be refused with. -/
theorem rewrite_eq_error_iff :
    rewrite source t plans pagesAlias = .error e ↔ Refuses source t plans pagesAlias e := by
  rw [rewrite_eq_error_cases, mapM_eq_error, mapM_eq_error]
  simp only [componentEdit_isOk_iff, componentEdit_eq_error, edits_isOk_iff, edits_eq_error]
  constructor
  · rintro (⟨before, plan, after, hplans, hbefore, hplan, rfl⟩ | ⟨hplans, h | ⟨hentries, h⟩⟩)
    · exact .component hplans hbefore hplan
    · obtain ⟨before, node, after, hentries, hbefore, h⟩ := h
      rcases h with ⟨own, d, more, hnode, hown, hd, rfl⟩ |
        ⟨hkeyed, first, next, rest, runs, run, horder, hruns, hoverlap, rfl⟩
      · exact .directive hplans hentries hbefore hnode hown hd
      · exact .directives hplans hentries hbefore hkeyed horder hruns hoverlap
    · rcases (applyAll_eq_error_iff hplans hentries).1 h with
        ⟨n, himports, hanchor, hout, rfl⟩ |
        ⟨hfits, first, a, b, rest, horder, hfirst, hoverlap, rfl⟩
      · exact .anchor hplans hentries himports hanchor hout
      · exact .edits hplans hentries hfits horder hfirst hoverlap
  · intro h
    cases h with
    | component hplans hbefore hplan => exact .inl ⟨_, _, _, hplans, hbefore, hplan, rfl⟩
    | directive hplans hentries hbefore hnode hown hd =>
      exact .inr ⟨hplans, .inl ⟨_, _, _, hentries, hbefore, .inl ⟨_, _, _, hnode, hown, hd, rfl⟩⟩⟩
    | directives hplans hentries hbefore hkeyed horder hruns hoverlap =>
      exact .inr ⟨hplans, .inl ⟨_, _, _, hentries, hbefore,
        .inr ⟨hkeyed, _, _, _, _, _, horder, hruns, hoverlap, rfl⟩⟩⟩
    | anchor hplans hentries himports hanchor hout =>
      exact .inr ⟨hplans, .inr ⟨hentries, (applyAll_eq_error_iff hplans hentries).2
        (.inl ⟨_, himports, hanchor, hout, rfl⟩)⟩⟩
    | edits hplans hentries hfits horder hfirst hoverlap =>
      exact .inr ⟨hplans, .inr ⟨hentries, (applyAll_eq_error_iff hplans hentries).2
        (.inr ⟨hfits, _, _, _, _, horder, hfirst, hoverlap, rfl⟩)⟩⟩

/-- What has to hold for a rewrite not to be refused. -/
theorem rewrite_succeeds_iff : (∃ r, rewrite source t plans pagesAlias = .ok r) ↔
    (∀ plan ∈ plans, IsQuoted source plan) ∧
    (∀ node ∈ Entry.allNodes t.entries, IsRemovable source node.directives) ∧
    (∀ x ∈ edits source t plans pagesAlias, Edit.fits source x.span = true) ∧
    ((edits source t plans pagesAlias).map Edit.span).Pairwise Span.Apart := by
  rw [List.pairwise_map, ← Edit.applyAll_isOk_iff]
  constructor
  · rintro ⟨r, h⟩
    have hsteps := h
    obtain ⟨components, hcomponents, hsteps⟩ := bind_eq_ok.1 hsteps
    obtain ⟨removals, hremovals, -⟩ := bind_eq_ok.1 hsteps
    have hplans : ∀ plan ∈ plans, IsQuoted source plan := fun plan hplan =>
      componentEdit_isOk_iff.1 (mapM_isOk_iff.1 ⟨components, hcomponents⟩ plan hplan)
    rw [directivesOf_eq, List.mapM_map] at hremovals
    have hentries : ∀ node ∈ Entry.allNodes t.entries, IsRemovable source node.directives :=
      fun node hmem => edits_isOk_iff.1 (mapM_isOk_iff.1 ⟨removals, hremovals⟩ node hmem)
    rw [rewrite_eq_applyAll hplans hentries] at h
    obtain ⟨text, htext, -⟩ := map_eq_ok.1 h
    exact ⟨hplans, hentries, text, htext⟩
  · rintro ⟨hplans, hentries, text, htext⟩
    rw [rewrite_eq_applyAll hplans hentries, htext]
    exact ⟨_, rfl⟩

/-- The ways in which a rewrite can be refused. -/
theorem rewrite_fails_iff : (∃ e, rewrite source t plans pagesAlias = .error e) ↔
    (∃ plan ∈ plans, ¬ IsQuoted source plan) ∨
    (∃ node ∈ Entry.allNodes t.entries, ∃ d ∈ node.directives, ¬ IsKeyed source d) ∨
    (∃ node ∈ Entry.allNodes t.entries,
      ¬ (node.directives.map DirectiveSpan.span).Pairwise Span.Apart) ∨
    ¬ ((edits source t plans pagesAlias).map Edit.span).Pairwise Span.Apart ∨
    missingImports t pagesAlias [] plans ≠ [] ∧
      ∃ n, t.importAnchor = some n ∧ source.isBoundary n = false := by
  constructor
  · rintro ⟨e, h⟩
    cases rewrite_eq_error_iff.1 h with
    | component hplans hbefore hplan =>
      exact .inl ⟨_, hplans ▸ List.mem_append_right _ List.mem_cons_self, hplan⟩
    | directive hplans hentries hbefore hnode hown hd =>
      exact .inr (.inl ⟨_, hentries ▸ List.mem_append_right _ List.mem_cons_self, _,
        hnode ▸ List.mem_append_right _ List.mem_cons_self, hd⟩)
    | directives hplans hentries hbefore hkeyed horder hruns hoverlap =>
      refine .inr (.inr (.inl
        ⟨_, hentries ▸ List.mem_append_right _ List.mem_cons_self, fun hapart => ?_⟩))
      have hfails := edits_eq_error.2
        (.inr ⟨hkeyed, _, _, _, _, _, horder, hruns, hoverlap, rfl⟩)
      obtain ⟨es, hes⟩ := edits_isOk_iff.2 ⟨hkeyed, hapart⟩
      cases hfails.symm.trans hes
    | anchor hplans hentries himports hanchor hout =>
      exact .inr (.inr (.inr (.inr ⟨himports, _, hanchor, hout⟩)))
    | edits hplans hentries hfits horder hfirst hoverlap =>
      refine .inr (.inr (.inr (.inl fun hapart => ?_)))
      obtain ⟨r, hr⟩ := rewrite_succeeds_iff.2 ⟨hplans, hentries, hfits, hapart⟩
      cases h.symm.trans hr
  · intro h
    cases hr : rewrite source t plans pagesAlias with
    | error e => exact ⟨e, rfl⟩
    | ok r =>
      obtain ⟨hplans, hentries, hfits, hapart⟩ := rewrite_succeeds_iff.1 ⟨r, hr⟩
      rcases h with ⟨plan, hplan, hnot⟩ | ⟨node, hmem, d, hd, hnot⟩ |
        ⟨node, hmem, hnot⟩ | hnot | ⟨himports, n, hanchor, hout⟩
      · exact absurd (hplans plan hplan) hnot
      · exact absurd ((hentries node hmem).1 d hd) hnot
      · exact absurd (hentries node hmem).2 hnot
      · exact absurd hapart hnot
      · have hbounds := checkBounds_anchor hplans hentries himports hanchor hout
        have hinside := Edit.checkBounds_eq_ok.2 fun x hx =>
          hfits x ((sortBy_perm Edit.precedes _).mem_iff.1 hx)
        cases hbounds.symm.trans hinside

/-- No rewrite misses a part of the source. It fails exactly if a page is not named by a quoted
text where its plan says, a directive is not found, two directives of one entry overlap, two edits
overlap, or imports are to be added at a place outside the source. Its error is that of the first
plan, or else of the first entry, that is refused, and says that a range is not in the source only
of the place of the imports. -/
theorem rewrite_refuses (source : Text) (t : RouteTable) (plans : List PagePlan)
    (pagesAlias : Text) :
    rewrite? source t plans pagesAlias = Slicing.given (rewrite source t plans pagesAlias) ∧
    ((∃ e, rewrite source t plans pagesAlias = .error e) ↔
      (∃ plan ∈ plans, ¬ IsQuoted source plan) ∨
      (∃ node ∈ Entry.allNodes t.entries, ∃ d ∈ node.directives, ¬ IsKeyed source d) ∨
      (∃ node ∈ Entry.allNodes t.entries,
        ¬ (node.directives.map DirectiveSpan.span).Pairwise Span.Apart) ∨
      ¬ ((edits source t plans pagesAlias).map Edit.span).Pairwise Span.Apart ∨
      missingImports t pagesAlias [] plans ≠ [] ∧
        ∃ n, t.importAnchor = some n ∧ source.isBoundary n = false) ∧
    (∀ e, rewrite source t plans pagesAlias = .error e ↔ Refuses source t plans pagesAlias e) ∧
    ∀ s, rewrite source t plans pagesAlias = .error (.outOfBounds s) →
      missingImports t pagesAlias [] plans ≠ [] ∧
        ∃ n, s = ⟨n, n⟩ ∧ t.importAnchor = some n ∧ source.isBoundary n = false := by
  refine ⟨rewrite?_eq source t plans pagesAlias, rewrite_fails_iff,
    fun e => rewrite_eq_error_iff, fun s h => ?_⟩
  cases rewrite_eq_error_iff.1 h with
  | anchor _ _ himports hanchor hout => exact ⟨himports, _, rfl, hanchor, hout⟩

end Rewrite
end RoutePages
