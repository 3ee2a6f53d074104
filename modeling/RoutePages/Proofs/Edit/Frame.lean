import RoutePages.Edit.Rewrite
import RoutePages.Proofs.Edit.Taken
import RoutePages.Proofs.Route.Nodes
import RoutePages.Proofs.Succeeds

/-!
# What a rewrite changes

A rewrite replaces the range of each planned component, takes the directives away
and inserts the missing imports, all at once. Every other byte of the source is kept.
-/
namespace RoutePages

namespace Removal

/-- Ranges that are removed as one. -/
structure Cut where
  span : Span
  /-- the ranges in it, in order -/
  members : List Span

variable {source : Text}

theorem exists_of_isComma {s : Text} (h : isComma s = true) :
    ∃ lead tail, s = lead ++ ',' :: tail ∧ (∀ c ∈ lead, isGap c = true) ∧
      ∀ c ∈ tail, isGap c = true := by
  obtain ⟨tail, htail, hgap, -⟩ := Text.dropEndWhile_split (s.dropWhile isGap) isGap
  have hcomma : Text.dropEndWhile (s.dropWhile isGap) isGap = [','] := by simpa [isComma] using h
  refine ⟨s.takeWhile isGap, tail, ?_, fun c hc => List.all_eq_true.1 List.all_takeWhile c hc, hgap⟩
  rw [hcomma] at htail
  exact List.takeWhile_append_dropWhile.symm.trans (congrArg _ htail)

/-- A comma between gaps is taken away between two ranges that are removed together. -/
theorem taken_of_isComma {a b : Nat} (h : isComma ((source.slice? a b).getD []) = true) :
    Taken source a b [] 1 := by
  cases hs : source.slice? a b with
  | none =>
    rw [hs] at h
    exact absurd h (by decide)
  | some s =>
    rw [hs] at h
    obtain ⟨before, after, rfl, rfl, rfl⟩ := Text.slice?_eq_some.1 hs
    obtain ⟨lead, tail, rfl, hlead, htail⟩ := exists_of_isComma h
    have hfirst := Taken.blanks before lead (',' :: tail ++ after) rfl
      fun c hc => isBlank_of_isGap (hlead c hc)
    have hsecond := Taken.commaBlanks (before ++ lead) tail after rfl
      fun c hc => isBlank_of_isGap (htail c hc)
    rw [← Text.size_append] at hfirst
    have hall := hfirst.append (by simpa using hsecond)
    rw [← Text.size_append]
    simpa using hall

theorem beginsWithKey_nil (d : Directive) : beginsWithKey [] d.key = false := by
  cases d <;> decide

theorem check_eq_ok {d : DirectiveSpan} {s : Span} : check source d = .ok s ↔
    s = d.span ∧
      beginsWithKey ((source.slice? d.span.start d.span.stop).getD []) d.directive.key = true := by
  rw [check]
  split
  · rename_i h
    simp [h, eq_comm]
  · rename_i h
    simp [h]

/-- The range of a checked directive lies in the source and is not empty. -/
theorem fits_of_beginsWithKey {s : Span} {d : Directive}
    (h : beginsWithKey ((source.slice? s.start s.stop).getD []) d.key = true) :
    Edit.fits source s = true ∧ s.start < s.stop := by
  cases hs : source.slice? s.start s.stop with
  | none =>
    rw [hs, Option.getD_none, beginsWithKey_nil] at h
    cases h
  | some found =>
    have hfound : Text.size found ≠ 0 := by
      intro hz
      rw [hs, Text.size_eq_zero hz, Option.getD_some, beginsWithKey_nil] at h
      cases h
    obtain ⟨hfits, hstop⟩ := Edit.fits_of_slice? hs
    exact ⟨hfits, by omega⟩

/-- A cut lies in the source and holds nothing but its members and, between each two, a comma
between gaps. -/
structure Cut.Joined (source : Text) (x : Cut) : Prop where
  fits : Edit.fits source x.span = true
  first : x.members.head?.map Span.start = some x.span.start
  last : x.members.getLast?.map Span.stop = some x.span.stop
  taken : ∃ commas, commas + 1 = x.members.length ∧
    Taken source x.span.start x.span.stop x.members commas

theorem Cut.Joined.single {s : Span} (h : Edit.fits source s = true) :
    Cut.Joined source ⟨s, [s]⟩ :=
  ⟨h, rfl, rfl, 0, rfl, .directive (Edit.fits_iff.1 h).1 (.nothing _)⟩

theorem Cut.Joined.extend {x : Cut} {s : Span} (hx : x.Joined source)
    (hs : Edit.fits source s = true)
    (hcomma : isComma ((source.slice? x.span.stop s.start).getD []) = true) :
    Cut.Joined source ⟨⟨x.span.start, s.stop⟩, x.members ++ [s]⟩ := by
  obtain ⟨commas, hlen, htaken⟩ := hx.taken
  obtain ⟨hxle, hxstart, hxstop⟩ := Edit.fits_iff.1 hx.fits
  obtain ⟨hle, hstart, hstop⟩ := Edit.fits_iff.1 hs
  have hbetween := taken_of_isComma hcomma
  have hgap := hbetween.start_le_stop
  refine ⟨Edit.fits_iff.2 ⟨by dsimp only; omega, hxstart, hstop⟩, ?_, by simp, commas + 1, ?_, ?_⟩
  · have hne : x.members ≠ [] := by
      intro hnil
      rw [hnil] at hlen
      cases hlen
    rw [List.head?_append_of_ne_nil _ hne]
    exact hx.first
  · simp [hlen]
  · have hlast : Taken source s.start s.stop [s] 0 := .directive hle (.nothing _)
    simpa using (htaken.append hbetween).append hlast

/-- Joining ranges only puts them together: no member is lost. -/
theorem joined_cuts {x : Cut} {rest spans : List Span} (hx : x.Joined source)
    (hrest : ∀ s ∈ rest, Edit.fits source s = true) (h : joined source x.span rest = .ok spans) :
    ∃ cuts : List Cut, spans = cuts.map Cut.span ∧
      cuts.flatMap Cut.members = x.members ++ rest ∧ ∀ y ∈ cuts, y.Joined source := by
  induction rest generalizing x spans with
  | nil =>
    cases h
    exact ⟨[x], rfl, by simp, by simpa using hx⟩
  | cons s rest ih =>
    have hs := hrest s List.mem_cons_self
    have hmore : ∀ s ∈ rest, Edit.fits source s = true := fun s h => hrest s (List.mem_cons_of_mem _ h)
    rw [joined] at h
    split at h
    · cases h
    · split at h
      · rename_i hcomma
        obtain ⟨cuts, hspans, hmembers, hall⟩ := ih (hx.extend hs hcomma) hmore h
        exact ⟨cuts, hspans, by rw [hmembers]; simp, hall⟩
      · obtain ⟨more, hj, rfl⟩ := map_eq_ok.1 h
        obtain ⟨cuts, hspans, hmembers, hall⟩ := ih (Cut.Joined.single hs) hmore hj
        refine ⟨x :: cuts, by rw [hspans]; rfl, by rw [List.flatMap_cons, hmembers]; rfl, ?_⟩
        intro y hy
        rcases List.mem_cons.1 hy with rfl | hy
        · exact hx
        · exact hall y hy

theorem groups_cuts {all spans : List Span} (hall : ∀ s ∈ all, Edit.fits source s = true)
    (h : groups source all = .ok spans) :
    ∃ cuts : List Cut, spans = cuts.map Cut.span ∧ cuts.flatMap Cut.members = all ∧
      ∀ y ∈ cuts, y.Joined source := by
  cases all with
  | nil =>
    cases h
    exact ⟨[], rfl, rfl, by simp⟩
  | cons s rest =>
    exact joined_cuts (Cut.Joined.single (hall s List.mem_cons_self))
      (fun s h => hall s (List.mem_cons_of_mem _ h)) h

/-- A cut widened to the range of its removal. -/
def Cut.widened (source : Text) (x : Cut) : Cut := ⟨range source x.span, x.members⟩

/-- A removal takes away its members, and no more commas than members. -/
def Cut.IsClean (source : Text) (x : Cut) : Prop :=
  ∃ commas, commas ≤ x.members.length ∧ Taken source x.span.start x.span.stop x.members commas

theorem Cut.Joined.widened_isClean {x : Cut} (h : x.Joined source) :
    (x.widened source).IsClean source := by
  obtain ⟨commas, hlen, htaken⟩ := h.taken
  obtain ⟨n, hn, hrange⟩ := range_taken h.fits htaken
  exact ⟨n, by simp only [Cut.widened]; omega, hrange⟩

/-- The edits for the directives of one entry are made for cuts that hold them all, each of which
starts with its key. -/
theorem edits_joined {directives : List DirectiveSpan} {es : List Edit}
    (h : edits source directives = .ok es) :
    ∃ cuts : List Cut, es = cuts.map (fun x => ⟨range source x.span, []⟩) ∧
      (cuts.flatMap Cut.members).Perm (directives.map DirectiveSpan.span) ∧
      (∀ x ∈ cuts, x.Joined source) ∧
      ∀ d ∈ directives, beginsWithKey ((source.slice? d.span.start d.span.stop).getD [])
        d.directive.key = true := by
  obtain ⟨spans, hspans, h⟩ := bind_eq_ok.1 h
  obtain ⟨together, hgroups, h⟩ := bind_eq_ok.1 h
  cases h
  have hperm := sortBy_perm (fun a b : Span => a.start < b.start) spans
  have hchecked := mapM_eq_ok.1 hspans
  have hspan : spans = directives.map DirectiveSpan.span :=
    forall₂_eq_map (hchecked.imp fun _ _ h => (check_eq_ok.1 h).1)
  have hfits : ∀ s ∈ sortBy (fun a b => a.start < b.start) spans, Edit.fits source s = true := by
    intro s hs
    obtain ⟨d, -, hd⟩ := forall₂_exists_left hchecked (hperm.mem_iff.1 hs)
    obtain ⟨rfl, hkey⟩ := check_eq_ok.1 hd
    exact (fits_of_beginsWithKey hkey).1
  obtain ⟨cuts, rfl, hmembers, hjoined⟩ := groups_cuts hfits hgroups
  refine ⟨cuts, ?_, ?_, hjoined, fun d hd => ?_⟩
  · rw [List.map_map]
    rfl
  · rw [← hspan]
    exact (List.Perm.of_eq hmembers).trans hperm
  · obtain ⟨s, -, hs⟩ := forall₂_exists_left hchecked.flip hd
    exact (check_eq_ok.1 hs).2

/-- The edits for the directives of one entry remove them all, and cleanly. -/
theorem edits_cuts {directives : List DirectiveSpan} {es : List Edit}
    (h : edits source directives = .ok es) :
    ∃ cuts : List Cut, es = cuts.map (fun x => ⟨x.span, []⟩) ∧
      (cuts.flatMap Cut.members).Perm (directives.map DirectiveSpan.span) ∧
      ∀ x ∈ cuts, x.IsClean source := by
  obtain ⟨cuts, rfl, hmembers, hjoined, -⟩ := edits_joined h
  refine ⟨cuts.map (Cut.widened source), ?_, ?_, ?_⟩
  · rw [List.map_map]
    rfl
  · rwa [List.flatMap_map]
  · intro x hx
    obtain ⟨y, hy, rfl⟩ := List.mem_map.1 hx
    exact (hjoined y hy).widened_isClean

/-- The edits for the directives of all entries remove them all, and cleanly. -/
theorem allEdits_cuts {all : List (List DirectiveSpan)} {removals : List (List Edit)}
    (h : List.Forall₂ (fun directives es => edits source directives = .ok es) all removals) :
    ∃ cuts : List Cut, removals.flatten = cuts.map (fun x => ⟨x.span, []⟩) ∧
      (cuts.flatMap Cut.members).Perm (all.flatten.map DirectiveSpan.span) ∧
      ∀ x ∈ cuts, x.IsClean source := by
  induction h with
  | nil => exact ⟨[], rfl, .refl _, by simp⟩
  | cons hfirst _ ih =>
    obtain ⟨first, hes, hperm, hclean⟩ := edits_cuts hfirst
    obtain ⟨more, hrest, hpermRest, hcleanRest⟩ := ih
    refine ⟨first ++ more, ?_, ?_, fun x hx => ?_⟩
    · rw [List.flatten_cons, hes, hrest, List.map_append]
    · rw [List.flatMap_append, List.flatten_cons, List.map_append]
      exact hperm.append hpermRest
    · rcases List.mem_append.1 hx with hx | hx
      · exact hclean x hx
      · exact hcleanRest x hx

end Removal

namespace Rewrite

theorem componentEdit_eq_ok {source : Text} {plan : PagePlan} {e : Edit} :
    componentEdit source plan = .ok e ↔
      e = ⟨plan.componentSpan, plan.identifier⟩ ∧
        isBetweenQuotes
          ((source.slice? plan.componentSpan.start plan.componentSpan.stop).getD []) = true := by
  rw [componentEdit]
  split
  · rename_i h
    simp [h, eq_comm]
  · rename_i h
    simp [h]

/-- The stages of a rewrite that succeeds. -/
theorem rewrite_stages {source : Text} {t : RouteTable} {plans : List PagePlan}
    {pagesAlias : Text} {r : Rewrite} (h : rewrite source t plans pagesAlias = .ok r) :
    ∃ (components : List Edit) (removals : List (List Edit)),
      List.Forall₂ (fun plan e => componentEdit source plan = .ok e) plans components ∧
      List.Forall₂ (fun directives es => Removal.edits source directives = .ok es)
        (directivesOf t.entries) removals ∧
      r.importsAdded = missingImports t pagesAlias [] plans ∧
      Edit.applyAll source (components ++ removals.flatten ++
        importEdits source t.importAnchor r.importsAdded) = .ok r.text := by
  obtain ⟨components, hc, h⟩ := bind_eq_ok.1 h
  obtain ⟨removals, hr, h⟩ := bind_eq_ok.1 h
  obtain ⟨text, ha, h⟩ := bind_eq_ok.1 h
  cases h
  exact ⟨components, removals, mapM_eq_ok.1 hc, mapM_eq_ok.1 hr, rfl, ha⟩

/-- The edits that add lines to a source: one insertion, behind the anchor with a line break
before each line, or at the start with a line break behind each. No lines need no edit. -/
inductive Inserts (source : Text) : (anchor : Option Nat) → (lines : List Text) → List Edit → Prop
  | nothing (anchor : Option Nat) : Inserts source anchor [] []
  | atAnchor (pos : Nat) {lines : List Text} (hne : lines ≠ []) :
      Inserts source (some pos) lines [⟨⟨pos, pos⟩, lines.flatMap (lineBreak source ++ ·)⟩]
  | atStart {lines : List Text} (hne : lines ≠ []) :
      Inserts source none lines [⟨⟨0, 0⟩, lines.flatMap (· ++ lineBreak source)⟩]

theorem importEdits_inserts (source : Text) (anchor : Option Nat) (lines : List Text) :
    Inserts source anchor lines (importEdits source anchor lines) := by
  cases lines with
  | nil => exact .nothing anchor
  | cons line lines =>
    cases anchor with
    | none => exact .atStart (List.cons_ne_nil _ _)
    | some pos => exact .atAnchor pos (List.cons_ne_nil _ _)

/-- The rewritten text is the source with ranges that lie apart replaced at once: those of the
planned components, the removals, which together hold every directive of the tree and else only
white space, line comments and at most one comma for each directive, and one insertion of the
added imports, if there are any. All other bytes are kept. -/
def OnlyReplaces (source : Text) (t : RouteTable) (plans : List PagePlan) (r : Rewrite) : Prop :=
  ∃ (cuts : List Removal.Cut) (inserted sorted : List Edit),
    sorted.Perm (plans.map (fun plan => ⟨plan.componentSpan, plan.identifier⟩) ++
      cuts.map (fun x => ⟨x.span, []⟩) ++ inserted) ∧
    sorted.Pairwise (fun a b => a.span.stop ≤ b.span.start) ∧
    Edit.Replaced 0 source sorted r.text ∧
    (cuts.flatMap Removal.Cut.members).Perm
      (((Entry.allNodes t.entries).flatMap Entry.directives).map DirectiveSpan.span) ∧
    (∀ x ∈ cuts, x.IsClean source) ∧
    Inserts source t.importAnchor r.importsAdded inserted

/-- A rewrite changes nothing but the components, the directives and the imports. -/
theorem rewrite_onlyReplaces {source : Text} {t : RouteTable} {plans : List PagePlan}
    {pagesAlias : Text} {r : Rewrite} (h : rewrite source t plans pagesAlias = .ok r) :
    OnlyReplaces source t plans r := by
  obtain ⟨components, removals, hcomponents, hremovals, -, happly⟩ := rewrite_stages h
  obtain ⟨cuts, hcuts, hmembers, hclean⟩ := Removal.allEdits_cuts hremovals
  obtain ⟨sorted, hperm, -, hapart, hreplaced⟩ := Edit.applyAll_replaced happly
  have hplans : components = plans.map (fun plan => ⟨plan.componentSpan, plan.identifier⟩) :=
    forall₂_eq_map (hcomponents.imp fun _ _ h => (componentEdit_eq_ok.1 h).1)
  rw [hplans, hcuts] at hperm
  rw [directivesOf_eq, ← List.flatMap_def] at hmembers
  exact ⟨cuts, _, sorted, hperm, hapart, hreplaced, hmembers, hclean, importEdits_inserts _ _ _⟩

/-- A page with a directive, the directive of the entry below it, behind a line comment, and an
import, each at its place. -/
theorem rewrite_onlyReplaces_user :
    let source : Text := "[\x7b component: '/user', service: true,\n  children: [\x7b\n" ++
      "    table: true, // kept\n  \x7d]\x7d]"
    let child : Entry := ⟨none, none, none, true, false, none, [], ⟨51, 81⟩,
      [⟨.table, ⟨57, 68⟩⟩]⟩
    let t : RouteTable := ⟨"routes", ⟨0, 84⟩, [⟨some "User", none, some (.path "/user" ⟨14, 21⟩),
      false, true, none, [child], ⟨1, 83⟩, [⟨.service, ⟨23, 36⟩⟩]⟩], [], none⟩
    let plan : PagePlan := ⟨"User", ⟨["user"], by simp [IsSegment]; decide⟩, "User", "User",
      ⟨14, 21⟩, false, true, none⟩
    let r : Rewrite := ⟨"import User from '@/pages/user'\n[\x7b component: User, \n" ++
      "  children: [\x7b\n  \x7d]\x7d]", ["import User from '@/pages/user'"], true⟩
    rewrite source t [plan] "@/pages" = .ok r ∧ OnlyReplaces source t [plan] r := by
  intro source child t plan r
  have h : rewrite source t [plan] "@/pages" = .ok r := by decide +kernel
  exact ⟨h, rewrite_onlyReplaces h⟩

end Rewrite
end RoutePages
