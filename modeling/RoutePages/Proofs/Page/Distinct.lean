import RoutePages.Proofs.Edit.Imports
import RoutePages.Proofs.Page.Lineage

/-!
# Identifiers and pages correspond

Pages are planned exactly when no identifier stands for two pages, neither among the plans
nor between a plan and an import. Identifiers and pages then correspond one to one, and a
rewrite imports each page that is not imported yet, once.
-/
namespace RoutePages

variable {t : RouteTable} {b : Bindings} {pagesAlias : Text} {plans : List PagePlan}

/-- No identifier stands for two pages. -/
structure Unambiguous (t : RouteTable) (pagesAlias : Text) (plans : List PagePlan) : Prop where
  /-- anywhere among the plans -/
  pages : ∀ p ∈ plans, ∀ q ∈ plans, p.identifier = q.identifier → p.page = q.page
  /-- between a plan and the first import of its identifier -/
  imports : ∀ p ∈ plans, ∀ i, t.importOf? p.identifier = some i →
    i.source = p.page.importSource pagesAlias

theorem checkPlans_iff_unambiguous :
    checkPlans t pagesAlias [] plans = .ok () ↔ Unambiguous t pagesAlias plans := by
  have hsymm : Std.Symm (fun p q : PagePlan => p.identifier = q.identifier → p.page = q.page) :=
    ⟨fun _ _ h heq => (h heq.symm).symm⟩
  rw [checkPlans_eq_ok]
  constructor
  · rintro ⟨-, himports, hpairs⟩
    have hpages : ∀ p ∈ plans, ∀ q ∈ plans, p.identifier = q.identifier → p.page = q.page :=
      fun p hp q hq => hpairs.forall_of_forall (fun _ _ _ => rfl) hp hq
    exact ⟨hpages, himports⟩
  · intro h
    have hpairs := List.pairwise_of_forall_mem_list h.pages
    exact ⟨fun _ _ _ hpage => (by cases hpage), h.imports, hpairs⟩

/-- Plans for one page have one identifier, which is made from the page. -/
theorem identifier_eq_of_page (h : Entry.allPlans b .root t.entries = .ok plans) {p q : PagePlan}
    (hp : p ∈ plans) (hq : q ∈ plans) (hpage : p.page = q.page) : p.identifier = q.identifier := by
  obtain ⟨_, hofp⟩ := exists_isPlanOf h hp
  obtain ⟨_, hofq⟩ := exists_isPlanOf h hq
  have hident := hofp.identifier
  rw [hpage, hofq.identifier] at hident
  exact (Except.ok.inj hident).symm

namespace Rewrite

/-- The imports that a rewrite adds for plans: `added` are those that it adds a line for. -/
structure AddsImports (t : RouteTable) (pagesAlias : Text) (plans : List PagePlan) (r : Rewrite)
    (added : List PagePlan) : Prop where
  lines : r.importsAdded = added.map (importLine pagesAlias)
  ordered : added.Sublist plans
  /-- no line for an identifier that an import binds -/
  fresh : ∀ plan ∈ added, ∀ i ∈ t.imports, plan.identifier ∉ i.locals
  /-- one line for each identifier -/
  unique : (added.map PagePlan.identifier).Nodup
  /-- a plan without a line is imported from its own page -/
  covered : ∀ plan ∈ plans,
    (∃ first ∈ added, first.identifier = plan.identifier ∧ first.page = plan.page) ∨
    ∃ i, t.importOf? plan.identifier = some i ∧ i.source = plan.page.importSource pagesAlias

theorem addsImports {source : Text} {r : Rewrite} (hplans : Unambiguous t pagesAlias plans)
    (hr : rewrite source t plans pagesAlias = .ok r) :
    AddsImports t pagesAlias plans r (unimported t [] plans) := by
  obtain ⟨_, _, -, -, hlines, -⟩ := rewrite_stages hr
  rw [missingImports_eq] at hlines
  refine ⟨hlines, unimported_sublist [] plans, ?_, unimported_nodup [] plans, ?_⟩
  · intro plan hplan i hi hmem
    have hnone := (unimported_fresh hplan).1
    rw [RouteTable.importOf?, List.find?_eq_none] at hnone
    exact hnone i hi (List.contains_iff_mem.2 hmem)
  · intro plan hplan
    exact unimported_or_imported hplans.pages hplans.imports hplan

end Rewrite

/-- Planning succeeds exactly when no identifier stands for two pages, and otherwise refuses the
identifier of a plan. Identifiers and pages of the plans then correspond one to one, and a rewrite
imports each identifier that no import binds, once. -/
theorem planPages_isOk_iff (hcollected : Entry.allPlans b .root t.entries = .ok plans) :
    (planPages t b pagesAlias = .ok plans ↔ Unambiguous t pagesAlias plans) ∧
    (¬ Unambiguous t pagesAlias plans → ∃ plan ∈ plans, ∃ first,
      planPages t b pagesAlias = .error (.collision plan.identifier first plan.page.display)) ∧
    (planPages t b pagesAlias = .ok plans →
      (∀ p ∈ plans, ∀ q ∈ plans, p.identifier = q.identifier ↔ p.page = q.page) ∧
      ∀ source r, rewrite source t plans pagesAlias = .ok r →
        ∃ added, Rewrite.AddsImports t pagesAlias plans r added) := by
  have hok : planPages t b pagesAlias = .ok plans ↔ Unambiguous t pagesAlias plans := by
    rw [planPages_eq_ok, checkPlans_iff_unambiguous]
    exact and_iff_right hcollected
  refine ⟨hok, fun hnot => ?_, fun hplans => ⟨fun p hp q hq => ?_, fun source r hr => ?_⟩⟩
  · cases hchecked : checkPlans t pagesAlias [] plans with
    | ok _ => exact absurd (checkPlans_iff_unambiguous.1 hchecked) hnot
    | error e =>
      obtain ⟨plan, hplan, first, rfl⟩ := checkPlans_eq_error hchecked
      refine ⟨plan, hplan, first, ?_⟩
      rw [planPages, hcollected]
      dsimp only
      rw [hchecked]
      rfl
  · exact ⟨(hok.1 hplans).pages p hp q hq, identifier_eq_of_page hcollected hp hq⟩
  · exact ⟨_, Rewrite.addsImports (hok.1 hplans) hr⟩

/-- A page that is planned twice, beside one that is imported already. -/
theorem planPages_isOk_iff_twice :
    let here : Span := ⟨0, 0⟩
    let page (title path : Text) : Entry :=
      ⟨some title, none, some (.path path here), false, false, none, [], here, []⟩
    let t : RouteTable := ⟨"routes", here, [page "user" "/user", page "list" "/list",
      page "all" "./list/"], [⟨["User"], "@/pages/user", here⟩], none⟩
    let b := Bindings.ofTable t "@/pages"
    ∃ plans, Entry.allPlans b .root t.entries = .ok plans ∧ plans.length = 3 ∧
      Unambiguous t "@/pages" plans ∧
      ∀ p ∈ plans, ∀ q ∈ plans, p.identifier = q.identifier ↔ p.page = q.page := by
  intro here page t b
  have hplanned : (planPages t b "@/pages").toOption.map List.length = some 3 := by decide +kernel
  obtain ⟨plans, hplans, hlength⟩ := Option.map_eq_some_iff.1 hplanned
  rw [toOption_eq_some] at hplans
  have hcollected := (planPages_eq_ok.1 hplans).1
  obtain ⟨hok, -, hrest⟩ := @planPages_isOk_iff t b "@/pages" plans hcollected
  exact ⟨plans, hcollected, hlength, hok.1 hplans, (hrest hplans).1⟩

/-- Pages that differ, but not in their identifier. -/
example :
    let here : Span := ⟨0, 0⟩
    let page (path : Text) : Entry :=
      ⟨some "user", none, some (.path path here), false, false, none, [], here, []⟩
    let t : RouteTable := ⟨"routes", here, [page "/user/list", page "/userList"], [], none⟩
    (planPages t .empty "@/pages").toOption = none := by
  decide +kernel

end RoutePages
