import Mathlib.Data.List.Pairwise
import RoutePages.Page.Plan
import RoutePages.Proofs.Succeeds

/-!
# Plans agree

Pages that could be planned agree with each other and with the imports: an identifier
stands for one page, and where an import binds it, it is the import of that page.
-/
namespace RoutePages

variable {t : RouteTable} {pagesAlias : Text}

theorem checkSeen_eq_ok {seen : List (Text × PagePath)} {plan : PagePlan} :
    checkSeen seen plan = .ok () ↔ ∀ page, seen.lookup plan.identifier = some page →
      page = plan.page := by
  unfold checkSeen
  cases hfound : seen.lookup plan.identifier with
  | none => simp
  | some first => by_cases h : first = plan.page <;> simp [h]

theorem checkImport_eq_ok {plan : PagePlan} :
    checkImport t pagesAlias plan = .ok () ↔ ∀ i, t.importOf? plan.identifier = some i →
      i.source = plan.page.importSource pagesAlias := by
  unfold checkImport
  cases hfound : t.importOf? plan.identifier with
  | none => simp
  | some i => by_cases h : i.source = plan.page.importSource pagesAlias <;> simp [h]

theorem checkSeen_eq_error {seen : List (Text × PagePath)} {plan : PagePlan} {e : PlanError}
    (h : checkSeen seen plan = .error e) :
    ∃ first, e = .collision plan.identifier first plan.page.display := by
  unfold checkSeen at h
  split at h
  · rename_i page _
    split at h
    · cases h
      exact ⟨page.display, rfl⟩
    · cases h
  · cases h

theorem checkImport_eq_error {plan : PagePlan} {e : PlanError}
    (h : checkImport t pagesAlias plan = .error e) :
    ∃ first, e = .collision plan.identifier first plan.page.display := by
  unfold checkImport at h
  split at h
  · rename_i i _
    split at h
    · cases h
      exact ⟨i.source, rfl⟩
    · cases h
  · cases h

theorem lookup_cons_other {name other : Text} {page : PagePath} (seen : List (Text × PagePath))
    (h : other ≠ name) : ((name, page) :: seen).lookup other = seen.lookup other := by
  rw [List.lookup_cons, beq_eq_false_iff_ne.2 h]

/-- The checks pass exactly when plans of one identifier are for one page, which is also the page
seen before and the one that is imported. -/
theorem checkPlans_eq_ok {seen : List (Text × PagePath)} {plans : List PagePlan} :
    checkPlans t pagesAlias seen plans = .ok () ↔
      (∀ plan ∈ plans, ∀ page, seen.lookup plan.identifier = some page → page = plan.page) ∧
      (∀ plan ∈ plans, ∀ i, t.importOf? plan.identifier = some i →
        i.source = plan.page.importSource pagesAlias) ∧
      plans.Pairwise (fun a b => a.identifier = b.identifier → a.page = b.page) := by
  induction plans generalizing seen with
  | nil => simp [checkPlans]
  | cons plan rest ih =>
    have hchecks : checkPlans t pagesAlias seen (plan :: rest) = .ok () ↔
        checkSeen seen plan = .ok () ∧ checkImport t pagesAlias plan = .ok () ∧
          checkPlans t pagesAlias ((plan.identifier, plan.page) :: seen) rest = .ok () := by
      constructor
      · intro h
        obtain ⟨⟨⟩, hseen, h⟩ := bind_eq_ok.1 h
        obtain ⟨⟨⟩, himport, h⟩ := bind_eq_ok.1 h
        exact ⟨hseen, himport, h⟩
      · rintro ⟨hseen, himport, h⟩
        exact bind_eq_ok.2 ⟨(), hseen, bind_eq_ok.2 ⟨(), himport, h⟩⟩
    rw [hchecks, checkSeen_eq_ok, checkImport_eq_ok, ih, List.forall_mem_cons, List.forall_mem_cons,
      List.pairwise_cons]
    constructor
    · rintro ⟨hseen, himport, hrestSeen, hrestImport, hpairs⟩
      have hsame : ∀ other ∈ rest, plan.identifier = other.identifier → plan.page = other.page :=
        fun other hother heq => hrestSeen other hother plan.page
          (heq ▸ List.lookup_cons_self)
      refine ⟨⟨hseen, fun other hother page hpage => ?_⟩, ⟨himport, hrestImport⟩, hsame, hpairs⟩
      by_cases heq : other.identifier = plan.identifier
      · exact (hseen page (heq ▸ hpage)).trans (hsame other hother heq.symm)
      · exact hrestSeen other hother page ((lookup_cons_other seen heq).trans hpage)
    · rintro ⟨⟨hseen, hrestSeen⟩, ⟨himport, hrestImport⟩, hsame, hpairs⟩
      refine ⟨hseen, himport, fun other hother page hpage => ?_, hrestImport, hpairs⟩
      by_cases heq : other.identifier = plan.identifier
      · rw [heq, List.lookup_cons_self] at hpage
        exact (Option.some.inj hpage).symm.trans (hsame other hother heq.symm)
      · rw [lookup_cons_other seen heq] at hpage
        exact hrestSeen other hother page hpage

/-- What the checks refuse is the identifier of a plan. -/
theorem checkPlans_eq_error {seen : List (Text × PagePath)} {plans : List PagePlan} {e : PlanError}
    (h : checkPlans t pagesAlias seen plans = .error e) :
    ∃ plan ∈ plans, ∃ first, e = .collision plan.identifier first plan.page.display := by
  induction plans generalizing seen with
  | nil => cases h
  | cons plan rest ih =>
    rcases bind_eq_error.1 h with hseen | ⟨⟨⟩, -, h⟩
    · exact ⟨plan, List.mem_cons_self, checkSeen_eq_error hseen⟩
    rcases bind_eq_error.1 h with himport | ⟨⟨⟩, -, h⟩
    · exact ⟨plan, List.mem_cons_self, checkImport_eq_error himport⟩
    · obtain ⟨other, hother, hcollision⟩ := ih h
      exact ⟨other, List.mem_cons_of_mem plan hother, hcollision⟩

theorem planPages_eq_ok {b : Bindings} {plans : List PagePlan} :
    planPages t b pagesAlias = .ok plans ↔
      Entry.allPlans b .root t.entries = .ok plans ∧ checkPlans t pagesAlias [] plans = .ok () := by
  unfold planPages
  cases hplans : Entry.allPlans b .root t.entries with
  | error e => simp
  | ok collected =>
    rw [map_eq_ok]
    constructor
    · rintro ⟨⟨⟩, hchecked, rfl⟩
      exact ⟨rfl, hchecked⟩
    · rintro ⟨h, hchecked⟩
      cases h
      exact ⟨(), hchecked, rfl⟩

/-- Pages that are planned agree with each other and with the imports. -/
theorem planPages_agree {b : Bindings} {plans : List PagePlan}
    (h : planPages t b pagesAlias = .ok plans) :
    (∀ plan ∈ plans, ∀ i, t.importOf? plan.identifier = some i →
      i.source = plan.page.importSource pagesAlias) ∧
    ∀ a ∈ plans, ∀ b ∈ plans, a.identifier = b.identifier → a.page = b.page := by
  unfold planPages at h
  split at h
  · cases h
  · obtain ⟨_, hchecked, rfl⟩ := map_eq_ok.1 h
    obtain ⟨-, himports, hpairs⟩ := checkPlans_eq_ok.1 hchecked
    have : Std.Symm (fun a b : PagePlan => a.identifier = b.identifier → a.page = b.page) :=
      ⟨fun _ _ h heq => (h heq.symm).symm⟩
    exact ⟨himports, fun a ha b hb => hpairs.forall_of_forall (fun _ _ _ => rfl) ha hb⟩

end RoutePages
