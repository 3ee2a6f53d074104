import RoutePages.Proofs.Page.Commit

/-!
# Planning is stable

Where no name is imported twice, a committed table binds every identifier of a plan to the
page of that plan. So nothing is planned for it again, and an entry that is put below one
with a planned page is planned there as it would have been before.
-/
namespace RoutePages

variable {t : RouteTable} {pagesAlias : Text} {plans : List PagePlan}

theorem importOf?_eq_none {name : Text} :
    t.importOf? name = none ↔ name ∉ t.imports.flatMap Import.locals := by
  unfold RouteTable.importOf?
  rw [List.find?_eq_none, List.mem_flatMap]
  simp

theorem commit_locals_nodup (hunique : (t.imports.flatMap Import.locals).Nodup) :
    ((t.commit pagesAlias plans).imports.flatMap Import.locals).Nodup := by
  have hadded : ((Rewrite.unimported t [] plans).map (Import.ofPlan pagesAlias)).flatMap
      Import.locals = (Rewrite.unimported t [] plans).map PagePlan.identifier := by
    rw [List.flatMap_map, List.map_eq_flatMap]
    rfl
  rw [RouteTable.commit, List.flatMap_append, hadded]
  refine List.nodup_append.2 ⟨hunique, Rewrite.unimported_nodup [] plans, ?_⟩
  rintro name hname other hother rfl
  obtain ⟨plan, hplan, rfl⟩ := List.mem_map.1 hother
  exact importOf?_eq_none.1 (Rewrite.unimported_fresh hplan).1 hname

theorem segments_ne_nil_of_collected {b : Bindings} {entries : List Entry} {plan : PagePlan}
    (h : Entry.allPlans b .root entries = .ok plans) (hplan : plan ∈ plans) :
    plan.page.segments ≠ [] := by
  obtain ⟨placed, hof⟩ := exists_isPlanOf h hplan
  obtain ⟨path, own, base, -, hown, -, hpage⟩ := hof.page
  rw [hpage]
  exact PagePath.join_segments_ne_nil (PagePath.segments_ne_nil hown)

/-- In a committed table the identifier of a plan stands for the page of the plan. -/
theorem get?_commit (hunique : (t.imports.flatMap Import.locals).Nodup)
    (hplans : planPages t (.ofTable t pagesAlias) pagesAlias = .ok plans) {plan : PagePlan}
    (hplan : plan ∈ plans) :
    (Bindings.ofTable (t.commit pagesAlias plans) pagesAlias).get? plan.identifier =
      some plan.page := by
  obtain ⟨himports, hpages⟩ := planPages_agree hplans
  have hcollected := (planPages_eq_ok.1 hplans).1
  have hnames : ((t.commit pagesAlias plans).imports.flatMap Import.locals).Nodup :=
    commit_locals_nodup hunique
  cases himport : t.importOf? plan.identifier with
  | some i =>
    have hname : plan.identifier ∈ i.locals := by simpa using List.find?_some himport
    have hi : i ∈ t.imports := List.mem_of_find?_eq_some himport
    have hpage : Bindings.pageOf? i.source pagesAlias = some plan.page := by
      rw [himports plan hplan i himport]
      exact Bindings.pageOf?_importSource (segments_ne_nil_of_collected hcollected hplan) pagesAlias
    exact Bindings.get?_ofImports hnames (List.mem_append_left _ hi) hname hpage
  | none =>
    obtain ⟨other, hother, hsame, -⟩ :=
      Rewrite.exists_unimported hplan himport (List.not_mem_nil (a := plan.identifier))
    have hmem : other ∈ plans := (Rewrite.unimported_sublist [] plans).subset hother
    have hi : Import.ofPlan pagesAlias other ∈ (t.commit pagesAlias plans).imports :=
      List.mem_append_right _ (List.mem_map_of_mem hother)
    have hpage : Bindings.pageOf? (Import.ofPlan pagesAlias other).source pagesAlias =
        some plan.page := by
      rw [← hpages other hmem plan hplan hsame]
      exact Bindings.pageOf?_importSource (segments_ne_nil_of_collected hcollected hmem) pagesAlias
    exact Bindings.get?_ofImports hnames hi (hsame ▸ List.mem_singleton_self _) hpage

/-- An entry that asks for a page and is put below a line of entries is planned for a page below
theirs, among the plans from before. -/
theorem allPlans_insertAt_asking {b : Bindings} {entries line : List Entry} {plans : List PagePlan}
    {address : List Nat} {page own : PagePath} {child : Entry} {title path : Text} {span : Span}
    (k : Nat) (h : Entry.allPlans b .root entries = .ok plans)
    (hline : Entry.lineTo address [] entries = some line) (hpage : IsBase b line page)
    (hname : child.name = some title) (hcomponent : child.component = some (.path path span))
    (hown : PagePath.parse path = .ok own) :
    ∃ before after, plans = before ++ after ∧
      Entry.allPlans b .root (Entry.insertAt child k address entries) = (do
        let first ← child.plan title span (page.join own)
        let below ← Entry.allPlans b (page.join own) child.children
        return before ++ (first :: below ++ after)) := by
  have hroot : IsBase b [] .root := .top (by simp)
  obtain ⟨before, after, start, hsplit, hstart, hinsert⟩ :=
    Entry.allPlans_insertAt child k hroot h hline
  refine ⟨before, after, hsplit, ?_⟩
  rw [hinsert, hstart.unique hpage, Entry.plans_of_asks hname hcomponent, hown]
  show (child.plan title span (page.join own) >>= _).map _ = _
  cases child.plan title span (page.join own) with
  | error fault => rfl
  | ok first => cases Entry.allPlans b (page.join own) child.children <;> rfl

/-- Nothing is planned for a committed table, and no import is missing from it. An entry that asks
for a page and is put below one whose page was planned is planned for the same page as before the
commit, among the plans from before, and then alone with what lies below it. -/
theorem planPages_commit (hunique : (t.imports.flatMap Import.locals).Nodup)
    (hplans : planPages t (.ofTable t pagesAlias) pagesAlias = .ok plans) :
    let t' := t.commit pagesAlias plans
    let b := Bindings.ofTable t pagesAlias
    let b' := Bindings.ofTable t' pagesAlias
    (∃ added : List PagePlan,
      Rewrite.missingImports t pagesAlias [] plans = added.map (Rewrite.importLine pagesAlias) ∧
      t'.imports = t.imports ++ added.map (Import.ofPlan pagesAlias)) ∧
    planPages t' b' pagesAlias = .ok [] ∧ Rewrite.missingImports t' pagesAlias [] [] = [] ∧
    ∀ address parent above, Entry.lineTo address [] t.entries = some (parent :: above) →
      parent.generatable?.isSome = true → ∃ plan ∈ plans, IsPlanOf b ⟨parent, above⟩ plan ∧
        ∀ (child : Entry) k title path span own, child.name = some title →
          child.component = some (.path path span) → PagePath.parse path = .ok own →
          ∃ before after, plans = before ++ after ∧
            Entry.allPlans b .root (Entry.insertAt child k address t.entries) = (do
              let first ← child.plan title span (plan.page.join own)
              let below ← Entry.allPlans b (plan.page.join own) child.children
              return before ++ (first :: below ++ after)) ∧
            Entry.allPlans b' .root (Entry.insertAt child k address t'.entries) = (do
              let first ← child.plan title span (plan.page.join own)
              let below ← Entry.allPlans b' (plan.page.join own) child.children
              return first :: below) := by
  intro t' b b'
  have hcollected := (planPages_eq_ok.1 hplans).1
  have hroot : ∀ b, IsBase b [] .root := fun b => .top (by simp)
  have hnone : ∀ b' base', Entry.allPlans b' base' t'.entries = .ok [] := by
    have h := (Entry.allCommit_plans t.entries .root plans hcollected []).2
    rw [List.append_nil] at h
    exact h
  refine ⟨⟨_, Rewrite.missingImports_eq [] plans, rfl⟩,
    planPages_eq_ok.2 ⟨hnone b' .root, rfl⟩, rfl, ?_⟩
  intro address parent above hline hasks
  have haddress : address ≠ [] := by
    rintro rfl
    cases hline
  obtain ⟨plan, hplan, hof, hcommit⟩ :=
    Entry.lineTo_commit (hroot b) hcollected haddress hline hasks
  refine ⟨plan, hplan, hof, fun child k title path span own hname hcomponent hown => ?_⟩
  -- both parents give their children the page of the plan: one its own, the other by its import
  have hstart : IsBase b (parent :: above) plan.page := by
    obtain ⟨path, own, base, hcomponent, hown, hbase, hpage⟩ := hof.page
    rw [hpage]
    exact hbase.below_asking (Entry.generatable?_eq_some.2 ⟨hof.name, _, hcomponent⟩) hown
  obtain ⟨parent', above', place, hline', hbound⟩ := hcommit [] []
  rw [List.append_nil] at hline'
  have hstart' : IsBase b' (parent' :: above') plan.page := by
    refine .below_imported ?_
    rw [Entry.importedPage?, hbound]
    exact get?_commit hunique hplans hplan
  obtain ⟨before, after, hsplit, hinsert⟩ :=
    allPlans_insertAt_asking k hcollected hline hstart hname hcomponent hown
  obtain ⟨before', after', hsplit', hinsert'⟩ :=
    allPlans_insertAt_asking k (hnone b' .root) hline' hstart' hname hcomponent hown
  obtain ⟨rfl, rfl⟩ := List.append_eq_nil_iff.1 hsplit'.symm
  simp only [List.nil_append, List.append_nil] at hinsert'
  exact ⟨before, after, hsplit, hinsert, hinsert'⟩

/-- A page below an imported one is planned and committed, and another one is put below it. -/
theorem planPages_commit_detail :
    let here : Span := ⟨0, 0⟩
    let user : Entry :=
      ⟨some "user", none, some (.path "/user" here), true, false, none, [], here, []⟩
    let detail : Entry :=
      ⟨some "detail", none, some (.path "detail" here), false, false, none, [], here, []⟩
    let setting : Entry :=
      ⟨some "setting", none, some (.bound "Setting" here), false, false, none, [user], here, []⟩
    let t : RouteTable :=
      ⟨"routes", here, [setting], [⟨["Setting"], "@/pages/setting", here⟩], none⟩
    ∃ plans plan own, planPages t (.ofTable t "@/pages") "@/pages" = .ok plans ∧ plan ∈ plans ∧
      PagePath.parse "detail" = .ok own ∧
      let t' := t.commit "@/pages" plans
      Entry.allPlans (.ofTable t' "@/pages") .root (Entry.insertAt detail 0 [0, 0] t'.entries) =
        (detail.plan "detail" here (plan.page.join own)).map ([·]) := by
  intro here user detail setting t
  have hplanned : (planPages t (.ofTable t "@/pages") "@/pages").toOption.isSome = true := by
    decide +kernel
  obtain ⟨plans, hplans⟩ := Option.isSome_iff_exists.1 hplanned
  rw [toOption_eq_some] at hplans
  have hparsed : (PagePath.parse "detail").toOption.isSome = true := by decide +kernel
  obtain ⟨own, hown⟩ := Option.isSome_iff_exists.1 hparsed
  rw [toOption_eq_some] at hown
  obtain ⟨-, -, -, hchild⟩ := planPages_commit (by decide) hplans
  obtain ⟨plan, hplan, -, hput⟩ := hchild [0, 0] user [setting] rfl rfl
  obtain ⟨before, after, -, -, hadded⟩ := hput detail 0 "detail" "detail" here own rfl rfl hown
  refine ⟨plans, plan, own, hplans, hplan, hown, hadded.trans ?_⟩
  cases detail.plan "detail" here (plan.page.join own) <;> rfl

end RoutePages
