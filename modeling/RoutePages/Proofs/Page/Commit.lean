import RoutePages.Proofs.Edit.Imports
import RoutePages.Proofs.Page.Imported
import RoutePages.Proofs.Page.Lineage

/-!
# Planning what has been planned

A route table is committed when its pages are there: every entry that asked for a page
names it by its import. Nothing more is planned for a committed table, and an entry that
is put below another one lands on the page it would have had before.
-/
namespace RoutePages

/-- What becomes of the component of an entry with this name: where a page is asked for, it is
bound to the identifier of the first plan. The plans left over come with it. -/
def Component.commit (name : Option Text) (component : Option Component) (plans : List PagePlan) :
    Option Component × List PagePlan :=
  match name, component, plans with
  | some _, some (.path _ span), plan :: rest => (some (.bound plan.identifier span), rest)
  | _, _, _ => (component, plans)

mutual

/-- The entry with its pages bound to the identifiers of their plans, which come in the order of
the entries, and without directives. The plans left over come with it. -/
def Entry.commit : Entry → List PagePlan → Entry × List PagePlan
  | .mk name path component _ _ _ children span _, plans =>
    let own := Component.commit name component plans
    let below := Entry.allCommit children own.2
    (.mk name path own.1 false false none below.1 span [], below.2)

def Entry.allCommit : List Entry → List PagePlan → List Entry × List PagePlan
  | [], plans => ([], plans)
  | e :: rest, plans =>
    let first := e.commit plans
    let more := Entry.allCommit rest first.2
    (first.1 :: more.1, more.2)

end

/-- The import of a planned page. -/
def Import.ofPlan (pagesAlias : Text) (plan : PagePlan) : Import :=
  ⟨[plan.identifier], plan.page.importSource pagesAlias, ⟨0, 0⟩⟩

/-- The table with its pages bound, and with an import for each that was missing. -/
def RouteTable.commit (t : RouteTable) (pagesAlias : Text) (plans : List PagePlan) : RouteTable :=
  { t with
    entries := (Entry.allCommit t.entries plans).1
    imports := t.imports ++ (Rewrite.unimported t [] plans).map (Import.ofPlan pagesAlias) }

/-- The entries with another one before the `k`-th of those that an address leads to. Each step of
an address goes to the children of one entry. -/
def Entry.insertAt (child : Entry) (k : Nat) : (address : List Nat) → List Entry → List Entry
  | [], entries => entries.take k ++ child :: entries.drop k
  | i :: address, entries =>
    entries.modify i fun e => { e with children := insertAt child k address e.children }

/-- The entries that an address goes through, the last one first. -/
def Entry.lineTo : (address : List Nat) → (above entries : List Entry) → Option (List Entry)
  | [], above, _ => some above
  | i :: address, above, entries =>
    entries[i]?.bind fun e => lineTo address (e :: above) e.children

namespace Entry

variable {b : Bindings}

theorem allPlans_append (base : PagePath) (l₁ l₂ : List Entry) :
    allPlans b base (l₁ ++ l₂) = do
      let first ← allPlans b base l₁
      let more ← allPlans b base l₂
      return first ++ more := by
  induction l₁ with
  | nil =>
    show _ = allPlans b base l₂ >>= fun more => Except.ok ([] ++ more)
    rw [List.nil_append]
    cases allPlans b base l₂ <;> rfl
  | cons e l₁ ih =>
    rw [List.cons_append, allPlans, ih, allPlans]
    cases e.plans b base with
    | error fault => rfl
    | ok own =>
      cases allPlans b base l₁ with
      | error fault => rfl
      | ok first =>
        show (allPlans b base l₂ >>= fun more => Except.ok (first ++ more)) >>= _ =
          allPlans b base l₂ >>= fun more => Except.ok ((own ++ first) ++ more)
        cases allPlans b base l₂ with
        | error fault => rfl
        | ok more => exact congrArg Except.ok (List.append_assoc own first more).symm

/-- The plans of an entry, and where its children start. -/
inductive PlansAs (b : Bindings) (base : PagePath) (e : Entry) : List PagePlan → Prop
  | asks {title path : Text} {span : Span} {own : PagePath} {plan : PagePlan} {below : List PagePlan}
      (hname : e.name = some title) (hcomponent : e.component = some (.path path span))
      (hown : PagePath.parse path = .ok own) (hplan : e.plan title span (base.join own) = .ok plan)
      (hbelow : allPlans b plan.page e.children = .ok below) : PlansAs b base e (plan :: below)
  | other {below : List PagePlan} (hasks : e.generatable? = none)
      (hbelow : allPlans b ((e.importedPage? b).getD base) e.children = .ok below) :
      PlansAs b base e below

theorem plansAs {e : Entry} {base : PagePath} {plans : List PagePlan}
    (h : e.plans b base = .ok plans) : PlansAs b base e plans := by
  cases hasks : e.generatable? with
  | none =>
    rw [plans_of_other hasks] at h
    exact .other hasks h
  | some found =>
    obtain ⟨title, path⟩ := found
    obtain ⟨hname, span, hcomponent⟩ := generatable?_eq_some.1 hasks
    rw [plans_of_asks hname hcomponent] at h
    obtain ⟨own, hown, h⟩ := bind_eq_ok.1 h
    obtain ⟨plan, hplan, h⟩ := bind_eq_ok.1 h
    obtain ⟨below, hbelow, h⟩ := bind_eq_ok.1 h
    cases h
    have hpage := (plan_eq_ok.1 hplan).2.2.1
    exact .asks hname hcomponent hown hplan (hpage ▸ hbelow)

theorem commit_eq (e : Entry) (plans : List PagePlan) :
    e.commit plans =
      let own := Component.commit e.name e.component plans
      let below := allCommit e.children own.2
      (⟨e.name, e.path, own.1, false, false, none, below.1, e.span, []⟩, below.2) := by
  cases e
  rw [commit]

theorem commit_of_asks {e : Entry} {title path : Text} {span : Span} (hname : e.name = some title)
    (hcomponent : e.component = some (.path path span)) (plan : PagePlan) (plans : List PagePlan) :
    e.commit (plan :: plans) =
      (⟨e.name, e.path, some (.bound plan.identifier span), false, false, none,
        (allCommit e.children plans).1, e.span, []⟩, (allCommit e.children plans).2) := by
  rw [commit_eq, hname, hcomponent]
  rfl

theorem commit_of_other {e : Entry} (h : e.generatable? = none) (plans : List PagePlan) :
    e.commit plans =
      (⟨e.name, e.path, e.component, false, false, none,
        (allCommit e.children plans).1, e.span, []⟩, (allCommit e.children plans).2) := by
  have hkept : Component.commit e.name e.component plans = (e.component, plans) := by
    unfold generatable? at h
    unfold Component.commit
    cases hname : e.name with
    | none => rfl
    | some title =>
      rcases hcomponent : e.component with _ | _ | _ | _
      · rfl
      · rw [hname, hcomponent] at h
        cases h
      · rfl
      · rfl
  rw [commit_eq, hkept]

mutual

/-- Committing an entry takes its own plans and leaves no page to be planned. -/
theorem commit_plans : (e : Entry) → (base : PagePath) → (plans : List PagePlan) →
    e.plans b base = .ok plans → (more : List PagePlan) →
    (e.commit (plans ++ more)).2 = more ∧
      ∀ b' base', (e.commit (plans ++ more)).1.plans b' base' = .ok []
  | .mk name path component table service cover children span directives, base, plans, h, more => by
    generalize he : Entry.mk name path component table service cover children span directives = e
    have hchildren : e.children = children := by rw [← he]
    rw [he] at h
    cases plansAs h with
    | @asks title path place own plan below hname hcomponent hown hplan hbelow =>
      -- the first plan is the entry's own, and its children take theirs from the others
      rw [hchildren] at hbelow
      obtain ⟨hrest, hnone⟩ := allCommit_plans children _ below hbelow more
      rw [List.cons_append, commit_of_asks hname hcomponent, hchildren]
      refine ⟨hrest, fun b' base' => (plans_of_other ?_ base').trans (hnone b' _)⟩
      rw [generatable?, hname]
    | other hasks hbelow =>
      rw [hchildren] at hbelow
      obtain ⟨hrest, hnone⟩ := allCommit_plans children _ plans hbelow more
      rw [commit_of_other hasks, hchildren]
      refine ⟨hrest, fun b' base' => (plans_of_other ?_ base').trans (hnone b' _)⟩
      exact hasks

theorem allCommit_plans : (entries : List Entry) → (base : PagePath) → (plans : List PagePlan) →
    allPlans b base entries = .ok plans → (more : List PagePlan) →
    (allCommit entries (plans ++ more)).2 = more ∧
      ∀ b' base', allPlans b' base' (allCommit entries (plans ++ more)).1 = .ok []
  | [], _, _, h, more => by
    cases h
    rw [List.nil_append, allCommit]
    exact ⟨rfl, fun _ _ => rfl⟩
  | e :: rest, base, plans, h, more => by
    obtain ⟨first, hfirst, h⟩ := bind_eq_ok.1 h
    obtain ⟨later, hlater, h⟩ := bind_eq_ok.1 h
    cases h
    obtain ⟨htake, hnone⟩ := commit_plans e base first hfirst (later ++ more)
    obtain ⟨hrest, hnothing⟩ := allCommit_plans rest base later hlater more
    rw [List.append_assoc, allCommit]
    dsimp only
    rw [htake]
    refine ⟨hrest, fun b' base' => ?_⟩
    rw [allPlans, hnone, hnothing]
    rfl

end

/-- One entry among others: its plans stand together, whatever becomes of it. -/
theorem allPlans_getElem? {entries : List Entry} {base : PagePath} {plans : List PagePlan} {i : Nat}
    {e : Entry} (h : allPlans b base entries = .ok plans) (hi : entries[i]? = some e) :
    ∃ before own after, plans = before ++ (own ++ after) ∧ e.plans b base = .ok own ∧
      (∀ f, allPlans b base (entries.modify i f) =
        ((f e).plans b base).map fun changed => before ++ (changed ++ after)) ∧
      ∀ more, (allCommit entries (plans ++ more)).1[i]? = some (e.commit (own ++ (after ++ more))).1 := by
  induction entries generalizing i plans with
  | nil => cases hi
  | cons first rest ih =>
    obtain ⟨own, hown, h⟩ := bind_eq_ok.1 h
    obtain ⟨later, hlater, h⟩ := bind_eq_ok.1 h
    cases h
    cases i with
    | zero =>
      cases hi
      refine ⟨[], own, later, rfl, hown, fun f => ?_, fun more => ?_⟩
      · rw [List.modify_zero_cons, allPlans, hlater]
        cases (f e).plans b base <;> rfl
      · rw [List.append_assoc, allCommit]
        rfl
    | succ i =>
      rw [List.getElem?_cons_succ] at hi
      obtain ⟨before, mine, after, rfl, hmine, hmodify, hcommit⟩ := ih hlater hi
      refine ⟨own ++ before, mine, after, by rw [List.append_assoc], hmine, fun f => ?_,
        fun more => ?_⟩
      · rw [List.modify_succ_cons, allPlans, hown, hmodify]
        cases (f e).plans b base with
        | error fault => rfl
        | ok changed => exact congrArg Except.ok (List.append_assoc own before _).symm
      · rw [List.append_assoc own, allCommit]
        dsimp only
        rw [(commit_plans first base own hown _).1, List.getElem?_cons_succ]
        exact hcommit more

/-- The children of an entry, whatever becomes of them: where they start, and which plans stand
before theirs. -/
theorem plans_children {e : Entry} {above : List Entry} {base : PagePath} {plans : List PagePlan}
    (hbase : IsBase b above base) (h : e.plans b base = .ok plans) :
    ∃ own below start, plans = own ++ below ∧ IsBase b (e :: above) start ∧
      allPlans b start e.children = .ok below ∧
      (∀ children, { e with children := children }.plans b base =
        (allPlans b start children).map (own ++ ·)) ∧
      ∀ more, (e.commit (plans ++ more)).1.children = (allCommit e.children (below ++ more)).1 := by
  cases plansAs h with
  | @asks title path span own plan below hname hcomponent hown hplan hbelow =>
    have hpage := (plan_eq_ok.1 hplan).2.2.1
    have hasks := generatable?_eq_some.2 ⟨hname, span, hcomponent⟩
    have hstart : IsBase b (e :: above) plan.page :=
      hpage ▸ hbase.below_asking hasks hown
    refine ⟨[plan], below, plan.page, rfl, hstart, hbelow, fun children => ?_, fun more => ?_⟩
    · rw [plans_of_asks (e := { e with children := children }) hname hcomponent, hown]
      show e.plan title span (base.join own) >>= _ = _
      rw [hplan, hpage]
      rfl
    · rw [List.cons_append, commit_of_asks hname hcomponent]
  | other hasks hbelow =>
    refine ⟨[], plans, _, rfl, isBase_children hbase hasks, hbelow, fun children => ?_,
      fun more => ?_⟩
    · rw [plans_of_other (e := { e with children := children }) hasks]
      show allPlans b ((e.importedPage? b).getD base) children = _
      cases allPlans b ((e.importedPage? b).getD base) children <;> rfl
    · rw [commit_of_other hasks]

/-- An entry that is put at an address is planned below the line of the address, and nothing else
is planned otherwise. -/
theorem allPlans_insertAt (child : Entry) (k : Nat) {address : List Nat} {entries above : List Entry}
    {line : List Entry} {base : PagePath} {plans : List PagePlan} (hbase : IsBase b above base)
    (h : allPlans b base entries = .ok plans) (hline : lineTo address above entries = some line) :
    ∃ before after start, plans = before ++ after ∧ IsBase b line start ∧
      allPlans b base (insertAt child k address entries) =
        (child.plans b start).map fun added => before ++ (added ++ after) := by
  induction address generalizing entries above base plans with
  | nil =>
    cases hline
    rw [← List.take_append_drop k entries, allPlans_append] at h
    obtain ⟨before, hbefore, h⟩ := bind_eq_ok.1 h
    obtain ⟨after, hafter, h⟩ := bind_eq_ok.1 h
    cases h
    refine ⟨before, after, base, rfl, hbase, ?_⟩
    rw [insertAt, allPlans_append, hbefore, allPlans, hafter]
    cases child.plans b base <;> rfl
  | cons i address ih =>
    -- one step down changes the plans of one entry, and there only those of its children
    obtain ⟨e, he, hrest⟩ := Option.bind_eq_some_iff.1 hline
    obtain ⟨before, own, after, rfl, hown, hmodify, -⟩ := allPlans_getElem? h he
    obtain ⟨head, below, start, rfl, hstart, hbelow, hchildren, -⟩ := plans_children hbase hown
    obtain ⟨first, last, place, rfl, hplace, hinsert⟩ := ih hstart hbelow hrest
    refine ⟨before ++ (head ++ first), last ++ after, place, by simp, hplace, ?_⟩
    rw [insertAt, hmodify, hchildren, hinsert]
    cases child.plans b place with
    | error fault => rfl
    | ok added => exact congrArg Except.ok (by simp)

/-- The last entry of a line is committed with its own plan. -/
theorem lineTo_commit {address : List Nat} {entries above line : List Entry} {parent : Entry}
    {base : PagePath} {plans : List PagePlan} (hbase : IsBase b above base)
    (h : allPlans b base entries = .ok plans) (haddress : address ≠ [])
    (hline : lineTo address above entries = some (parent :: line))
    (hasks : parent.generatable?.isSome = true) :
    ∃ plan ∈ plans, IsPlanOf b ⟨parent, line⟩ plan ∧ ∀ more outer, ∃ parent' line' span,
      lineTo address outer (allCommit entries (plans ++ more)).1 = some (parent' :: line') ∧
        parent'.component = some (.bound plan.identifier span) := by
  induction address generalizing entries above base plans with
  | nil => exact absurd rfl haddress
  | cons i address ih =>
    obtain ⟨e, he, hrest⟩ := Option.bind_eq_some_iff.1 hline
    obtain ⟨before, own, after, rfl, hown, -, hcommit⟩ := allPlans_getElem? h he
    cases address with
    | nil =>
      cases hrest
      cases plansAs hown with
      | @asks title path span own plan below hname hcomponent hparse hplan hbelow =>
        refine ⟨plan, by simp, (isPlanOf_iff hbase hname hcomponent).2 ⟨own, hparse, hplan⟩,
          fun more outer => ?_⟩
        refine ⟨(parent.commit (plan :: below ++ (after ++ more))).1, outer, span, ?_, ?_⟩
        · rw [lineTo, hcommit]
          rfl
        · rw [List.cons_append, commit_of_asks hname hcomponent]
      | other hnone => simp [hnone] at hasks
    | cons j address =>
      obtain ⟨head, below, start, rfl, hstart, hbelow, -, hchildren⟩ := plans_children hbase hown
      obtain ⟨plan, hplan, hof, hfind⟩ := ih hstart hbelow (by simp) hrest
      refine ⟨plan, by simp [hplan], hof, fun more outer => ?_⟩
      rw [lineTo, hcommit, Option.bind_some, hchildren]
      exact hfind _ _

end Entry
end RoutePages
