import RoutePages.Page.Plan
import RoutePages.Proofs.Succeeds

/-!
# Where pages lie

A page lies below the page of the nearest entry above it that has one: the page that is
generated for that entry, or the one that it names by an import. Entries between them,
and entries beside them, do not matter.
-/
namespace RoutePages

/-- An entry of a table with the entries it lies below, the nearest first. -/
structure Placed where
  entry : Entry
  above : List Entry

mutual

/-- An entry and all below it, in the order of the document. -/
def Entry.placed (above : List Entry) : Entry → List Placed
  | .mk name path component table service cover children span directives =>
    let e := Entry.mk name path component table service cover children span directives
    ⟨e, above⟩ :: Entry.allPlaced (e :: above) children

def Entry.allPlaced (above : List Entry) : List Entry → List Placed
  | [] => []
  | e :: rest => e.placed above ++ Entry.allPlaced above rest

end

/-- The page that an entry names by an import. -/
def Entry.importedPage? (b : Bindings) (e : Entry) : Option PagePath :=
  match e.component with
  | some (.bound name _) => b.get? name
  | _ => none

/-- The entry has no page, so that those below it start where it starts itself. -/
structure Entry.IsPassed (b : Bindings) (e : Entry) : Prop where
  page : e.generatable? = none
  imported : e.importedPage? b = none

/-- The page of the nearest of some entries that has one. -/
inductive IsBase (b : Bindings) : (above : List Entry) → PagePath → Prop
  | top {above : List Entry} (hpassed : ∀ e ∈ above, e.IsPassed b) : IsBase b above .root
  | generated {between above : List Entry} {e : Entry} {title path : Text} {base own : PagePath}
      (hpassed : ∀ e ∈ between, e.IsPassed b) (hasks : e.generatable? = some (title, path))
      (hown : PagePath.parse path = .ok own) (hbase : IsBase b above base) :
      IsBase b (between ++ e :: above) (base.join own)
  | imported {between above : List Entry} {e : Entry} {page : PagePath}
      (hpassed : ∀ e ∈ between, e.IsPassed b) (hpage : e.importedPage? b = some page) :
      IsBase b (between ++ e :: above) page

namespace IsBase

variable {b : Bindings} {e : Entry} {above : List Entry} {base page : PagePath}

theorem passed (he : e.IsPassed b) (h : IsBase b above base) : IsBase b (e :: above) base := by
  cases h with
  | top hpassed => exact .top (List.forall_mem_cons.2 ⟨he, hpassed⟩)
  | generated hpassed hasks hown hbase =>
    exact .generated (List.forall_mem_cons.2 ⟨he, hpassed⟩) hasks hown hbase
  | imported hpassed hpage => exact .imported (List.forall_mem_cons.2 ⟨he, hpassed⟩) hpage

theorem below_asking {title path : Text} {own : PagePath} (h : IsBase b above base)
    (hasks : e.generatable? = some (title, path)) (hown : PagePath.parse path = .ok own) :
    IsBase b (e :: above) (base.join own) := by
  have hnone : ∀ e ∈ ([] : List Entry), e.IsPassed b := by simp
  exact .generated hnone hasks hown h

theorem below_imported (hpage : e.importedPage? b = some page) : IsBase b (e :: above) page := by
  have hnone : ∀ e ∈ ([] : List Entry), e.IsPassed b := by simp
  exact .imported hnone hpage

/-- The nearest entry has a page of its own, or names one, or is passed. -/
theorem cons_cases (h : IsBase b (e :: above) page) :
    (∃ title path own base, e.generatable? = some (title, path) ∧
      PagePath.parse path = .ok own ∧ IsBase b above base ∧ page = base.join own) ∨
    e.importedPage? b = some page ∨ e.IsPassed b ∧ IsBase b above page := by
  generalize hline : e :: above = line at h
  cases h with
  | top hpassed =>
    subst hline
    obtain ⟨he, hrest⟩ := List.forall_mem_cons.1 hpassed
    exact .inr (.inr ⟨he, .top hrest⟩)
  | @generated between _ _ _ _ _ _ hpassed hasks hown hbase =>
    cases between with
    | nil =>
      cases hline
      exact .inl ⟨_, _, _, _, hasks, hown, hbase, rfl⟩
    | cons first between =>
      cases hline
      obtain ⟨he, hrest⟩ := List.forall_mem_cons.1 hpassed
      exact .inr (.inr ⟨he, .generated hrest hasks hown hbase⟩)
  | @imported between _ _ _ hpassed hpage =>
    cases between with
    | nil =>
      cases hline
      exact .inr (.inl hpage)
    | cons first between =>
      cases hline
      obtain ⟨he, hrest⟩ := List.forall_mem_cons.1 hpassed
      exact .inr (.inr ⟨he, .imported hrest hpage⟩)

theorem importedPage?_of_asks {found : Text × Text} (h : e.generatable? = some found) :
    e.importedPage? b = none := by
  unfold Entry.generatable? at h
  split at h
  · rename_i hcomponent
    unfold Entry.importedPage?
    rw [hcomponent]
  · cases h

theorem unique (h : IsBase b above base) (h' : IsBase b above page) : base = page := by
  induction above generalizing base page with
  | nil =>
    have hroot : ∀ {p}, IsBase b [] p → p = .root := by
      intro p hp
      generalize hline : ([] : List Entry) = line at hp
      cases hp with
      | top => rfl
      | generated => simp at hline
      | imported => simp at hline
    rw [hroot h, hroot h']
  | cons e above ih =>
    rcases h.cons_cases with ⟨title, path, own, p, hasks, hown, hp, rfl⟩ | hpage | ⟨he, hp⟩
    · rcases h'.cons_cases with ⟨_, _, _, q, hasks', hown', hq, rfl⟩ | hpage | ⟨he, -⟩
      · cases hasks.symm.trans hasks'
        cases hown.symm.trans hown'
        rw [ih hp hq]
      · cases (importedPage?_of_asks hasks).symm.trans hpage
      · cases he.page.symm.trans hasks
    · rcases h'.cons_cases with ⟨_, _, _, q, hasks', -, -, -⟩ | hpage' | ⟨he, -⟩
      · cases (importedPage?_of_asks hasks').symm.trans hpage
      · exact Option.some.inj (hpage.symm.trans hpage')
      · cases he.imported.symm.trans hpage
    · rcases h'.cons_cases with ⟨_, _, _, q, hasks', -, -, -⟩ | hpage' | ⟨-, hq⟩
      · cases he.page.symm.trans hasks'
      · cases he.imported.symm.trans hpage'
      · exact ih hp hq

end IsBase

/-- The plan is made for the entry: it tells what the entry tells, and its page is the path of the
entry below the page of the nearest entry above that has one. -/
structure IsPlanOf (b : Bindings) (p : Placed) (plan : PagePlan) : Prop where
  name : p.entry.name = some plan.name
  page : ∃ path own base, p.entry.component = some (.path path plan.componentSpan) ∧
    PagePath.parse path = .ok own ∧ IsBase b p.above base ∧ plan.page = base.join own
  identifier : deriveBinding plan.page.toText = .ok plan.identifier
  componentName : deriveBinding (plan.page.last?.getD []) = .ok plan.componentName
  table : plan.table = p.entry.table
  service : plan.service = p.entry.service
  cover : plan.cover = p.entry.cover

/-- Does a component name a page by its path? -/
def Component.isPath : Component → Bool
  | .path _ _ => true
  | .bound _ _ => false
  | .inline => false

/-- Does an entry have a name and a component that names its page? -/
def Placed.asks (p : Placed) : Bool :=
  p.entry.name.isSome && p.entry.component.any Component.isPath

theorem Placed.asks_eq (e : Entry) (above : List Entry) :
    Placed.asks ⟨e, above⟩ = e.generatable?.isSome := by
  unfold Placed.asks Entry.generatable?
  rcases e.name with _ | name
  · rfl
  · rcases e.component with _ | _ | _ | _ <;> rfl

namespace Entry

variable {b : Bindings} {e : Entry} {base : PagePath} {title path : Text} {span : Span}

theorem generatable?_eq_some :
    e.generatable? = some (title, path) ↔
      e.name = some title ∧ ∃ span, e.component = some (.path path span) := by
  unfold generatable?
  constructor
  · intro h
    split at h
    · rename_i hname hcomponent
      cases h
      exact ⟨hname, _, hcomponent⟩
    · cases h
  · rintro ⟨hname, span, hcomponent⟩
    rw [hname, hcomponent]

theorem plans_eq (e : Entry) (base : PagePath) : e.plans b base = do
    let resolved ← e.resolve base b
    let own ← e.ownPlans resolved
    let below ← allPlans b resolved.childBase e.children
    return own ++ below := by
  cases e
  rw [plans]
  rfl

theorem resolve_of_asks (h : e.generatable? = some (title, path)) (base : PagePath) :
    e.resolve base b =
      (PagePath.parse path).map fun own => ⟨some (base.join own), base.join own⟩ := by
  unfold resolve
  rw [h]
  dsimp only
  cases PagePath.parse path <;> rfl

theorem resolve_of_other (h : e.generatable? = none) (base : PagePath) :
    e.resolve base b = .ok ⟨none, (e.importedPage? b).getD base⟩ := by
  unfold resolve importedPage?
  rw [h]
  rcases e.component with _ | _ | _ | _ <;> rfl

theorem plans_of_asks (hname : e.name = some title) (hcomponent : e.component = some (.path path span))
    (base : PagePath) : e.plans b base = do
      let own ← PagePath.parse path
      let plan ← e.plan title span (base.join own)
      let below ← allPlans b (base.join own) e.children
      return plan :: below := by
  have hasks := generatable?_eq_some.2 ⟨hname, span, hcomponent⟩
  rw [plans_eq, resolve_of_asks hasks]
  cases PagePath.parse path with
  | error fault => rfl
  | ok own =>
    have hown : e.ownPlans ⟨some (base.join own), base.join own⟩ =
        (e.plan title span (base.join own)).map ([·]) := by
      unfold ownPlans
      rw [hname, hcomponent]
      rfl
    show (e.ownPlans ⟨some (base.join own), base.join own⟩ >>= _) =
      e.plan title span (base.join own) >>= fun plan =>
        allPlans b (base.join own) e.children >>= fun below => Except.ok (plan :: below)
    rw [hown]
    cases e.plan title span (base.join own) <;> rfl

theorem plans_of_other (h : e.generatable? = none) (base : PagePath) :
    e.plans b base = allPlans b ((e.importedPage? b).getD base) e.children := by
  rw [plans_eq, resolve_of_other h]
  show (allPlans b _ e.children >>= fun below => Except.ok ([] ++ below)) = _
  cases allPlans b ((e.importedPage? b).getD base) e.children <;> rfl

theorem plan_eq_ok {page : PagePath} {plan : PagePlan} :
    e.plan title span page = .ok plan ↔
      plan.name = title ∧ plan.componentSpan = span ∧ plan.page = page ∧
        deriveBinding page.toText = .ok plan.identifier ∧
        deriveBinding (page.last?.getD []) = .ok plan.componentName ∧
        plan.table = e.table ∧ plan.service = e.service ∧ plan.cover = e.cover := by
  unfold Entry.plan
  constructor
  · intro h
    obtain ⟨identifier, hidentifier, h⟩ := bind_eq_ok.1 h
    obtain ⟨componentName, hcomponentName, h⟩ := bind_eq_ok.1 h
    cases h
    exact ⟨rfl, rfl, rfl, hidentifier, hcomponentName, rfl, rfl, rfl⟩
  · rintro ⟨rfl, rfl, rfl, hidentifier, hcomponentName, htable, hservice, hcover⟩
    rw [hidentifier, hcomponentName, ← htable, ← hservice, ← hcover]
    rfl

end Entry

variable {b : Bindings}

theorem isPlanOf_iff {e : Entry} {above : List Entry} {base : PagePath} {title path : Text}
    {span : Span} {plan : PagePlan} (hbase : IsBase b above base) (hname : e.name = some title)
    (hcomponent : e.component = some (.path path span)) :
    IsPlanOf b ⟨e, above⟩ plan ↔
      ∃ own, PagePath.parse path = .ok own ∧ e.plan title span (base.join own) = .ok plan := by
  constructor
  · intro h
    obtain ⟨value, own, place, hvalue, hown, hplace, hpage⟩ := h.page
    cases hcomponent.symm.trans hvalue
    cases hplace.unique hbase
    refine ⟨own, hown, Entry.plan_eq_ok.2 ⟨?_, rfl, hpage, ?_, ?_, h.table, h.service, h.cover⟩⟩
    · exact Option.some.inj (h.name.symm.trans hname)
    · rw [← hpage]
      exact h.identifier
    · rw [← hpage]
      exact h.componentName
  · rintro ⟨own, hown, hplan⟩
    obtain ⟨rfl, rfl, hpage, hidentifier, hcomponentName, htable, hservice, hcover⟩ :=
      Entry.plan_eq_ok.1 hplan
    exact ⟨hname, ⟨path, own, base, hcomponent, hown, hbase, hpage⟩, hpage ▸ hidentifier,
      hpage ▸ hcomponentName, htable, hservice, hcover⟩

theorem isBase_children {e : Entry} {above : List Entry} {base : PagePath}
    (hbase : IsBase b above base) (h : e.generatable? = none) :
    IsBase b (e :: above) ((e.importedPage? b).getD base) := by
  cases hpage : e.importedPage? b with
  | none => exact hbase.passed ⟨h, hpage⟩
  | some page => exact .below_imported hpage

mutual

/-- What is planned for an entry that starts from a base, and for all below it. -/
theorem plans_iff : (e : Entry) → (above : List Entry) → (base : PagePath) → IsBase b above base →
    (plans : List PagePlan) → (e.plans b base = .ok plans ↔
      List.Forall₂ (IsPlanOf b) ((e.placed above).filter Placed.asks) plans)
  | .mk name path component table service cover children span directives, above, base, hbase, plans =>
    by
    -- the base goes down the tree together with the line of entries that decides it
    generalize he : Entry.mk name path component table service cover children span directives = e
    have hplaced : e.placed above = ⟨e, above⟩ :: Entry.allPlaced (e :: above) children := by
      rw [← he, Entry.placed]
    have hchildren : e.children = children := by rw [← he]
    cases hasks : e.generatable? with
    | none =>
      have hskip : Placed.asks ⟨e, above⟩ = false := by simp [Placed.asks_eq, hasks]
      rw [Entry.plans_of_other hasks, hplaced, List.filter_cons, if_neg (by simp [hskip]), hchildren]
      exact allPlans_iff children _ _ (isBase_children hbase hasks) plans
    | some found =>
      obtain ⟨title, value⟩ := found
      obtain ⟨hname, place, hcomponent⟩ := Entry.generatable?_eq_some.1 hasks
      have hkeep : Placed.asks ⟨e, above⟩ = true := by simp [Placed.asks_eq, hasks]
      rw [Entry.plans_of_asks hname hcomponent, hplaced, List.filter_cons, if_pos hkeep,
        List.forall₂_cons_left_iff, hchildren]
      simp only [isPlanOf_iff hbase hname hcomponent]
      constructor
      · intro h
        obtain ⟨own, hown, h⟩ := bind_eq_ok.1 h
        obtain ⟨plan, hplan, h⟩ := bind_eq_ok.1 h
        obtain ⟨below, hbelow, h⟩ := bind_eq_ok.1 h
        cases h
        have hnext := hbase.below_asking hasks hown
        exact ⟨plan, below, ⟨own, hown, hplan⟩, (allPlans_iff children _ _ hnext below).1 hbelow, rfl⟩
      · rintro ⟨plan, below, ⟨own, hown, hplan⟩, hbelow, rfl⟩
        have hnext := hbase.below_asking hasks hown
        have hrest := (allPlans_iff children _ _ hnext below).2 hbelow
        exact bind_eq_ok.2 ⟨own, hown, bind_eq_ok.2 ⟨plan, hplan, bind_eq_ok.2 ⟨below, hrest, rfl⟩⟩⟩

theorem allPlans_iff : (entries : List Entry) → (above : List Entry) → (base : PagePath) →
    IsBase b above base → (plans : List PagePlan) → (Entry.allPlans b base entries = .ok plans ↔
      List.Forall₂ (IsPlanOf b) ((Entry.allPlaced above entries).filter Placed.asks) plans)
  | [], _, _, _, plans => by
    rw [Entry.allPlans, Entry.allPlaced, List.filter_nil, List.forall₂_nil_left_iff]
    exact ⟨fun h => by cases h; rfl, fun h => by rw [h]⟩
  | e :: rest, above, base, hbase, plans => by
    rw [Entry.allPlans, Entry.allPlaced, List.filter_append, forall₂_append_left]
    constructor
    · intro h
      obtain ⟨first, hfirst, h⟩ := bind_eq_ok.1 h
      obtain ⟨more, hmore, h⟩ := bind_eq_ok.1 h
      cases h
      exact ⟨first, more, (plans_iff e above base hbase first).1 hfirst,
        (allPlans_iff rest above base hbase more).1 hmore, rfl⟩
    · rintro ⟨first, more, hfirst, hmore, rfl⟩
      have h₁ := (plans_iff e above base hbase first).2 hfirst
      have h₂ := (allPlans_iff rest above base hbase more).2 hmore
      exact bind_eq_ok.2 ⟨first, h₁, bind_eq_ok.2 ⟨more, h₂, rfl⟩⟩

end

/-- Every plan that is collected is made for an entry. -/
theorem exists_isPlanOf {entries : List Entry} {plans : List PagePlan} {plan : PagePlan}
    (h : Entry.allPlans b .root entries = .ok plans) (hplan : plan ∈ plans) :
    ∃ p, IsPlanOf b p plan := by
  have hroot : IsBase b [] .root := .top (by simp)
  have hplans := (allPlans_iff entries [] .root hroot plans).1 h
  obtain ⟨p, -, hof⟩ := forall₂_exists_left hplans hplan
  exact ⟨p, hof⟩

/-- The plans collected from a table are one for each entry that asks for a page, in the order of
the document, and each is made for its entry. The entries above it alone decide where a page
starts. -/
theorem allPlans_iff_isPlanOf (t : RouteTable) (b : Bindings) (plans : List PagePlan) :
    (Entry.allPlans b .root t.entries = .ok plans ↔
      List.Forall₂ (IsPlanOf b) ((Entry.allPlaced [] t.entries).filter Placed.asks) plans) ∧
    ∀ above base page, IsBase b above base → IsBase b above page → base = page := by
  have hroot : IsBase b [] .root := .top (by simp)
  exact ⟨allPlans_iff t.entries [] .root hroot plans, fun _ _ _ h h' => h.unique h'⟩

/-- Below a planned page through an entry without one, below an import, and beside both. -/
example :
    let here : Span := ⟨0, 0⟩
    let entry (title : Option Text) (component : Component) (children : List Entry) : Entry :=
      ⟨title, none, some component, false, false, none, children, here, []⟩
    let page (title path : Text) : List Entry → Entry := entry (some title) (.path path here)
    let entries := [
      page "list" "users//list" [entry none .inline [page "edit" "./edit" []]],
      entry none (.bound "Setting" here) [page "user" "/user" []],
      page "kanban" "kanban" []]
    let b := Bindings.ofImports [⟨["Setting"], "@/pages/setting", here⟩] "@/pages"
    (Entry.allPlans b .root entries).toOption.map (·.map (·.page.toText)) =
      some (Text.texts ["/users/list", "/users/list/edit", "/setting/user", "/kanban"]) := by
  decide +kernel

end RoutePages
