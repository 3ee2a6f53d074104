import RoutePages.Proofs.Edit.Outcome
import RoutePages.Proofs.Route.Bare
import RoutePages.Proofs.Route.Marks
import RoutePages.Proofs.Route.Nodes
import RoutePages.Proofs.Route.Settle

/-!
# What a rewritten file is read as

Where the array of a rewritten file is the settled array, the file is read as the settled
entries: names, paths, children and other components are those that were read before, no
page is asked for and no directive left, and another rewrite changes nothing.
-/
namespace RoutePages

open Script

/-- Nothing is left to generate from an entry, and nothing to remove from it. -/
structure Entry.IsDone (e : Entry) : Prop where
  page : e.generatable? = none
  directives : e.directives = []

mutual

theorem Entry.nodes_settle (names : PageNames) : (e : Entry) →
    (e.settle names).nodes = e.nodes.map (Entry.settle names)
  | .mk name path component table service cover children span directives => by
    rw [Entry.settle, Entry.nodes, Entry.nodes, List.map_cons, Entry.settle,
      Entry.allNodes_settle names children]

theorem Entry.allNodes_settle (names : PageNames) : (entries : List Entry) →
    Entry.allNodes (Entry.settleAll names entries) =
      (Entry.allNodes entries).map (Entry.settle names)
  | [] => rfl
  | e :: rest => by
    rw [Entry.settleAll, Entry.allNodes, Entry.allNodes, List.map_append,
      Entry.nodes_settle names e, Entry.allNodes_settle names rest]

end

mutual

theorem Entry.nodes_bare : (e : Entry) → e.bare.nodes = e.nodes.map Entry.bare
  | .mk name path component table service cover children span directives => by
    rw [Entry.bare, Entry.nodes, Entry.nodes, List.map_cons, Entry.bare,
      Entry.allNodes_bare children]

theorem Entry.allNodes_bare : (entries : List Entry) →
    Entry.allNodes (Entry.allBare entries) = (Entry.allNodes entries).map Entry.bare
  | [] => rfl
  | e :: rest => by
    rw [Entry.allBare, Entry.allNodes, Entry.allNodes, List.map_append, Entry.nodes_bare e,
      Entry.allNodes_bare rest]

end

namespace Entry

/-- Spans tell nothing about what is left to do. -/
theorem isDone_bare (e : Entry) : e.bare.IsDone ↔ e.IsDone := by
  have hpage : e.bare.generatable? = e.generatable? := by
    rw [bare_eq]
    unfold generatable?
    dsimp only
    cases e.name with
    | none => rfl
    | some name => rcases e.component with _ | _ | _ | _ <;> rfl
  have hdirectives : e.bare.directives = [] ↔ e.directives = [] := by
    rw [bare_eq]
    exact List.map_eq_nil_iff
  exact ⟨fun h => ⟨hpage ▸ h.page, hdirectives.1 h.directives⟩,
    fun h => ⟨hpage.trans h.page, hdirectives.2 h.directives⟩⟩

/-- A settled entry is done, if its page was planned. -/
theorem isDone_settle {names : PageNames} {e : Entry}
    (h : ∀ name value span, e.name = some name → e.component = some (.path value span) →
      names span ≠ none) : (e.settle names).IsDone := by
  rw [settle_eq]
  refine ⟨?_, rfl⟩
  unfold generatable?
  split
  · rename_i name value span hname hcomponent
    obtain ⟨component, hc, hsettled⟩ := Option.map_eq_some_iff.1 hcomponent
    cases Component.path_of_settle hsettled
    cases hnames : names span with
    | none => exact absurd hnames (h name value span hname hc)
    | some identifier =>
      simp only [Component.settle, hnames] at hsettled
      cases hsettled
  · rfl

end Entry

mutual

/-- A page is planned for each entry that asks for one. -/
theorem plans_nodes {b : Bindings} : (e : Entry) → (base : PagePath) → (plans : List PagePlan) →
    e.plans b base = .ok plans → ∀ node ∈ e.nodes, ∀ name value span, node.name = some name →
      node.component = some (.path value span) → ∃ plan ∈ plans, plan.componentSpan = span
  | .mk name path component table service cover children span directives, base, plans, h => by
    obtain ⟨resolved, hresolved, h⟩ := bind_eq_ok.1 h
    obtain ⟨own, hown, h⟩ := bind_eq_ok.1 h
    obtain ⟨below, hbelow, h⟩ := bind_eq_ok.1 h
    cases h
    intro node hnode title value place hname hcomponent
    rw [Entry.nodes] at hnode
    rcases List.mem_cons.1 hnode with rfl | hnode
    · dsimp only at hname hcomponent
      subst hname hcomponent
      obtain ⟨page, -, hresolved⟩ := bind_eq_ok.1 hresolved
      cases hresolved
      obtain ⟨plan, hplan, hown⟩ := bind_eq_ok.1 hown
      cases hown
      obtain ⟨identifier, -, hplan⟩ := bind_eq_ok.1 hplan
      obtain ⟨componentName, -, hplan⟩ := bind_eq_ok.1 hplan
      cases hplan
      exact ⟨_, List.mem_append_left _ (List.mem_singleton_self _), rfl⟩
    · obtain ⟨plan, hplan, hspan⟩ :=
        allPlans_nodes children _ below hbelow node hnode title value place hname hcomponent
      exact ⟨plan, List.mem_append_right _ hplan, hspan⟩

theorem allPlans_nodes {b : Bindings} : (entries : List Entry) → (base : PagePath) →
    (plans : List PagePlan) → Entry.allPlans b base entries = .ok plans →
    ∀ node ∈ Entry.allNodes entries, ∀ name value span, node.name = some name →
      node.component = some (.path value span) → ∃ plan ∈ plans, plan.componentSpan = span
  | [], _, _, _ => nofun
  | e :: rest, base, plans, h => by
    obtain ⟨first, hfirst, h⟩ := bind_eq_ok.1 h
    obtain ⟨more, hmore, h⟩ := bind_eq_ok.1 h
    cases h
    intro node hnode name value span hname hcomponent
    rcases List.mem_append.1 hnode with hnode | hnode
    · obtain ⟨plan, hplan, hspan⟩ :=
        plans_nodes e base first hfirst node hnode name value span hname hcomponent
      exact ⟨plan, List.mem_append_left _ hplan, hspan⟩
    · obtain ⟨plan, hplan, hspan⟩ :=
        allPlans_nodes rest base more hmore node hnode name value span hname hcomponent
      exact ⟨plan, List.mem_append_right _ hplan, hspan⟩

end

/-- An entry that asks for no page only tells where its children start. -/
theorem resolve_of_isDone {b : Bindings} {e : Entry} (base : PagePath)
    (h : e.generatable? = none) : ∃ childBase, e.resolve base b = .ok ⟨none, childBase⟩ := by
  unfold Entry.resolve
  rw [h]
  dsimp only
  split
  · exact ⟨_, rfl⟩
  · exact ⟨_, rfl⟩

mutual

/-- Nothing is planned for entries that are done. -/
theorem plans_of_isDone {b : Bindings} : (e : Entry) → (base : PagePath) →
    (∀ node ∈ e.nodes, node.IsDone) → e.plans b base = .ok []
  | .mk name path component table service cover children span directives, base, h => by
    rw [Entry.nodes, List.forall_mem_cons] at h
    obtain ⟨childBase, hresolved⟩ := resolve_of_isDone (b := b)
      (e := .mk name path component table service cover [] span directives) base h.1.page
    rw [Entry.plans, hresolved]
    refine bind_eq_ok.2 ⟨_, rfl, bind_eq_ok.2 ⟨[], rfl, bind_eq_ok.2 ⟨[], ?_, rfl⟩⟩⟩
    exact allPlans_of_isDone children childBase h.2

theorem allPlans_of_isDone {b : Bindings} : (entries : List Entry) → (base : PagePath) →
    (∀ node ∈ Entry.allNodes entries, node.IsDone) → Entry.allPlans b base entries = .ok []
  | [], _, _ => rfl
  | e :: rest, base, h => by
    rw [Entry.allNodes, List.forall_mem_append] at h
    rw [Entry.allPlans, plans_of_isDone e base h.1, allPlans_of_isDone rest base h.2]
    rfl

end

mutual

theorem Rewrite.ownDirectives_of_isDone : (e : Entry) → (∀ node ∈ e.nodes, node.IsDone) →
    ∀ directives ∈ Rewrite.ownDirectives e, directives = []
  | .mk name path component table service cover children span directives, h => by
    rw [Entry.nodes, List.forall_mem_cons] at h
    rw [Rewrite.ownDirectives, List.forall_mem_cons]
    exact ⟨h.1.directives, Rewrite.directivesOf_of_isDone children h.2⟩

theorem Rewrite.directivesOf_of_isDone : (entries : List Entry) →
    (∀ node ∈ Entry.allNodes entries, node.IsDone) →
    ∀ directives ∈ Rewrite.directivesOf entries, directives = []
  | [], _ => nofun
  | e :: rest, h => by
    rw [Entry.allNodes, List.forall_mem_append] at h
    rw [Rewrite.directivesOf, List.forall_mem_append]
    exact ⟨Rewrite.ownDirectives_of_isDone e h.1, Rewrite.directivesOf_of_isDone rest h.2⟩

end

/-- A file whose entries are done is not changed. -/
theorem rewrite_of_isDone {source : Text} {t : RouteTable} {pagesAlias : Text}
    (h : ∀ node ∈ Entry.allNodes t.entries, node.IsDone) :
    rewrite source t [] pagesAlias = .ok ⟨source, [], false⟩ := by
  have hnone := Rewrite.directivesOf_of_isDone t.entries h
  have hremovals : (Rewrite.directivesOf t.entries).mapM (Removal.edits source) =
      .ok ((Rewrite.directivesOf t.entries).map fun _ => []) := by
    refine (mapM_eq_map (p := fun _ => True) fun directives hmem es => ?_).2
      ⟨fun _ _ => trivial, rfl⟩
    rw [hnone directives hmem, true_and]
    exact ⟨fun hes => (Except.ok.inj hes).symm, fun hes => congrArg Except.ok hes.symm⟩
  have hflatten : ((Rewrite.directivesOf t.entries).map fun _ => ([] : List Edit)).flatten = [] := by
    simp
  refine bind_eq_ok.2 ⟨[], rfl, bind_eq_ok.2 ⟨_, hremovals, ?_⟩⟩
  rw [hflatten]
  rfl

/-- The route array that a file declares. -/
def routeArrayOf? (dialect : Dialect) (source : Text) : Option RouteArray :=
  (parseModule dialect.hasMarkup (withoutMark source)).toOption.bind Part.firstArray?

theorem parseTable_array {dialect : Dialect} {source : Text} {t : RouteTable} {array : RouteArray}
    (h : parseTable dialect source = .ok t) (harray : routeArrayOf? dialect source = some array) :
    t.binding = array.binding ∧ entriesOf array.elements = .ok t.entries := by
  obtain ⟨parts, found, hparts, hfound, hentries, hbinding, -⟩ := parseTable_stages h
  unfold routeArrayOf? at harray
  rw [hparts] at harray
  cases hfound.symm.trans harray
  exact ⟨hbinding, hentries⟩

/-- Where a page is planned, some plan is found for its span. -/
theorem exists_ofPlans {plans : List PagePlan} {plan : PagePlan} (hplan : plan ∈ plans) :
    ∃ found ∈ plans, found.componentSpan = plan.componentSpan ∧
      PageNames.ofPlans plans plan.componentSpan = some found.identifier := by
  cases hfound : plans.find? (·.componentSpan = plan.componentSpan) with
  | none =>
    have hno := List.find?_eq_none.1 hfound plan hplan
    simp at hno
  | some found =>
    have hsame := List.find?_some hfound
    exact ⟨found, List.mem_of_find?_eq_some hfound, by simpa using hsame, by
      rw [PageNames.ofPlans, hfound, Option.map_some]⟩

/-- What is read of a route file is what was read of another, with its entries settled. -/
structure IsSettled (t t' : RouteTable) (plans : List PagePlan) : Prop where
  binding : t'.binding = t.binding
  /-- nothing but components and directives has changed, and no entry came or went -/
  entries : Entry.allBare t'.entries =
    Entry.allBare (Entry.settleAll (.ofPlans plans) t.entries)
  /-- where a page was asked for there is the identifier that was planned -/
  pages : ∀ node ∈ Entry.allNodes t.entries, ∀ name value span, node.name = some name →
    node.component = some (.path value span) → ∃ plan ∈ plans, plan.componentSpan = span ∧
      (node.settle (.ofPlans plans)).component = some (.bound plan.identifier span)
  /-- nothing is left to do -/
  done : ∀ node ∈ Entry.allNodes t'.entries, node.IsDone

theorem planPages_nodes {t : RouteTable} {b : Bindings} {pagesAlias : Text} {plans : List PagePlan}
    (h : planPages t b pagesAlias = .ok plans) :
    ∀ node ∈ Entry.allNodes t.entries, ∀ name value span, node.name = some name →
      node.component = some (.path value span) → ∃ plan ∈ plans, plan.componentSpan = span := by
  unfold planPages at h
  split at h
  · cases h
  · rename_i read hread
    obtain ⟨_, -, rfl⟩ := map_eq_ok.1 h
    exact allPlans_nodes _ _ _ hread

/-- Where the array of a text is the settled array of the source, spans aside, the text is read as
the settled table, and planning and rewriting it once more does nothing. -/
theorem parseTable_settled {dialect : Dialect} {source text pagesAlias : Text} {t t' : RouteTable}
    {plans : List PagePlan} (h : IsPlanned dialect source pagesAlias t plans)
    {array array' : RouteArray} (harray : routeArrayOf? dialect source = some array)
    (harray' : routeArrayOf? dialect text = some array') (hname : array'.binding = array.binding)
    (helements : Element.allBare array'.elements =
      Element.allBare (Element.settleAll (.ofPlans plans) array.elements))
    (ht' : parseTable dialect text = .ok t') :
    IsSettled t t' plans ∧ planPages t' (.ofTable t' pagesAlias) pagesAlias = .ok [] ∧
      rewrite text t' [] pagesAlias = .ok ⟨text, [], false⟩ := by
  obtain ⟨hbinding, hentries⟩ := parseTable_array h.read harray
  obtain ⟨hbinding', hentries'⟩ := parseTable_array ht' harray'
  have hsettled := entries_bare.2.2 _ _ ((entries_settle (.ofPlans plans)).2.2 _ _ hentries)
  have hread := entries_bare.2.2 _ _ hentries'
  rw [helements, hsettled] at hread
  have hbare := (Except.ok.inj hread).symm
  have hfind : ∀ node ∈ Entry.allNodes t.entries, ∀ name value span, node.name = some name →
      node.component = some (.path value span) →
      ∃ plan ∈ plans, plan.componentSpan = span ∧
        PageNames.ofPlans plans span = some plan.identifier := by
    intro node hnode name value span htitle hcomponent
    obtain ⟨plan, hplan, hspan⟩ := planPages_nodes h.plan node hnode name value span htitle hcomponent
    exact hspan ▸ exists_ofPlans hplan
  have hdone : ∀ node ∈ Entry.allNodes t'.entries, node.IsDone := by
    intro node' hnode'
    -- the node is known without its spans only, as one of the settled entries
    have hmem : node'.bare ∈ Entry.allNodes (Entry.allBare t'.entries) := by
      rw [Entry.allNodes_bare]
      exact List.mem_map_of_mem hnode'
    rw [hbare, Entry.allNodes_bare, Entry.allNodes_settle, List.map_map] at hmem
    obtain ⟨node, hnode, heq⟩ := List.mem_map.1 hmem
    rw [← Entry.isDone_bare, ← heq, Function.comp_apply, Entry.isDone_bare]
    refine Entry.isDone_settle fun name value span htitle hcomponent hnone => ?_
    obtain ⟨plan, -, -, hsome⟩ := hfind node hnode name value span htitle hcomponent
    cases hnone.symm.trans hsome
  refine ⟨⟨?_, hbare, ?_, hdone⟩, ?_, rewrite_of_isDone hdone⟩
  · rw [hbinding', hname, hbinding]
  · intro node hnode name value span htitle hcomponent
    obtain ⟨plan, hplan, hspan, hsome⟩ := hfind node hnode name value span htitle hcomponent
    refine ⟨plan, hplan, hspan, ?_⟩
    rw [Entry.settle_eq, hcomponent]
    simp only [Option.map_some, Component.settle, hsome]
  · unfold planPages
    rw [allPlans_of_isDone t'.entries .root hdone]
    rfl

theorem unread_of_isNone {dialect : Dialect} {text : Text}
    (h : (parseTable dialect text).toOption.isNone = true) (t : RouteTable) :
    parseTable dialect text ≠ .ok t := by
  intro ht
  rw [ht] at h
  cases h

/-- Files that are no longer read after their rewrite: the comma behind a removed directive stays
where a comment stands before it, and where it begins the next line. -/
theorem rewrite_breaks_entry :
    (let source : Text := "const r: R[]=[\x7btable: true /**/, name: 'a'\x7d]"
      ∃ t plans r, IsPlanned .ts source "@/pages" t plans ∧
        rewrite source t plans "@/pages" = .ok r ∧ ∀ t', parseTable .ts r.text ≠ .ok t') ∧
    let source : Text := "const r: R[]=[\x7b\n table: true\n , name: 'a'\x7d]"
    ∃ t plans r, IsPlanned .ts source "@/pages" t plans ∧
      rewrite source t plans "@/pages" = .ok r ∧ ∀ t', parseTable .ts r.text ≠ .ok t' := by
  constructor
  · intro source
    have hrewrite : outcome? .ts source "@/pages" =
        some (.ok ⟨"const r: R[]=[\x7b /**/, name: 'a'\x7d]", [], true⟩) := by decide +kernel
    obtain ⟨t, plans, hplanned, hr⟩ := outcome?_eq_some.1 hrewrite
    exact ⟨t, plans, _, hplanned, hr, unread_of_isNone (by decide +kernel)⟩
  · intro source
    have hrewrite : outcome? .ts source "@/pages" =
        some (.ok ⟨"const r: R[]=[\x7b\n , name: 'a'\x7d]", [], true⟩) := by decide +kernel
    obtain ⟨t, plans, hplanned, hr⟩ := outcome?_eq_some.1 hrewrite
    exact ⟨t, plans, _, hplanned, hr, unread_of_isNone (by decide +kernel)⟩

end RoutePages
