import Mathlib.Data.List.Perm.Subperm
import RoutePages.Edit.Rewrite
import RoutePages.Proofs.Edit.Extent
import RoutePages.Proofs.Route.Nesting

/-!
# The ranges that an entry is edited at

A page is planned for a component of an entry, and what is removed from the entry are its
directives. So all that is edited are spans that the table records, which lie apart from each
other, and the place for the imports.
-/
namespace RoutePages

open Script

/-- A line ends before the line feed behind an offset, or where the text ends, and before a carriage
return that stands there. -/
theorem lineEnd_spec {source : Text} {offset n : Nat} (h : lineEnd source offset = .ok n) :
    ∃ before line after, source = before ++ line ++ after ∧ Text.size before = offset ∧
      '\n' ∉ line ∧ (∀ c ∈ after.head?, c = '\n') ∧
      ((before ++ line).getLast? ≠ some '\r' ∧ n = Text.size (before ++ line) ∨
        ∃ kept, before ++ line = kept ++ ['\r'] ∧ n = Text.size kept) := by
  unfold lineEnd at h
  split at h
  · cases h
  · rename_i rest hrest
    obtain ⟨before, rfl, rfl⟩ := Text.drop?_eq_some.1 hrest
    obtain ⟨after, hsplit, hline, hafter⟩ := Removal.beforeBreak_split rest
    have hsource : before ++ rest = before ++ Text.beforeBreak rest ++ after := by
      rw [List.append_assoc, ← hsplit]
    rw [hsource, ← Text.size_append] at h
    dsimp only at h
    rw [Text.take?_append] at h
    dsimp only [Option.bind] at h
    refine ⟨before, Text.beforeBreak rest, after, hsource, rfl, hline, hafter, ?_⟩
    split at h
    · rename_i hlast
      cases h
      obtain ⟨kept, hcut⟩ := List.getLast?_eq_some_iff.1 hlast
      have hsize : Text.size ['\r'] = 1 := by decide
      exact .inr ⟨kept, hcut, by rw [hcut, Text.size_append, hsize, Nat.add_sub_cancel]⟩
    · rename_i hlast
      cases h
      exact .inl ⟨hlast, rfl⟩

/-- The end of a line lies between two characters. -/
theorem lineEnd_isBoundary {source : Text} {offset n : Nat} (h : lineEnd source offset = .ok n) :
    source.isBoundary n = true := by
  obtain ⟨before, line, after, rfl, -, -, -, ⟨-, rfl⟩ | ⟨kept, hcut, rfl⟩⟩ := lineEnd_spec h
  · exact Text.isBoundary_size_append _ _
  · rw [hcut, List.append_assoc]
    exact Text.isBoundary_size_append _ _

theorem parseTable_anchor_isBoundary {dialect : Dialect} {source : Text} {t : RouteTable}
    (h : parseTable dialect source = .ok t) {n : Nat} (hn : t.importAnchor = some n) :
    source.isBoundary n = true := by
  obtain ⟨_, _, -, -, -, -, -, hanchor, -⟩ := parseTable_stages h
  rw [hn] at hanchor
  unfold importAnchor at hanchor
  split at hanchor
  · cases hanchor
  · obtain ⟨n, hline, h⟩ := map_eq_ok.1 hanchor
    cases h
    exact lineEnd_isBoundary hline

/-- A page is planned only where a component names it. -/
theorem ownPlans_marks {e : Entry} {r : Resolved} {plans : List PagePlan}
    (h : e.ownPlans r = .ok plans) :
    (plans.map PagePlan.componentSpan).Sublist (Component.marks e.component) := by
  unfold Entry.ownPlans at h
  split at h
  · rename_i page name path span _ _ hcomponent
    obtain ⟨plan, hplan, h⟩ := bind_eq_ok.1 h
    cases h
    obtain ⟨identifier, -, hplan⟩ := bind_eq_ok.1 hplan
    obtain ⟨componentName, -, hplan⟩ := bind_eq_ok.1 hplan
    cases hplan
    rw [hcomponent]
    exact .refl _
  · cases h
    exact List.nil_sublist _

theorem perm_regroup {α : Type} (a b c d : List α) :
    ((a ++ b) ++ (c ++ d)).Perm ((a ++ c) ++ (b ++ d)) := by
  rw [List.append_assoc, List.append_assoc]
  exact (List.perm_append_comm_assoc b c d).append_left a

mutual

/-- What is planned for an entry and what is removed from it stands at ranges it may be edited
at, each at one of its own. -/
theorem plans_marks {b : Bindings} : (e : Entry) → (base : PagePath) → (plans : List PagePlan) →
    e.plans b base = .ok plans →
    (plans.map PagePlan.componentSpan ++
      (Rewrite.ownDirectives e).flatten.map DirectiveSpan.span).Subperm e.marks
  | .mk name path component table service cover children span directives, base, plans, h => by
    obtain ⟨resolved, -, h⟩ := bind_eq_ok.1 h
    obtain ⟨own, hown, h⟩ := bind_eq_ok.1 h
    obtain ⟨below, hbelow, h⟩ := bind_eq_ok.1 h
    cases h
    have hrest := allPlans_marks children _ below hbelow
    have hfirst := (ownPlans_marks hown).append (List.Sublist.refl (directives.map DirectiveSpan.span))
    rw [Rewrite.ownDirectives, List.flatten_cons, List.map_append, List.map_append, Entry.marks]
    exact (perm_regroup _ _ _ _).subperm.trans (hfirst.subperm.append hrest)

theorem allPlans_marks {b : Bindings} : (entries : List Entry) → (base : PagePath) →
    (plans : List PagePlan) → Entry.allPlans b base entries = .ok plans →
    (plans.map PagePlan.componentSpan ++
      (Rewrite.directivesOf entries).flatten.map DirectiveSpan.span).Subperm
        (Entry.allMarks entries)
  | [], _, _, h => by
    cases h
    exact List.nil_subperm
  | e :: rest, base, plans, h => by
    obtain ⟨first, hfirst, h⟩ := bind_eq_ok.1 h
    obtain ⟨more, hmore, h⟩ := bind_eq_ok.1 h
    cases h
    have hall := (plans_marks e base first hfirst).append (allPlans_marks rest base more hmore)
    rw [Rewrite.directivesOf, List.flatten_append, List.map_append, List.map_append, Entry.allMarks]
    exact (perm_regroup _ _ _ _).subperm.trans hall

end

/-- The components that pages are planned for and the directives of a route file lie apart from
each other. -/
theorem planPages_apart {dialect : Dialect} {source : Text} {t : RouteTable} {b : Bindings}
    {pagesAlias : Text} {plans : List PagePlan} (ht : parseTable dialect source = .ok t)
    (hplans : planPages t b pagesAlias = .ok plans) :
    (plans.map PagePlan.componentSpan ++
      (Rewrite.directivesOf t.entries).flatten.map DirectiveSpan.span).Pairwise Span.Apart := by
  have hall := (parseTable_nested ht).marks_pairwise
  unfold planPages at hplans
  split at hplans
  · cases hplans
  · rename_i read hread
    obtain ⟨_, -, rfl⟩ := map_eq_ok.1 hplans
    obtain ⟨spans, hperm, hsub⟩ := allPlans_marks _ _ _ hread
    exact (hperm.pairwise_iff fun {_ _} => Span.Apart.symm).1 (hall.sublist hsub)

end RoutePages
