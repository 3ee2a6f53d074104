import RoutePages.Edit.Rewrite
import RoutePages.Proofs.Succeeds
import RoutePages.Route.Parse

/-!
# What becomes of a route file

The whole way of a text: it is read as a route table, pages are planned for the table,
and the same text is rewritten for the pages.
-/
namespace RoutePages

/-- The text is read as the table, and the pages are planned for it. -/
structure IsPlanned (dialect : Dialect) (source pagesAlias : Text) (t : RouteTable)
    (plans : List PagePlan) : Prop where
  read : parseTable dialect source = .ok t
  plan : planPages t (.ofTable t pagesAlias) pagesAlias = .ok plans

/-- What the rewrite of a text gives, if the text can be read and planned. -/
def outcome? (dialect : Dialect) (source pagesAlias : Text) : Option (Except EditError Rewrite) :=
  match parseTable dialect source with
  | .error _ => none
  | .ok t =>
    match planPages t (.ofTable t pagesAlias) pagesAlias with
    | .error _ => none
    | .ok plans => some (rewrite source t plans pagesAlias)

theorem outcome?_eq_some {dialect : Dialect} {source pagesAlias : Text}
    {outcome : Except EditError Rewrite} :
    outcome? dialect source pagesAlias = some outcome ↔
      ∃ t plans, IsPlanned dialect source pagesAlias t plans ∧
        rewrite source t plans pagesAlias = outcome := by
  unfold outcome?
  constructor
  · intro h
    split at h
    · cases h
    · rename_i t ht
      split at h
      · cases h
      · rename_i plans hplans
        exact ⟨t, plans, ⟨ht, hplans⟩, Option.some.inj h⟩
  · rintro ⟨t, plans, ⟨ht, hplans⟩, h⟩
    simp only [ht, hplans, h]

end RoutePages
