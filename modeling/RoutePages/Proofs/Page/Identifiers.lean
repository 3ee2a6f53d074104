import Mathlib.Tactic.Tauto
import RoutePages.Page.Identifier
import RoutePages.Proofs.Page.Imported
import RoutePages.Proofs.Succeeds

/-!
# What identifiers are made of

The identifier of a page has the characters of the page's segments in it, so that a page with an
identifier has none that cannot stand in one.
-/
namespace RoutePages

/-- No step of the page has a point in it. -/
def PagePath.IsPlain (p : PagePath) : Prop := ∀ s ∈ p.segments, '.' ∉ s

theorem isIdentifier_spec {name : Text} (h : isIdentifier name = true) {c : Char} (hc : c ∈ name) :
    Text.isLetter c = true ∨ Text.isNumeral c = true ∨ c = '_' ∨ c = '$' := by
  cases name with
  | nil => cases hc
  | cons first rest =>
    obtain ⟨hfirst, hrest⟩ := Bool.and_eq_true_iff.1 h
    rcases List.mem_cons.1 hc with rfl | hc
    · simp only [Bool.or_eq_true, decide_eq_true_eq] at hfirst
      tauto
    · have hother := List.all_eq_true.1 hrest c hc
      simp only [Bool.or_eq_true, decide_eq_true_eq] at hother
      tauto

theorem Text.mem_upperFirst {c : Char} (hupper : c ∈ Text.uppercase c) {s : Text} (h : c ∈ s) :
    c ∈ Text.upperFirst s := by
  cases s with
  | nil => cases h
  | cons first s =>
    rw [Text.upperFirst]
    rcases List.mem_cons.1 h with rfl | h
    · exact List.mem_append_left _ hupper
    · exact List.mem_append_right _ h

theorem deriveBinding_eq_ok {path name : Text} (h : deriveBinding path = .ok name) :
    deriveIdentifier path = .ok name ∧ isIdentifier name = true := by
  obtain ⟨derived, hderived, h⟩ := bind_eq_ok.1 h
  split at h
  · rename_i hidentifier
    cases h
    exact ⟨hderived, hidentifier⟩
  · cases h

/-- A page that an identifier is made from has no character that cannot stand in one. -/
theorem not_mem_of_deriveBinding {p : PagePath} {identifier : Text}
    (h : deriveBinding p.toText = .ok identifier) {c : Char} (hupper : c ∈ Text.uppercase c)
    (hc : ¬ (Text.isLetter c = true ∨ Text.isNumeral c = true ∨ c = '_' ∨ c = '$')) :
    ∀ s ∈ p.segments, c ∉ s := by
  intro s hs hmem
  obtain ⟨hname, hidentifier⟩ := deriveBinding_eq_ok h
  unfold deriveIdentifier at hname
  dsimp only at hname
  split at hname
  · cases hname
  · cases hname
    have hpiece : s ∈ (PagePath.pieces p.toText).filter fun piece : Text => piece ≠ [] := by
      rw [PagePath.pieces_toText]
      exact List.mem_filter.2 ⟨List.mem_cons_of_mem _ hs, decide_eq_true (p.valid s hs).1⟩
    have hin := List.mem_flatMap.2 ⟨s, hpiece, Text.mem_upperFirst hupper hmem⟩
    exact hc (isIdentifier_spec hidentifier hin)

/-- The identifier made from a page has no point, so the page is plain. -/
theorem isPlain_of_deriveBinding {p : PagePath} {identifier : Text}
    (h : deriveBinding p.toText = .ok identifier) : p.IsPlain :=
  not_mem_of_deriveBinding h (by decide) (by decide)

end RoutePages
