import Mathlib.Data.List.Nodup
import RoutePages.Page.Bindings
import RoutePages.Proofs.Succeeds
import RoutePages.Proofs.Text.Parts

/-!
# Pages read back from imports

A page can be read again from its text, and from the source that it is imported from. Where
no name is imported twice, each imported name stands for the page of its one import.
-/
namespace RoutePages

namespace Text

theorem after?_append (start rest : Text) : after? start (start ++ rest) = some rest := by
  induction start with
  | nil => rfl
  | cons c start ih =>
    rw [List.cons_append, after?, if_pos rfl]
    exact ih

end Text

namespace PagePath

theorem pieces_toText (p : PagePath) : pieces p.toText = [] :: p.segments := by
  have htrim : p.segments.map Text.trim = p.segments := by
    refine (List.map_congr_left fun s hs => ?_).trans (List.map_id _)
    exact (p.valid s hs).2.2.1
  have hsplit : Text.splitOn '/' p.toText = [] :: p.segments :=
    Text.splitOn_flatMap fun s hs => (p.valid s hs).2.1
  rw [pieces, hsplit, List.map_cons, htrim]
  rfl

/-- A text is a page path if none of its pieces leads up and some piece is a step. -/
theorem parse_eq_ok {raw : Text} {p : PagePath} :
    parse raw = .ok p ↔ (".." : Text) ∉ pieces raw ∧ p.segments = (pieces raw).filter isStep ∧
      p.segments ≠ [] := by
  unfold parse
  by_cases hup : (".." : Text) ∈ pieces raw
  · rw [dif_pos hup]
    exact ⟨nofun, fun h => absurd hup h.1⟩
  · rw [dif_neg hup]
    dsimp only
    split
    · rename_i hnone
      refine ⟨nofun, fun h => ?_⟩
      exact absurd (h.2.1.trans hnone) h.2.2
    · rename_i hsome
      constructor
      · intro h
        cases h
        exact ⟨hup, rfl, hsome⟩
      · rintro ⟨-, hsteps, -⟩
        obtain ⟨segments, valid⟩ := p
        subst hsteps
        rfl

theorem parse_toText {p : PagePath} (h : p.segments ≠ []) : parse p.toText = .ok p := by
  have hup : (".." : Text) ∉ pieces p.toText := by
    rw [pieces_toText]
    intro hmem
    rcases List.mem_cons.1 hmem with heq | hmem
    · cases heq
    · exact (p.valid _ hmem).2.2.2.2 rfl
  have hsteps : (pieces p.toText).filter isStep = p.segments := by
    rw [pieces_toText, List.filter_cons_of_neg (by decide), List.filter_eq_self]
    intro s hs
    obtain ⟨hne, -, -, hdot, -⟩ := p.valid s hs
    exact Bool.and_eq_true_iff.2 ⟨decide_eq_true hne, decide_eq_true hdot⟩
  exact parse_eq_ok.2 ⟨hup, hsteps.symm, h⟩

theorem segments_ne_nil {raw : Text} {p : PagePath} (h : parse raw = .ok p) : p.segments ≠ [] :=
  (parse_eq_ok.1 h).2.2

theorem join_segments_ne_nil {base own : PagePath} (h : own.segments ≠ []) :
    (base.join own).segments ≠ [] :=
  List.append_ne_nil_of_right_ne_nil _ h

end PagePath

namespace Bindings

/-- What a page is imported from names that page. -/
theorem pageOf?_importSource {p : PagePath} (h : p.segments ≠ []) (pagesAlias : Text) :
    pageOf? (p.importSource pagesAlias) pagesAlias = some p := by
  have hhead : p.toText.head? = some '/' := by
    unfold PagePath.toText
    cases hs : p.segments with
    | nil => exact absurd hs h
    | cons s segments => rfl
  unfold pageOf?
  rw [PagePath.importSource, Text.after?_append]
  dsimp only
  rw [if_pos (.inr hhead), PagePath.parse_toText h]
  rfl

/-- The page that a source names is read from what follows the alias. -/
theorem pageOf?_eq_some {source pagesAlias : Text} {p : PagePath} :
    pageOf? source pagesAlias = some p ↔
      ∃ rest, Text.after? (PagePath.trimAlias pagesAlias) source = some rest ∧
        (rest = [] ∨ rest.head? = some '/') ∧ PagePath.parse rest = .ok p := by
  unfold pageOf?
  cases hrest : Text.after? (PagePath.trimAlias pagesAlias) source with
  | none => simp
  | some rest =>
    by_cases hstart : rest = [] ∨ rest.head? = some '/'
    · simp [hstart, toOption_eq_some]
    · simp [hstart]

/-- An imported name stands for the page of one of its imports. -/
theorem exists_import_of_get? {imports : List Import} {pagesAlias name : Text} {p : PagePath}
    (h : (ofImports imports pagesAlias).get? name = some p) :
    ∃ i ∈ imports, name ∈ i.locals ∧ pageOf? i.source pagesAlias = some p := by
  obtain ⟨before, after, hpages, -⟩ := List.lookup_eq_some_iff.1 h
  have hmem : (name, p) ∈ (ofImports imports pagesAlias).pages :=
    hpages ▸ List.mem_append_right before List.mem_cons_self
  obtain ⟨i, hi, hpair⟩ := List.mem_flatMap.1 (List.mem_reverse.1 hmem)
  unfold ofImport at hpair
  split at hpair
  · rename_i page hpage
    obtain ⟨other, hother, heq⟩ := List.mem_map.1 hpair
    cases heq
    exact ⟨i, hi, hother, hpage⟩
  · cases hpair

theorem lookup_of_mem {α β : Type} [BEq α] [LawfulBEq α] {l : List (α × β)} {key : α} {value : β}
    (h : (l.map Prod.fst).Nodup) (hmem : (key, value) ∈ l) : l.lookup key = some value := by
  obtain ⟨before, after, rfl⟩ := List.append_of_mem hmem
  refine List.lookup_eq_some_iff.2 ⟨before, after, rfl, fun pair hpair => ?_⟩
  rw [List.map_append, List.nodup_append] at h
  have hne := h.2.2 pair.1 (List.mem_map_of_mem hpair) key List.mem_cons_self
  exact bne_iff_ne.2 hne.symm

theorem ofImport_names_sublist (i : Import) (pagesAlias : Text) :
    ((ofImport i pagesAlias).map Prod.fst).Sublist i.locals := by
  unfold ofImport
  split
  · rw [List.map_map]
    exact (List.map_id i.locals).symm ▸ List.Sublist.refl _
  · exact List.nil_sublist _

theorem ofImports_names_sublist (imports : List Import) (pagesAlias : Text) :
    ((imports.flatMap (ofImport · pagesAlias)).map Prod.fst).Sublist
      (imports.flatMap Import.locals) := by
  induction imports with
  | nil => exact .slnil
  | cons i imports ih =>
    rw [List.flatMap_cons, List.flatMap_cons, List.map_append]
    exact (ofImport_names_sublist i pagesAlias).append ih

theorem get?_ofImports {imports : List Import} {i : Import} {name pagesAlias : Text} {page : PagePath}
    (hnodup : (imports.flatMap Import.locals).Nodup) (hi : i ∈ imports) (hname : name ∈ i.locals)
    (hpage : pageOf? i.source pagesAlias = some page) :
    (ofImports imports pagesAlias).get? name = some page := by
  have hnames := hnodup.sublist (ofImports_names_sublist imports pagesAlias)
  have hmem : (name, page) ∈ imports.flatMap (ofImport · pagesAlias) := by
    refine List.mem_flatMap.2 ⟨i, hi, ?_⟩
    rw [ofImport, hpage]
    exact List.mem_map_of_mem hname
  refine lookup_of_mem ?_ (List.mem_reverse.2 hmem)
  rw [ofImports, List.map_reverse, List.nodup_reverse]
  exact hnames

end Bindings
end RoutePages
