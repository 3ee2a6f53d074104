import RoutePages.Proofs.Edit.Outcome
import RoutePages.Proofs.Page.Imported

/-!
# Two look-ups of an imported name

The children of an imported page are placed by the last import of its name that stands for a
page, while a collision is looked for in the first import of a name. The two look-ups agree
exactly when no later import overrides the first one.
-/
namespace RoutePages

theorem Text.after?_eq_some {start s rest : Text} :
    Text.after? start s = some rest ↔ s = start ++ rest := by
  refine ⟨fun h => ?_, fun h => h ▸ Text.after?_append start rest⟩
  induction start generalizing s with
  | nil => exact Option.some.inj h
  | cons c start ih =>
    cases s with
    | nil => cases h
    | cons d s =>
      rw [Text.after?] at h
      split at h
      · rename_i hc
        rw [ih h, hc, List.cons_append]
      · cases h

/-- The import stands for the page: its source is the alias, without the slashes at its end, and
then a text that starts with a slash and is read as the page. -/
def Import.Names (pagesAlias : Text) (i : Import) (page : PagePath) : Prop :=
  ∃ path, i.source = PagePath.trimAlias pagesAlias ++ '/' :: path ∧
    PagePath.parse ('/' :: path) = .ok page

/-- The page that an import stands for, if it binds the name. -/
def Import.pageFor? (pagesAlias name : Text) (i : Import) : Option PagePath :=
  if i.locals.contains name then Bindings.pageOf? i.source pagesAlias else none

variable {t : RouteTable} {i : Import} {pagesAlias name : Text} {page other : PagePath}

theorem Import.names_iff :
    i.Names pagesAlias page ↔ Bindings.pageOf? i.source pagesAlias = some page := by
  rw [Bindings.pageOf?_eq_some]
  simp only [Text.after?_eq_some]
  constructor
  · rintro ⟨path, hsource, hpage⟩
    exact ⟨'/' :: path, hsource, .inr rfl, hpage⟩
  · rintro ⟨rest, hsource, hstart, hpage⟩
    cases rest with
    | nil =>
      have hempty : PagePath.parse [] = .error ⟨[], .empty⟩ := rfl
      cases hempty.symm.trans hpage
    | cons c path =>
      have hc : c = '/' := by simpa using hstart
      subst hc
      exact ⟨path, hsource, hpage⟩

theorem Import.Names.unique (h : i.Names pagesAlias page) (h' : i.Names pagesAlias other) :
    page = other :=
  Option.some.inj ((Import.names_iff.1 h).symm.trans (Import.names_iff.1 h'))

theorem Import.pageFor?_eq_some :
    i.pageFor? pagesAlias name = some page ↔ name ∈ i.locals ∧ i.Names pagesAlias page := by
  rw [Import.pageFor?, Import.names_iff, ← List.contains_iff_mem]
  split
  · rename_i hname
    exact (and_iff_right hname).symm
  · rename_i hname
    exact ⟨nofun, fun h => absurd h.1 hname⟩

theorem Import.pageFor?_eq_none :
    i.pageFor? pagesAlias name = none ↔ (name ∈ i.locals → ∀ page, ¬ i.Names pagesAlias page) := by
  rw [Option.eq_none_iff_forall_ne_some]
  simp only [ne_eq, Import.pageFor?_eq_some, not_and]
  exact ⟨fun h hname page => h page hname, fun h page hname => h hname page⟩

namespace Bindings

/-- Of the imports of a name the last one that stands for a page counts. -/
theorem get?_eq_findSome? (imports : List Import) (pagesAlias name : Text) :
    (ofImports imports pagesAlias).get? name =
      imports.reverse.findSome? (Import.pageFor? pagesAlias name) := by
  have hone : ∀ i : Import, (ofImport i pagesAlias).reverse.lookup name =
      i.pageFor? pagesAlias name := by
    intro i
    unfold ofImport Import.pageFor?
    cases pageOf? i.source pagesAlias with
    | none => rw [ite_self]; rfl
    | some page =>
      have hlookup : ∀ locals : List Text,
          (locals.map (·, page)).lookup name =
            if locals.contains name then some page else none := by
        intro locals
        induction locals with
        | nil => rfl
        | cons other locals ih =>
          rw [List.map_cons, List.lookup_cons, ih, List.contains_cons]
          cases name == other <;> rfl
      dsimp only
      rw [← List.map_reverse, hlookup]
      rw [List.contains_reverse]
  rw [get?, ofImports]
  induction imports with
  | nil => rfl
  | cons i imports ih =>
    rw [List.flatMap_cons, List.reverse_append, List.lookup_append, List.reverse_cons,
      List.findSome?_append, List.findSome?_singleton, ih, hone]

theorem get?_eq_some_iff : (ofTable t pagesAlias).get? name = some page ↔
    ∃ before last after, t.imports = before ++ last :: after ∧ name ∈ last.locals ∧
      last.Names pagesAlias page ∧
      ∀ j ∈ after, name ∈ j.locals → ∀ other, ¬ j.Names pagesAlias other := by
  rw [ofTable, get?_eq_findSome?, List.findSome?_eq_some_iff]
  simp only [Import.pageFor?_eq_some, Import.pageFor?_eq_none]
  constructor
  · rintro ⟨after, last, before, hsplit, ⟨hname, hpage⟩, hafter⟩
    refine ⟨before.reverse, last, after.reverse, ?_, hname, hpage, fun j hj => ?_⟩
    · rw [← List.reverse_reverse t.imports, hsplit]
      simp
    · exact hafter j (List.mem_reverse.1 hj)
  · rintro ⟨before, last, after, hsplit, hname, hpage, hafter⟩
    refine ⟨after.reverse, last, before.reverse, ?_, ⟨hname, hpage⟩, fun j hj => ?_⟩
    · rw [hsplit]
      simp
    · exact hafter j (List.mem_reverse.1 hj)

/-- A name that some import binds to a page is found. -/
theorem exists_get? (hi : i ∈ t.imports) (hname : name ∈ i.locals)
    (hpage : i.Names pagesAlias page) : ∃ page, (ofTable t pagesAlias).get? name = some page := by
  refine Option.ne_none_iff_exists'.1 fun hnone => ?_
  rw [ofTable, get?_eq_findSome?, List.findSome?_eq_none_iff] at hnone
  exact Import.pageFor?_eq_none.1 (hnone i (List.mem_reverse.2 hi)) hname page hpage

end Bindings

namespace RouteTable

theorem importOf?_eq_some_iff : t.importOf? name = some i ↔
    ∃ before after, t.imports = before ++ i :: after ∧ name ∈ i.locals ∧
      ∀ j ∈ before, name ∉ j.locals := by
  rw [importOf?, List.find?_eq_some_iff_append]
  simp only [List.contains_iff_mem, Bool.not_eq_true', Bool.eq_false_iff, ne_eq]
  constructor
  · rintro ⟨hname, before, after, hsplit, hbefore⟩
    exact ⟨before, after, hsplit, hname, hbefore⟩
  · rintro ⟨before, after, hsplit, hname, hbefore⟩
    exact ⟨hname, before, after, hsplit, hbefore⟩

theorem exists_importOf? (hi : i ∈ t.imports) (hname : name ∈ i.locals) :
    ∃ first, t.importOf? name = some first := by
  refine Option.isSome_iff_exists.1 (List.find?_isSome.2 ⟨i, hi, ?_⟩)
  exact List.contains_iff_mem.2 hname

/-- The page of a name is found exactly as the page that the first import of the name stands
for. -/
def LookupsAgree (t : RouteTable) (pagesAlias name : Text) : Prop :=
  ∀ page, (Bindings.ofTable t pagesAlias).get? name = some page ↔
    ∃ i, t.importOf? name = some i ∧ i.Names pagesAlias page

/-- The last import of a name that stands for a page stands for another page than the first import
of the name, if that stands for one at all. -/
structure IsOverridden (t : RouteTable) (pagesAlias name : Text) (first last : Import)
    (page : PagePath) : Prop where
  isFirst : t.importOf? name = some first
  isLast : ∃ before after, t.imports = before ++ last :: after ∧
    ∀ j ∈ after, name ∈ j.locals → ∀ other, ¬ j.Names pagesAlias other
  binds : name ∈ last.locals
  names : last.Names pagesAlias page
  differs : ¬ first.Names pagesAlias page

theorem IsOverridden.get? {first last : Import}
    (h : t.IsOverridden pagesAlias name first last page) :
    (Bindings.ofTable t pagesAlias).get? name = some page := by
  obtain ⟨before, after, hsplit, hafter⟩ := h.isLast
  exact Bindings.get?_eq_some_iff.2 ⟨before, last, after, hsplit, h.binds, h.names, hafter⟩

theorem lookupsAgree_iff_not_overridden : t.LookupsAgree pagesAlias name ↔
    ¬ ∃ first last page, t.IsOverridden pagesAlias name first last page := by
  constructor
  · rintro hagree ⟨first, last, page, h⟩
    obtain ⟨i, hi, hpage⟩ := (hagree page).1 h.get?
    cases h.isFirst.symm.trans hi
    exact h.differs hpage
  · intro hnot
    have hfirst : ∀ page, (Bindings.ofTable t pagesAlias).get? name = some page →
        ∃ i, t.importOf? name = some i ∧ i.Names pagesAlias page := by
      intro page hget
      obtain ⟨before, last, after, hsplit, hname, hpage, hafter⟩ := Bindings.get?_eq_some_iff.1 hget
      have hlast : last ∈ t.imports := hsplit ▸ List.mem_append_right before List.mem_cons_self
      obtain ⟨first, hi⟩ := exists_importOf? hlast hname
      refine ⟨first, hi, Classical.byContradiction fun hdiffers => hnot ⟨first, last, page, ?_⟩⟩
      exact ⟨hi, ⟨before, after, hsplit, hafter⟩, hname, hpage, hdiffers⟩
    refine fun page => ⟨hfirst page, ?_⟩
    rintro ⟨i, hi, hpage⟩
    obtain ⟨before, after, hsplit, hname, -⟩ := importOf?_eq_some_iff.1 hi
    have hmem : i ∈ t.imports := hsplit ▸ List.mem_append_right before List.mem_cons_self
    -- some page is found, and it can only be that of the first import
    obtain ⟨found, hfound⟩ := Bindings.exists_get? hmem hname hpage
    obtain ⟨first, hi', hfound'⟩ := hfirst found hfound
    cases hi.symm.trans hi'
    rw [hfound, hfound'.unique hpage]

/-- Imports of a name that all have one source do not override each other. -/
theorem lookupsAgree_of_one_source {source : Text}
    (h : ∀ i ∈ t.imports, name ∈ i.locals → i.source = source) :
    t.LookupsAgree pagesAlias name := by
  refine lookupsAgree_iff_not_overridden.2 ?_
  rintro ⟨first, last, page, hfirst, ⟨before, after, hsplit, -⟩, hbinds, hnames, hdiffers⟩
  obtain ⟨front, back, hsplit', hbinds', -⟩ := importOf?_eq_some_iff.1 hfirst
  have hlast := h last (hsplit ▸ List.mem_append_right before List.mem_cons_self) hbinds
  have hsame := h first (hsplit' ▸ List.mem_append_right front List.mem_cons_self) hbinds'
  unfold Import.Names at hnames hdiffers
  exact hdiffers (hsame ▸ hlast ▸ hnames)

/-- The page of a name is found exactly when it is the page of the first import of the name, unless
the first import is overridden by a later one, as it never is where the imports of the name have
one source. Children of an entry that names the import then start at the page that a collision
would be looked for at. -/
theorem lookups_agree_iff (t : RouteTable) (pagesAlias name : Text) :
    (t.LookupsAgree pagesAlias name ↔
      ¬ ∃ first last page, t.IsOverridden pagesAlias name first last page) ∧
    ((∃ source, ∀ i ∈ t.imports, name ∈ i.locals → i.source = source) →
      t.LookupsAgree pagesAlias name) ∧
    (t.LookupsAgree pagesAlias name → ∀ (e : Entry) (span : Span) (base : PagePath),
      e.component = some (.bound name span) → ∃ start,
        e.resolve base (.ofTable t pagesAlias) = .ok ⟨none, start⟩ ∧
        ((∃ i, t.importOf? name = some i ∧ i.Names pagesAlias start) ∨
          start = base ∧ ∀ i, t.importOf? name = some i → ∀ page, ¬ i.Names pagesAlias page)) := by
  refine ⟨lookupsAgree_iff_not_overridden, fun ⟨_, hsource⟩ => lookupsAgree_of_one_source hsource,
    fun hagree e span base hcomponent => ?_⟩
  have hpasses : e.generatable? = none := by
    unfold Entry.generatable?
    rw [hcomponent]
    cases e.name <;> rfl
  refine ⟨((Bindings.ofTable t pagesAlias).get? name).getD base, ?_, ?_⟩
  · rw [Entry.resolve, hpasses]
    dsimp only
    rw [hcomponent]
  · cases hget : (Bindings.ofTable t pagesAlias).get? name with
    | some start => exact .inl ((hagree start).1 hget)
    | none =>
      refine .inr ⟨rfl, fun i hi page hpage => ?_⟩
      have hfound := (hagree page).2 ⟨i, hi, hpage⟩
      cases hget.symm.trans hfound

theorem not_lookupsAgree {found : PagePath} {first : Import}
    (hget : (Bindings.ofTable t pagesAlias).get? name = some found)
    (hfirst : t.importOf? name = some first)
    (hdiffers : Bindings.pageOf? first.source pagesAlias ≠ some found) :
    ¬ t.LookupsAgree pagesAlias name := by
  intro hagree
  obtain ⟨i, hi, hpage⟩ := (hagree found).1 hget
  cases hfirst.symm.trans hi
  exact hdiffers (Import.names_iff.1 hpage)

/-- Route files in which an import inside of a declared module overrides the import of the file
itself: another page, and a name that is no page. -/
theorem lookups_disagree :
    (let source : Text := "import A from '@/pages/a'\n" ++
        "declare module 'm' \x7b import A from '@/pages/b' \x7d\n" ++
        "const r: R[] = [\x7b component: A \x7d]"
      ∃ t, parseTable .ts source = .ok t ∧ ¬ t.LookupsAgree "@/pages" "A") ∧
    let source : Text := "import A from 'x'\n" ++
      "declare module 'm' \x7b import A from '@/pages/b' \x7d\n" ++
      "const r: R[] = [\x7b component: A \x7d]"
    ∃ t, parseTable .ts source = .ok t ∧ ¬ t.LookupsAgree "@/pages" "A" := by
  have hdisagree : ∀ {source : Text}, (parseTable .ts source).toOption.any (fun t =>
      ((Bindings.ofTable t "@/pages").get? "A").any fun found => (t.importOf? "A").any fun first =>
        Bindings.pageOf? first.source "@/pages" ≠ some found) = true →
      ∃ t, parseTable .ts source = .ok t ∧ ¬ t.LookupsAgree "@/pages" "A" := by
    intro source hcheck
    obtain ⟨t, ht, hcheck⟩ := exists_ok_of_any hcheck
    obtain ⟨found, hget, hcheck⟩ := (Option.any_eq_true _ _).1 hcheck
    obtain ⟨first, hfirst, hdiffers⟩ := (Option.any_eq_true _ _).1 hcheck
    exact ⟨t, ht, not_lookupsAgree hget hfirst (of_decide_eq_true hdiffers)⟩
  exact ⟨hdisagree (by decide +kernel), hdisagree (by decide +kernel)⟩

end RouteTable
end RoutePages
