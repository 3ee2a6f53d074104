import Mathlib.Data.List.Induction
import RoutePages.Proofs.Page.Agree
import RoutePages.Proofs.Page.Imported
import RoutePages.Proofs.Page.Lineage
import RoutePages.Proofs.Page.Places

/-!
# Pages stay below their root

However a page is made (as the root, from a text, from an import, or below another page), its
text is a row of ordinary names, each behind a slash. So the files of planned pages lie below
the root of the pages, and different pages have different directories.
-/
namespace RoutePages

/-- A name that leads one step down: it has no slash, no white space at its ends, and stands
neither for a directory itself nor for the one above it. -/
structure IsOrdinary (name : Text) : Prop where
  nonempty : name ≠ []
  slash : '/' ∉ name
  start : ∀ c ∈ name.head?, Text.isBlank c = false
  stop : ∀ c ∈ name.getLast?, Text.isBlank c = false
  here : name ≠ "."
  up : name ≠ ".."

theorem IsSegment.isOrdinary {s : Text} (h : IsSegment s) : IsOrdinary s := by
  obtain ⟨hne, hslash, htrim, hhere, hup⟩ := h
  have hstart := Text.head?_trim s
  have hstop := Text.getLast?_trim s
  rw [htrim] at hstart hstop
  exact ⟨hne, hslash, hstart, hstop, hhere, hup⟩

/-- The text is a row of ordinary names, each behind a slash, and these names are found again
between its slashes. -/
structure IsNormal (text : Text) (names : List Text) : Prop where
  text_eq : text = names.flatMap ('/' :: ·)
  ordinary : ∀ name ∈ names, IsOrdinary name
  names_eq : FilePath.names ⟨text⟩ = names

theorem isNormal_of_ordinary {names : List Text} (h : ∀ name ∈ names, IsOrdinary name) :
    IsNormal (names.flatMap ('/' :: ·)) names := by
  refine ⟨rfl, h, ?_⟩
  have hsplit := Text.splitOn_flatMap fun name hname => (h name hname).slash
  rw [FilePath.names, hsplit, List.filter_cons_of_neg (by decide), List.filter_eq_self]
  exact fun name hname => decide_eq_true (h name hname).nonempty

theorem IsNormal.append {s t : Text} {names more : List Text} (hs : IsNormal s names)
    (ht : IsNormal t more) : IsNormal (s ++ t) (names ++ more) := by
  have hordinary : ∀ name ∈ names ++ more, IsOrdinary name := fun name hname =>
    (List.mem_append.1 hname).elim (hs.ordinary name) (ht.ordinary name)
  rw [hs.text_eq, ht.text_eq, ← List.flatMap_append]
  exact isNormal_of_ordinary hordinary

namespace PagePath

/-- The pages that can be made: the root, what a text gives, what a page gives below another, and
what an imported name stands for. -/
inductive Reached : PagePath → Prop
  | root : Reached .root
  | parsed {raw : Text} {p : PagePath} (h : PagePath.parse raw = .ok p) : Reached p
  | joined {p q : PagePath} (hp : Reached p) (hq : Reached q) : Reached (p.join q)
  | imported {imports : List Import} {pagesAlias name : Text} {p : PagePath}
    (h : (Bindings.ofImports imports pagesAlias).get? name = some p) : Reached p

/-- What is read as a page path is normal: the pieces that are kept are trimmed and hold no slash,
and none of them leads up. -/
theorem isNormal_parse {raw : Text} {p : PagePath} (h : parse raw = .ok p) :
    IsNormal p.toText p.segments := by
  obtain ⟨hup, hsteps, -⟩ := parse_eq_ok.1 h
  refine isNormal_of_ordinary fun s hs => ?_
  rw [hsteps] at hs
  obtain ⟨hpiece, hstep⟩ := List.mem_filter.1 hs
  have hnotUp : s ≠ ".." := fun heq => hup (heq ▸ hpiece)
  exact (isSegment_of_mem_pieces hpiece hstep hnotUp).isOrdinary

theorem toText_join (p q : PagePath) : (p.join q).toText = p.toText ++ q.toText :=
  List.flatMap_append

theorem Reached.isNormal {p : PagePath} (h : p.Reached) : IsNormal p.toText p.segments := by
  induction h with
  | root => exact @isNormal_of_ordinary [] nofun
  | parsed h => exact isNormal_parse h
  | @joined p q _ _ ihp ihq =>
    rw [toText_join]
    exact ihp.append ihq
  | imported h =>
    obtain ⟨i, -, -, hpage⟩ := Bindings.exists_import_of_get? h
    obtain ⟨rest, -, -, hparse⟩ := Bindings.pageOf?_eq_some.1 hpage
    exact isNormal_parse hparse

end PagePath

/-- Where an entry starts is a page that can be made. -/
theorem IsBase.reached {t : RouteTable} {pagesAlias : Text} {above : List Entry} {base : PagePath}
    (h : IsBase (.ofTable t pagesAlias) above base) : base.Reached := by
  induction h with
  | top => exact .root
  | generated _ _ hown _ ih => exact .joined ih (.parsed hown)
  | imported _ hpage =>
    unfold Entry.importedPage? at hpage
    split at hpage
    · exact .imported hpage
    · cases hpage

namespace FilePath

/-- The path is `root` with more names behind it. -/
structure Extends (p root : FilePath) (names : List Text) : Prop where
  text : ∃ front, (root.text = front ∨ root.text = front ++ ['/']) ∧
    p.text = front ++ names.flatMap ('/' :: ·)
  parts : p.parts = root.parts ++ names
  absolute : p.isAbsolute = root.isAbsolute

/-- A slash is put between a path that does not end in one and a name. -/
theorem text_join {dir : FilePath} {name : Text} (h : IsSegment name) (hne : dir.text ≠ [])
    (hslash : dir.text.getLast? ≠ some '/') : (dir.join name).text = dir.text ++ '/' :: name := by
  rcases join_relative dir h.isFileName.head?_ne with ⟨hempty, -⟩ | ⟨front, ⟨rfl, -⟩ | hdir, hjoin⟩
  · exact absurd hempty hne
  · rw [hjoin]
  · rw [hdir, List.getLast?_concat] at hslash
    exact absurd rfl hslash

/-- One more name behind an absolute path. -/
theorem extends_join {root : FilePath} {name : Text} (habsolute : root.isAbsolute = true)
    (hname : IsSegment name) : (root.join name).Extends root [name] := by
  refine ⟨?_, (continues_name root hname.isFileName).parts, isAbsolute_join _ hname.isFileName.head?_ne⟩
  rcases join_relative root hname.isFileName.head?_ne with ⟨hempty, -⟩ | ⟨front, hroot, hjoin⟩
  · rw [isAbsolute, hempty] at habsolute
    cases habsolute
  · refine ⟨front, hroot.imp And.left id, ?_⟩
    rw [hjoin]
    simp

/-- One more name behind a path that ends in a name. -/
theorem Extends.join {p root : FilePath} {names : List Text} {last name : Text}
    (h : p.Extends root (names ++ [last])) (hlast : IsSegment last) (hname : IsSegment name) :
    (p.join name).Extends root (names ++ [last] ++ [name]) := by
  obtain ⟨front, hroot, htext⟩ := h.text
  have hend : p.text = front ++ names.flatMap ('/' :: ·) ++ ['/'] ++ last := by
    rw [htext]
    simp
  have hne : p.text ≠ [] := by
    rw [hend]
    exact List.append_ne_nil_of_right_ne_nil _ hlast.1
  have hslash : p.text.getLast? ≠ some '/' := by
    rw [hend, List.getLast?_append_of_ne_nil _ hlast.1]
    exact fun heq => hlast.2.1 (List.mem_of_mem_getLast? heq)
  refine ⟨⟨front, hroot, ?_⟩, ?_, (isAbsolute_join _ hname.isFileName.head?_ne).trans h.absolute⟩
  · rw [text_join hname hne hslash, htext, List.append_assoc]
    simp
  · rw [(continues_name p hname.isFileName).parts, h.parts, List.append_assoc]

/-- Names that are joined to an absolute path stand behind it. -/
theorem extends_joins {root : FilePath} (habsolute : root.isAbsolute = true) {names : List Text}
    (hne : names ≠ []) (h : ∀ name ∈ names, IsSegment name) :
    (names.foldl FilePath.join root).Extends root names := by
  induction names using List.reverseRecOn with
  | nil => exact absurd rfl hne
  | append_singleton front name ih =>
    have hname : IsSegment name := h name (by simp)
    have hfront : ∀ other ∈ front, IsSegment other := fun other hother => h other (by simp [hother])
    rw [List.foldl_append]
    rcases List.eq_nil_or_concat' front with rfl | ⟨names, last, rfl⟩
    · exact extends_join habsolute hname
    · have hlast : IsSegment last := hfront last (by simp)
      have hbefore := ih (by simp) hfront
      exact hbefore.join hlast hname

end FilePath

theorem PageFile.extends_path (f : PageFile) (plan : PagePlan) {pagesRoot : FilePath}
    (habsolute : pagesRoot.isAbsolute = true) :
    (f.path plan pagesRoot).Extends pagesRoot (plan.page.segments ++ [f.name]) := by
  have hnames : ∀ name ∈ plan.page.segments ++ [f.name], IsSegment name := by
    intro name hname
    rcases List.mem_append.1 hname with hname | hname
    · exact plan.page.valid name hname
    · cases List.mem_singleton.1 hname
      exact f.isSegment_name
  have hpath : f.path plan pagesRoot =
      (plan.page.segments ++ [f.name]).foldl FilePath.join pagesRoot := by
    rw [List.foldl_append]
    rfl
  rw [hpath]
  exact FilePath.extends_joins habsolute (by simp) hnames

/-- Directories of pages are the same, name by name, for one page only. -/
theorem sameParts_directory_iff {p q : PagePath} {pagesRoot : FilePath} :
    (p.directory pagesRoot).sameParts (q.directory pagesRoot) = true ↔ p = q := by
  have hsame : (p.directory pagesRoot).sameParts (q.directory pagesRoot) = true ↔
      p.segments = q.segments := by
    rw [FilePath.sameParts, (p.continues_directory pagesRoot).absolute,
      (q.continues_directory pagesRoot).absolute, (p.continues_directory pagesRoot).parts,
      (q.continues_directory pagesRoot).parts]
    simp
  rw [hsame]
  obtain ⟨segments, _⟩ := p
  obtain ⟨others, _⟩ := q
  simp

/-- Planned pages are pages that can be made. Each of their files has at least one ordinary name
and then its own behind the root of the pages, and two of them have the same directory only if
they are the same. All pages that can be made are normal. -/
theorem planPages_contained {t : RouteTable} {pagesAlias : Text} {plans : List PagePlan}
    {pagesRoot : FilePath} (habsolute : pagesRoot.isAbsolute = true)
    (hplans : planPages t (.ofTable t pagesAlias) pagesAlias = .ok plans) :
    (∀ plan ∈ plans, plan.page.Reached ∧
      ∀ f ∈ plan.files, ∃ names, names ≠ [] ∧ (∀ name ∈ names, IsOrdinary name) ∧
        (f.path plan pagesRoot).Extends pagesRoot (names ++ [f.name])) ∧
    (∀ p ∈ plans, ∀ q ∈ plans,
      (p.page.directory pagesRoot).sameParts (q.page.directory pagesRoot) = true ↔
        p.page = q.page) ∧
    ∀ p : PagePath, p.Reached → IsNormal p.toText p.segments := by
  refine ⟨fun plan hplan => ?_, fun p _ q _ => sameParts_directory_iff, fun p hp => hp.isNormal⟩
  obtain ⟨placed, hof⟩ := exists_isPlanOf (planPages_eq_ok.1 hplans).1 hplan
  obtain ⟨path, own, base, -, hown, hbase, hpage⟩ := hof.page
  have hreached : plan.page.Reached := by
    rw [hpage]
    exact .joined hbase.reached (.parsed hown)
  have hsome : plan.page.segments ≠ [] := by
    rw [hpage]
    exact PagePath.join_segments_ne_nil (PagePath.segments_ne_nil hown)
  exact ⟨hreached, fun f _ => ⟨plan.page.segments, hsome, hreached.isNormal.ordinary,
    f.extends_path plan habsolute⟩⟩

/-- A page below an imported one, whose source is not normal. The other import leads up, so that it
stands for no page. -/
theorem planPages_contained_below :
    let here : Span := ⟨0, 0⟩
    let user : Entry :=
      ⟨some "user", none, some (.path " ./user//" here), false, true, none, [], here, []⟩
    let holds (name : Text) : Entry :=
      ⟨none, none, some (.bound name here), false, false, none, [user], here, []⟩
    let t : RouteTable := ⟨"routes", here, [holds "Setting", holds "Above"],
      [⟨["Setting"], "@/pages/./x//y", here⟩, ⟨["Above"], "@/pages/../z", here⟩], none⟩
    let pagesRoot : FilePath := ⟨"/proj/src/pages/"⟩
    ∃ plans, planPages t (.ofTable t "@/pages") "@/pages" = .ok plans ∧
      plans.map (fun plan => (PageFile.service.path plan pagesRoot).text) = Text.texts
        ["/proj/src/pages/x/y/user/service.tsx", "/proj/src/pages/user/service.tsx"] ∧
      ∀ plan ∈ plans, ∀ f ∈ plan.files, ∃ names, names ≠ [] ∧ (∀ name ∈ names, IsOrdinary name) ∧
        (f.path plan pagesRoot).Extends pagesRoot (names ++ [f.name]) := by
  intro here user holds t pagesRoot
  have hplanned : (planPages t (.ofTable t "@/pages") "@/pages").toOption.map
      (List.map fun plan => (PageFile.service.path plan pagesRoot).text) = some (Text.texts
        ["/proj/src/pages/x/y/user/service.tsx", "/proj/src/pages/user/service.tsx"]) := by
    decide +kernel
  obtain ⟨plans, hplans, hpaths⟩ := Option.map_eq_some_iff.1 hplanned
  rw [toOption_eq_some] at hplans
  have habsolute : pagesRoot.isAbsolute = true := rfl
  obtain ⟨hfiles, -, -⟩ := planPages_contained habsolute hplans
  exact ⟨plans, hplans, hpaths, fun plan hplan => (hfiles plan hplan).2⟩

end RoutePages
