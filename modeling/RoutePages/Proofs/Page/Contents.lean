import RoutePages.Proofs.Page.Agree
import RoutePages.Proofs.Page.History
import RoutePages.Proofs.Page.Identifiers
import RoutePages.Proofs.Page.Lineage

/-!
# What writing pages leaves

A file is written over for a target that covers, and made for one that does not. What it holds in
the end comes from the targets whose paths lead to it alone, in their order.
-/
namespace RoutePages

open World Disk

namespace Target

/-- The place of the file, if nothing on the way is a link. -/
def place (g : Target) (pagesRoot : FilePath) (base : Location) : Location :=
  (g.path pagesRoot).location base

/-- A directory that leads to the root of the pages lies at the place of the file. -/
def IsOnWay (pagesRoot : FilePath) (base : Location) (g : Target) : Prop :=
  g.place pagesRoot base ∈ pagesRoot.above.map (FilePath.location base)

/-- What the path of the file leads to. -/
def reached? (pagesRoot : FilePath) (base : Location) (d : Disk) (g : Target) : Option Item :=
  d.reached? base (g.path pagesRoot)

/-- The file as it is made from its template. -/
def node (t : Templates) (g : Target) : Node := .file (g.bytes t)

def covers (g : Target) : Bool := g.plan.cover = some true

/-- What a target leaves of the file that its path leads to. -/
def settle (t : Templates) (old : Option Node) (g : Target) : Option Node :=
  if old.isSome && !g.covers then old else some (g.node t)

/-- What targets leave of a file that all their paths lead to: the last one that covers decides,
else what was there, else the first one. -/
def left (t : Templates) (old : Option Node) (targets : List Target) : Option Node :=
  ((targets.reverse.find? covers).map (node t)).or (old.or (targets.head?.map (node t)))

variable {t : Templates} {old : Option Node} {g : Target}

theorem settle_of_covers (h : g.covers = true) : settle t old g = some (g.node t) := by
  rw [settle, h, Bool.not_true, Bool.and_false, if_neg Bool.false_ne_true]

theorem settle_of_not_covers (h : g.covers = false) : settle t old g = old.or (some (g.node t)) := by
  cases old <;> simp [settle, h]

theorem isSome_settle : (settle t old g).isSome = true := by
  unfold settle
  split
  · rename_i hkept
    exact (Bool.and_eq_true_iff.1 hkept).1
  · rfl

/-- Dealing with targets one after the other leaves what they leave together. -/
theorem foldl_settle (targets : List Target) : targets.foldl (settle t) old = left t old targets := by
  induction targets generalizing old with
  | nil => cases old <;> rfl
  | cons g targets ih =>
    have hsome : ∀ more, (settle t old g).or more = settle t old g := by
      intro more
      obtain ⟨node, hnode⟩ := Option.isSome_iff_exists.1 (@isSome_settle t old g)
      rw [hnode]
      rfl
    rw [List.foldl_cons, ih, left, left, hsome, List.reverse_cons, List.find?_append,
      List.head?_cons, Option.map_some]
    -- a target further on that covers decides in any case
    cases hlast : targets.reverse.find? covers with
    | some last => rfl
    | none =>
      cases hcovers : g.covers with
      | true => simp [settle_of_covers hcovers, hcovers]
      | false => simp [settle_of_not_covers hcovers, hcovers]

variable {pagesRoot : FilePath} {base : Location} {d d' final : Disk} {number : Nat}
  {outcome : FileOutcome}

/-- Dealing with a target settles the file that its path leads to in the end, and no other. -/
theorem Dealt.node? (h : g.Dealt pagesRoot t base d outcome d') (hfinal : d'.Keeps final) :
    d'.node? (.file number) =
      if g.reached? pagesRoot base final = some (.file number) then
        settle t (d.node? (.file number)) g
      else d.node? (.file number) := by
  cases h with
  | passed hthere hcover =>
    split
    · rename_i hreached
      obtain ⟨place, hplace⟩ := isSome_kind?_iff.1 hthere
      obtain ⟨other, hother, hfile⟩ := reached?_eq_some.1 hreached
      cases (hfinal.leads hplace).symm.trans hother
      obtain ⟨item, hitem⟩ := Option.isSome_iff_exists.1 (place_eq_ok_iff.1 hplace).2
      cases (hfinal.item hitem).symm.trans hfile
      obtain ⟨content, hcontent, -⟩ := get?_of_file hitem
      have hkept : g.covers = false := decide_eq_false hcover
      rw [settle_of_not_covers hkept, Disk.node?, hcontent]
      rfl
    · rfl
  | @written _ place made hcover hreaches hwritten =>
    have hslash := g.getLast?_path pagesRoot
    have hreached : g.reached? pagesRoot base final = some (.file made) :=
      reached?_eq_some.2 ⟨place, hfinal.leads (hwritten.leads hslash hreaches),
        hfinal.item hwritten.item⟩
    rw [hreached]
    by_cases hnumber : number = made
    · subst hnumber
      have hnode : d'.node? (.file number) = some (g.node t) := by
        rw [Disk.node?, hwritten.content]
        rfl
      rw [if_pos rfl, hnode]
      rcases hwritten.before with ⟨-, rfl⟩ | hfile
      · rw [Disk.node?, List.getElem?_eq_none (Nat.le_refl _)]
        rfl
      · have hthere : g.IsThere pagesRoot base d :=
          (WrittenAt.isSome_kind?_iff hslash hreaches).2 (Option.isSome_of_mem hfile)
        rw [settle_of_covers (decide_eq_true (hcover hthere))]
    · rw [if_neg fun hsame => hnumber (Item.file.inj (Option.some.inj hsame)).symm, Disk.node?,
        hwritten.rest number hnumber, Disk.node?]

end Target

namespace History

variable {pagesRoot : FilePath} {t : Templates} {plans : List PagePlan} {base place : Location}
  {d d' final : Disk} {done : List (Target × FileOutcome)} {g : Target} {outcome : FileOutcome}
  {number : Nat}

/-- A file is settled by the targets whose paths lead to it in the end, in their order. -/
theorem node? (h : History pagesRoot t plans base d done d') (hfinal : d'.Keeps final) :
    d'.node? (.file number) = Target.left t (d.node? (.file number))
      ((done.map Prod.fst).filter
        fun g => g.reached? pagesRoot base final = some (.file number)) := by
  rw [← Target.foldl_settle]
  induction h with
  | start => rfl
  | made _ _ _ _ hmade ih =>
    rw [← ih (hmade.keeps.trans hfinal), Disk.node?, hmade.contents, Disk.node?]
  | @dealt done d₁ d₂ g outcome _ hdealt ih =>
    rw [hdealt.node? hfinal, List.map_append, List.filter_append, List.foldl_append,
      ← ih (hdealt.keeps.trans hfinal), List.map_singleton, List.filter_singleton]
    split
    · rename_i hreached
      rw [decide_eq_true hreached]
      rfl
    · rename_i hapart
      rw [decide_eq_false hapart]
      rfl

/-- Each target leads to a file, or to a directory that was there or that was made for a page. -/
theorem reached (h : History pagesRoot t plans base d done d') (hg : (g, outcome) ∈ done) :
    (∃ number, g.reached? pagesRoot base d' = some (.file number)) ∨
      ∃ place, d'.place base (g.path pagesRoot) = .ok place ∧ d'.item? place = some .directory ∧
        (d.item? place = some .directory ∨ d.item? place = none ∧ ∃ plan ∈ plans,
          ∃ q ∈ plan.page.way pagesRoot, d'.place base q = .ok place) := by
  obtain ⟨place, hplace⟩ := h.leads hg
  obtain ⟨hreaches, hsome⟩ := place_eq_ok_iff.1 hplace
  obtain ⟨item, hitem⟩ := Option.isSome_iff_exists.1 hsome
  cases item with
  | file number => exact .inl ⟨number, reached?_eq_some.2 ⟨place, hplace, hitem⟩⟩
  | link target => exact absurd hitem hreaches.follows.not_link
  | directory =>
    refine .inr ⟨place, hplace, hitem, (h.origin hitem).imp id (And.imp id ?_)⟩
    rintro (⟨hplan, hq, hleads⟩ | _)
    exact ⟨_, hplan, _, hq, hleads⟩

/-- A target that covers leads to a file. -/
theorem reached_of_covers (h : History pagesRoot t plans base d done d') (hg : (g, outcome) ∈ done)
    (hcovers : g.covers = true) : ∃ number, g.reached? pagesRoot base d' = some (.file number) := by
  obtain ⟨before, after, rfl⟩ := List.append_of_mem hg
  obtain ⟨d₁, d₂, -, hdealt, hkeeps⟩ := h.split
  cases hdealt with
  | passed _ hcover => exact absurd (of_decide_eq_true hcovers) hcover
  | written _ hreaches hwritten =>
    exact ⟨_, hkeeps.reached? (reached?_eq_some.2
      ⟨_, hwritten.leads (g.getLast?_path pagesRoot) hreaches, hwritten.item⟩)⟩

end History

/-! ## The places of targets -/

theorem PageFile.point_mem_name (f : PageFile) : '.' ∈ f.name := by
  cases f <;> decide

namespace Target

variable {g g' : Target} {pagesRoot : FilePath} {base : Location}

theorem place_eq (g : Target) (pagesRoot : FilePath) (base : Location) :
    g.place pagesRoot base =
      pagesRoot.location base ++ (g.plan.page.segments ++ [g.file.name]) := by
  rw [place, g.path_eq]
  exact g.file.location_path g.plan pagesRoot base

/-- Targets lie at the same place only if they have the same path. -/
theorem place_eq_iff :
    g.place pagesRoot base = g'.place pagesRoot base ↔ g.path pagesRoot = g'.path pagesRoot := by
  refine ⟨fun h => ?_, fun h => by rw [place, place, h]⟩
  rw [g.place_eq, g'.place_eq] at h
  obtain ⟨hsegments, hname⟩ := List.append_inj' (List.append_cancel_left h) rfl
  have hfile : g.file = g'.file := by
    have hnames : g.file.name = g'.file.name := List.singleton_inj.1 hname
    revert hnames
    cases g.file <;> cases g'.file <;> decide
  rw [path, path, PagePath.directory, PagePath.directory, hsegments, hfile]

/-- The file of a plain page is no directory of a plain page, unless it is on the way to the root of
the pages. -/
theorem place_ne_way {plan : PagePlan} {q : FilePath} (hplain : plan.page.IsPlain)
    (hq : q ∈ plan.page.way pagesRoot) (hroot : ¬ g.IsOnWay pagesRoot base) :
    q.location base ≠ g.place pagesRoot base := by
  intro hplace
  have hbelow : ∀ kept, kept <+: plan.page.segments →
      pagesRoot.location base ++ kept ≠ g.place pagesRoot base := by
    intro kept hkept hsame
    rw [g.place_eq] at hsame
    have hname : g.file.name ∈ kept := by
      rw [List.append_cancel_left hsame]
      exact List.mem_append_right _ List.mem_cons_self
    exact hplain _ (hkept.subset hname) g.file.point_mem_name
  rcases List.mem_cons.1 hq with rfl | hq
  · rw [plan.page.location_directory] at hplace
    exact hbelow _ List.prefix_rfl hplace
  · rcases (plan.page.continues_directory pagesRoot).mem_above base hq with
      habove | ⟨kept, hkept, hlocation⟩
    · exact hroot (List.mem_map.2 ⟨q, habove, hplace⟩)
    · exact hbelow kept hkept (hlocation.symm.trans hplace)

/-- A root of the pages that is not reached through `..` has no target on the way to it. -/
theorem not_isOnWay (g : Target) (base : Location) (hup : (".." : Text) ∉ pagesRoot.parts) :
    ¬ g.IsOnWay pagesRoot base := by
  intro hmem
  obtain ⟨q, hq, hplace⟩ := List.mem_map.1 hmem
  have hplain : ∀ name ∈ pagesRoot.parts, name ≠ "." ∧ name ≠ ".." := by
    intro name hname
    refine ⟨of_decide_eq_true (List.mem_filter.1 hname).2, ?_⟩
    rintro rfl
    exact hup hname
  rw [FilePath.above, ← List.append_nil pagesRoot.parts.reverse] at hq
  rcases FilePath.mem_aboveRoute_append hq with hq | ⟨kept, hkept, rfl⟩
  · cases hq
  · have hfirst : kept.reverse <+: pagesRoot.parts := by
      rw [← List.reverse_suffix, List.reverse_reverse]
      exact hkept
    have hnames : ∀ name ∈ kept.reverse, name ≠ [] ∧ '/' ∉ name :=
      fun name hname => FilePath.parts_spec name (hfirst.subset hname)
    -- without `..` a path lies deeper, the more names it leads through
    rw [g.place_eq, List.reverse_nil, List.nil_append, FilePath.location_ofRoute hnames,
      FilePath.locationFrom_plain _ fun name hname => hplain name (hfirst.subset hname),
      FilePath.location, FilePath.steps, FilePath.locationFrom_append,
      ← FilePath.locationFrom_parts, FilePath.locationFrom_plain _ hplain] at hplace
    have hlength := congrArg List.length hplace
    have hle := hfirst.length_le
    simp only [List.length_append, List.length_singleton] at hlength
    omega

end Target

namespace History

variable {pagesRoot : FilePath} {t : Templates} {plans : List PagePlan} {base place : Location}
  {d d' : Disk} {done : List (Target × FileOutcome)} {g g' : Target} {outcome : FileOutcome}
  {number : Nat}

/-- Without links, targets lead to one file only if they have the same path. -/
theorem reached_iff (hplain : d'.IsPlain)
    (hplace : d'.place base (g.path pagesRoot) = .ok (g.place pagesRoot base))
    (hitem : d'.item? (g.place pagesRoot base) = some (.file number)) :
    g'.reached? pagesRoot base d' = some (.file number) ↔
      g'.path pagesRoot = g.path pagesRoot := by
  constructor
  · intro hreached
    obtain ⟨place, hplace', hitem'⟩ := reached?_eq_some.1 hreached
    cases hplain.place_eq hplace'
    exact Target.place_eq_iff.1 (hplain.single _ _ number hitem' hitem)
  · intro hpath
    refine reached?_eq_some.2 ⟨_, ?_, hitem⟩
    rw [hpath]
    exact hplace

/-- Without links, what stands at the place of a target comes from the targets with its path. -/
theorem get? (h : History pagesRoot t plans base d done d') (hplain : d.IsPlain)
    (hpages : ∀ plan ∈ plans, plan.page.IsPlain) (hg : (g, outcome) ∈ done)
    (hroot : (d.item? (g.place pagesRoot base)).isSome = true ∨ ¬ g.IsOnWay pagesRoot base) :
    d'.place base (g.path pagesRoot) = .ok (g.place pagesRoot base) ∧
      d'.get? (g.place pagesRoot base) = Target.left t (d.get? (g.place pagesRoot base))
        ((done.map Prod.fst).filter fun g' => g'.path pagesRoot = g.path pagesRoot) := by
  have hplain' := h.plain hplain
  obtain ⟨place, hplace⟩ := h.leads hg
  cases hplain'.place_eq hplace
  refine ⟨hplace, ?_⟩
  obtain ⟨item, hitem⟩ := Option.isSome_iff_exists.1 (place_eq_ok_iff.1 hplace).2
  have hitem' : d'.item? (g.place pagesRoot base) = some item := hitem
  cases item with
  | link target => exact absurd hitem (hplain'.direct _ target)
  | file number =>
    have hold : d.get? (g.place pagesRoot base) = d.node? (.file number) := by
      rcases h.origin hitem' with hfile | ⟨hnone, ⟨⟩ | ⟨-, hnew, -⟩⟩
      · rw [Disk.get?, hfile]
        rfl
      · rw [Disk.get?, hnone, Disk.node?, List.getElem?_eq_none hnew]
        rfl
    rw [hold, Disk.get?, hitem', Option.bind_some, h.node? (.refl d')]
    simp only [reached_iff hplain' hplace hitem']
  | directory =>
    rcases h.origin hitem' with hthere | ⟨hnone, ⟨hplan, hq, hleads⟩ | _⟩
    · -- a target that covers would have failed
      have hnone : ((done.map Prod.fst).filter fun g' =>
          g'.path pagesRoot = g.path pagesRoot).reverse.find? Target.covers = none := by
        rw [List.find?_eq_none]
        intro g' hg' hcovers
        obtain ⟨hg', hpath⟩ := List.mem_filter.1 (List.mem_reverse.1 hg')
        obtain ⟨⟨_, outcome'⟩, hpair, rfl⟩ := List.mem_map.1 hg'
        obtain ⟨number, hreached⟩ := h.reached_of_covers hpair hcovers
        rw [Target.reached?, of_decide_eq_true hpath] at hreached
        obtain ⟨_, hplace', hfile⟩ := reached?_eq_some.1 hreached
        cases hplace.symm.trans hplace'
        cases hitem.symm.trans hfile
      rw [get?_of_directory hitem', get?_of_directory hthere, Target.left, hnone]
      rfl
    · rcases hroot with hsome | hroot
      · rw [hnone] at hsome
        cases hsome
      · exact absurd (hplain'.place_eq hleads).symm
          (Target.place_ne_way (hpages _ hplan) hq hroot)

end History

/-! ## The report -/

namespace WriteReport

theorem sublists (outcomes : List FileOutcome) :
    (WriteReport.mk outcomes).written.Sublist (outcomes.map FileOutcome.path) ∧
      (WriteReport.mk outcomes).skipped.Sublist (outcomes.map FileOutcome.path) ∧
      ((WriteReport.mk outcomes).written ++ (WriteReport.mk outcomes).skipped).Perm
        (outcomes.map FileOutcome.path) := by
  induction outcomes with
  | nil => exact ⟨.slnil, .slnil, .nil⟩
  | cons outcome outcomes ih =>
    obtain ⟨hwritten, hskipped, hperm⟩ := ih
    cases outcome with
    | written path => exact ⟨hwritten.cons_cons path, hskipped.cons path, hperm.cons path⟩
    | skipped path =>
      exact ⟨hwritten.cons path, hskipped.cons_cons path,
        List.perm_middle.trans (hperm.cons path)⟩

end WriteReport

/-- Writing pages keeps what is there. Each file holds in the end what the targets leave whose paths
lead to it, in the order of the plans, so that other files stay as they are. A target leads to a
file, unless it leads to a directory, and then that was there or has been made for a page. Each
target is reported once. Without links, targets lead to one file only if they have the same path, and
for plain pages no directory is made there, unless the path is on the way to the root of the pages,
which it cannot be where that has no `..`. Planned pages are plain. -/
theorem writePages_contents {w w' : World} {pagesRoot : FilePath} {t : Templates}
    {plans : List PagePlan} {report : WriteReport}
    (h : w.run (writePages pagesRoot t plans) = (.ok report, w')) :
    let base := w.workingDirectory
    let targets := Target.all plans
    let paths := targets.map (Target.path · pagesRoot)
    w.disk.Keeps w'.disk ∧
    (∀ number, w'.disk.node? (.file number) = Target.left t (w.disk.node? (.file number))
      (targets.filter fun g => g.reached? pagesRoot base w'.disk = some (.file number))) ∧
    (∀ g ∈ targets, (∃ number, g.reached? pagesRoot base w'.disk = some (.file number)) ∨
      ∃ place, w'.disk.place base (g.path pagesRoot) = .ok place ∧
        w'.disk.item? place = some .directory ∧
        (w.disk.item? place = some .directory ∨ w.disk.item? place = none ∧ ∃ plan ∈ plans,
          ∃ q ∈ plan.page.way pagesRoot, w'.disk.place base q = .ok place)) ∧
    (∀ place number, w.disk.item? place = some (.file number) →
      (∀ g ∈ targets, g.reached? pagesRoot base w'.disk ≠ some (.file number)) →
        w'.disk.get? place = w.disk.get? place) ∧
    (report.written.Sublist paths ∧ report.skipped.Sublist paths ∧
      (report.written ++ report.skipped).Perm paths) ∧
    (w.disk.IsPlain → (∀ plan ∈ plans, plan.page.IsPlain) → ∀ g ∈ targets,
      (w.disk.item? (g.place pagesRoot base)).isSome = true ∨ ¬ g.IsOnWay pagesRoot base →
        w'.disk.place base (g.path pagesRoot) = .ok (g.place pagesRoot base) ∧
        w'.disk.get? (g.place pagesRoot base) =
          Target.left t (w.disk.get? (g.place pagesRoot base))
            (targets.filter fun g' => g'.path pagesRoot = g.path pagesRoot)) ∧
    ((".." : Text) ∉ pagesRoot.parts → ∀ g : Target, ¬ g.IsOnWay pagesRoot base) ∧
    ∀ routes b pagesAlias planned, planPages routes b pagesAlias = .ok planned →
      ∀ plan ∈ planned, plan.page.IsPlain := by
  intro base targets paths
  obtain ⟨-, done, hhistory, htargets, houtcomes⟩ := writePages_history h
  have hmem : ∀ g ∈ targets, ∃ outcome, (g, outcome) ∈ done := by
    intro g hg
    rw [show targets = done.map Prod.fst from htargets.symm] at hg
    obtain ⟨⟨_, outcome⟩, hpair, rfl⟩ := List.mem_map.1 hg
    exact ⟨outcome, hpair⟩
  have hnode : ∀ number, w'.disk.node? (.file number) =
      Target.left t (w.disk.node? (.file number))
        (targets.filter fun g => g.reached? pagesRoot base w'.disk = some (.file number)) := by
    intro number
    rw [hhistory.node? (.refl _), htargets]
  refine ⟨hhistory.keeps, hnode, fun g hg => ?_, fun place number hfile hapart => ?_, ?_,
    fun hplain hpages g hg hroot => ?_, fun hup g => g.not_isOnWay base hup,
    fun routes b pagesAlias planned hplanned plan hplan => ?_⟩
  · obtain ⟨outcome, hpair⟩ := hmem g hg
    exact hhistory.reached hpair
  · have hnone : targets.filter
        (fun g => g.reached? pagesRoot base w'.disk = some (.file number)) = [] :=
      List.filter_eq_nil_iff.2 fun g hg hreached => hapart g hg (of_decide_eq_true hreached)
    obtain ⟨content, hcontent, hget⟩ := get?_of_file hfile
    rw [Disk.get?, hhistory.keeps.item hfile, Option.bind_some, hnode, hnone, hget, Disk.node?,
      hcontent]
    rfl
  · have hpaths : paths = report.outcomes.map FileOutcome.path := by
      rw [← houtcomes, List.map_map]
      refine Eq.trans ?_ hhistory.paths.symm
      show targets.map _ = _
      rw [show targets = done.map Prod.fst from htargets.symm, List.map_map]
      rfl
    rw [hpaths]
    exact WriteReport.sublists report.outcomes
  · obtain ⟨outcome, hpair⟩ := hmem g hg
    have hget := hhistory.get? hplain hpages hpair hroot
    rwa [htargets] at hget
  · obtain ⟨_, hof⟩ := exists_isPlanOf (planPages_eq_ok.1 hplanned).1 hplan
    exact isPlain_of_deriveBinding hof.identifier

/-- A plan that covers comes between two that do not, and a page that is there is kept. -/
theorem writePages_contents_twice :
    let page (raw : Text) : PagePath := (PagePath.parse raw).toOption.getD .root
    let plan (raw title : Text) (table service : Bool) (cover : Option Bool) : PagePlan :=
      ⟨title, page raw, "Page", "Page", ⟨0, 0⟩, table, service, cover⟩
    let plans : List PagePlan := [plan "a" "one" false false none,
      plan "a" "two" true true (some true), plan "a" "three" false true none,
      plan "b" "four" false false (some false)]
    let t : Templates := ⟨"blank HEADERTITLE", "table HEADERTITLE", "service HEADERTITLE"⟩
    let pagesRoot : FilePath := ⟨"/p/pages"⟩
    let setUp : StateM World Unit := do
      discard (Host.makeDirectories ⟨"/p/pages/b"⟩)
      discard (Host.writeText ⟨"/p/pages/b/index.tsx"⟩ "kept")
    let start : World := (setUp ⟨.empty, [], []⟩).2
    let holds (d : Disk) (p content : Text) : Prop :=
      d.get? (FilePath.location [] ⟨p⟩) = some (.file (Utf8.encode content))
    ∃ report w', start.run (writePages pagesRoot t plans) = (.ok report, w') ∧
      holds w'.disk "/p/pages/a/index.tsx" "table two" ∧
      holds w'.disk "/p/pages/a/service.tsx" "service two" ∧
      holds w'.disk "/p/pages/b/index.tsx" "kept" ∧
      (report.written ++ report.skipped).length = 6 := by
  intro page plan plans t pagesRoot setUp start holds
  have hpages : ∀ plan ∈ plans, plan.page.IsPlain := by
    show ∀ plan ∈ plans, ∀ s ∈ plan.page.segments, '.' ∉ s
    decide +kernel
  have hplain : start.disk.IsPlain := by decide +kernel
  have hok : (start.run (writePages pagesRoot t plans)).1.toOption.isSome = true := by
    decide +kernel
  rcases hrun : start.run (writePages pagesRoot t plans) with ⟨result, w'⟩
  rw [hrun] at hok
  obtain ⟨report, hreport⟩ := Option.isSome_iff_exists.1 hok
  cases toOption_eq_some.1 hreport
  obtain ⟨-, -, -, -, ⟨-, -, hperm⟩, hleft, hroot, -⟩ := writePages_contents hrun
  have hclear : ∀ g : Target, ¬ g.IsOnWay pagesRoot start.workingDirectory :=
    hroot (by decide +kernel)
  have htarget (plan : PagePlan) (f : PageFile) (hplan : plan ∈ plans) (hf : f ∈ plan.files)
      (p content : Text)
      (hplace : Target.place ⟨plan, f⟩ pagesRoot start.workingDirectory = FilePath.location [] ⟨p⟩)
      (hleaves : Target.left t
        (start.disk.get? (Target.place ⟨plan, f⟩ pagesRoot start.workingDirectory))
        ((Target.all plans).filter fun g => g.path pagesRoot = Target.path ⟨plan, f⟩ pagesRoot) =
          some (.file (Utf8.encode content))) : holds w'.disk p content := by
    have hget := hleft hplain hpages ⟨plan, f⟩ (Target.mem_all.2 ⟨hplan, hf⟩) (.inr (hclear _))
    show w'.disk.get? (FilePath.location [] ⟨p⟩) = _
    rw [← hplace]
    exact hget.2.trans hleaves
  refine ⟨report, w', rfl, ?_, ?_, ?_, ?_⟩
  · exact htarget plans[0] .component (by decide +kernel) (by decide +kernel) _ _
      (by decide +kernel) (by decide +kernel)
  · exact htarget plans[1] .service (by decide +kernel) (by decide +kernel) _ _
      (by decide +kernel) (by decide +kernel)
  · exact htarget plans[3] .component (by decide +kernel) (by decide +kernel) _ _
      (by decide +kernel) (by decide +kernel)
  · rw [hperm.length_eq]
    decide +kernel

/-- The directory of one page is a link to that of another one. So the file that is made for the
first page is there for the second one as well, and holds what it holds for the first. And where the
root of the pages leads back (`..`) out of a directory at the place of the page's file, that directory
is made, and the file is passed over. -/
theorem writePages_passes_over :
    let plan (raw name : Text) : PagePlan :=
      ⟨raw, (PagePath.parse raw).toOption.getD .root, name, name, ⟨0, 0⟩, false, false, none⟩
    let plans : List PagePlan := [plan "a" "A", plan "b" "B"]
    let pagesRoot : FilePath := ⟨"/p/pages"⟩
    let path (raw : Text) : FilePath := ⟨"/p/pages/" ++ raw ++ "/index.tsx"⟩
    let setUp : StateM World Unit := do
      discard (Host.makeDirectories ⟨"/p/pages/a"⟩)
      discard (World.change fun d base => d.makeLink base ⟨"/p/pages/b"⟩ ⟨"a"⟩)
    let start : World := (setUp ⟨.empty, [], []⟩).2
    let result := start.run (writePages pagesRoot .bundled plans)
    let back : FilePath := ⟨"src/pages/a/index.tsx/../../../pages"⟩
    let result' := (World.mk .empty [] []).run (writePages back .bundled [plan "a" "A"])
    (pagesRoot.IsClean ∧ (∀ plan ∈ plans, ∀ s ∈ plan.page.segments, '.' ∉ s) ∧
      start.disk.content? [] (path "b") = none ∧
      result.1.toOption = some ⟨[.written (path "a"), .skipped (path "b")]⟩ ∧
      result.2.disk.content? [] (path "b") =
        some (Utf8.encode (Templates.bundled.componentText (plan "a" "A"))) ∧
      Templates.bundled.componentText (plan "a" "A") ≠
        Templates.bundled.componentText (plan "b" "B")) ∧
    result'.1.toOption = some ⟨[.skipped (back.join "a/index.tsx")]⟩ ∧
      result'.2.disk.content? [] (back.join "a/index.tsx") = none := by
  intro plan plans pagesRoot path setUp start result back result'
  have hpages : ∀ plan ∈ plans, ∀ s ∈ plan.page.segments, '.' ∉ s := by decide +kernel
  exact ⟨⟨by decide +kernel, hpages, by decide +kernel, by decide +kernel, by decide +kernel,
    by decide +kernel⟩, by decide +kernel, by decide +kernel⟩

end RoutePages
