import RoutePages.Proofs.Disk.Detour
import RoutePages.Proofs.Page.Contents

/-!
# Existing files are decided on

The check before a run meets the first file that is there and that no plan decides on. Where it
finds none, the run passes over a file only if its plan says so, or if the run itself has made what
is there or the way to it, and it replaces a file only if its plan says so.
-/
namespace RoutePages

open World Disk

/-! ## The check -/

/-- The file is there, and its plan does not say what to do then. -/
def Target.isUndecided (pagesRoot : FilePath) (base : Location) (d : Disk) (g : Target) : Bool :=
  g.plan.cover.isNone && (d.kind? base (g.path pagesRoot)).isSome

theorem Target.isUndecided_iff {pagesRoot : FilePath} {base : Location} {d : Disk} {g : Target} :
    g.isUndecided pagesRoot base d = true ↔ g.plan.cover = none ∧ g.IsThere pagesRoot base d := by
  rw [isUndecided, Bool.and_eq_true, Option.isNone_iff_eq_none]
  rfl

section Check

variable {pagesRoot : FilePath} {w : World} {plans : List PagePlan}

theorem firstExisting_run (paths : List FilePath) (w : World) :
    (firstExisting paths : StateM World (Option FilePath)) w =
      (paths.find? fun p => (w.disk.kind? w.workingDirectory p).isSome, w) := by
  induction paths with
  | nil => rfl
  | cons path paths ih =>
    rw [firstExisting, bind_run, List.find?_cons]
    have hlook : (Host.exists? path : StateM World Bool) w =
        ((w.disk.kind? w.workingDirectory path).isSome, w) := rfl
    rw [hlook]
    cases (w.disk.kind? w.workingDirectory path).isSome with
    | true => rfl
    | false => exact ih

/-- The check refuses the first undecided file of the plans, and changes nothing. -/
theorem checkOverwrites_run (pagesRoot : FilePath) (plans : List PagePlan) (w : World) :
    w.run (checkOverwrites pagesRoot plans) =
      (match (Target.all plans).find? (Target.isUndecided pagesRoot w.workingDirectory w.disk) with
        | some g => .error (.undecided g.plan.page (g.path pagesRoot))
        | none => .ok (), w) := by
  induction plans with
  | nil => rfl
  | cons plan plans ih =>
    have hfiles := firstExisting_run (plan.files.map (·.path plan pagesRoot)) w
    have hall : Target.all (plan :: plans) = plan.targets ++ Target.all plans :=
      List.flatMap_cons
    rw [hall, List.find?_append, PagePlan.targets_eq, List.find?_map]
    unfold checkOverwrites
    cases hcover : plan.cover with
    | some cover =>
      have hnone : plan.files.find? (Target.isUndecided pagesRoot w.workingDirectory w.disk ∘
          Target.mk plan) = none := by
        rw [List.find?_eq_none]
        intro f _
        simp [Target.isUndecided, hcover]
      rw [hnone]
      exact ih
    | none =>
      have hsame : (Target.isUndecided pagesRoot w.workingDirectory w.disk ∘ Target.mk plan) =
          fun f => (w.disk.kind? w.workingDirectory (f.path plan pagesRoot)).isSome := by
        funext f
        simp [Target.isUndecided, hcover, Target.path_eq]
      have hlift : w.run (liftM (firstExisting (m := StateM World)
          (plan.files.map (·.path plan pagesRoot))) :
            ExceptT ConfigError (StateM World) (Option FilePath)) =
          (.ok ((plan.files.find? fun f => (w.disk.kind? w.workingDirectory
            (f.path plan pagesRoot)).isSome).map (·.path plan pagesRoot)), w) := by
        rw [List.find?_map] at hfiles
        exact congrArg (fun outcome => (Except.ok outcome.1, outcome.2)) hfiles
      rw [hsame]
      refine (run_bind_ok hlift).trans ?_
      cases plan.files.find? fun f =>
          (w.disk.kind? w.workingDirectory (f.path plan pagesRoot)).isSome with
      | some f => rfl
      | none => exact ih

theorem checkOverwrites_refuses_iff :
    (∃ e, (w.run (checkOverwrites pagesRoot plans)).1 = .error e) ↔
      ∃ g ∈ Target.all plans, g.plan.cover = none ∧ g.IsThere pagesRoot w.workingDirectory w.disk := by
  rw [checkOverwrites_run]
  cases hfind : (Target.all plans).find?
      (Target.isUndecided pagesRoot w.workingDirectory w.disk) with
  | some g =>
    have hundecided := Target.isUndecided_iff.1 (List.find?_some hfind)
    exact ⟨fun _ => ⟨g, List.mem_of_find?_eq_some hfind, hundecided⟩, fun _ => ⟨_, rfl⟩⟩
  | none =>
    refine ⟨by rintro ⟨e, ⟨⟩⟩, ?_⟩
    rintro ⟨g, hg, hundecided⟩
    exact absurd (Target.isUndecided_iff.2 hundecided) (List.find?_eq_none.1 hfind g hg)

theorem not_isUndecided_of_checked (h : (w.run (checkOverwrites pagesRoot plans)).1 = .ok ())
    {g : Target} (hg : g ∈ Target.all plans) :
    g.isUndecided pagesRoot w.workingDirectory w.disk = false := by
  rw [checkOverwrites_run] at h
  cases hfind : (Target.all plans).find?
      (Target.isUndecided pagesRoot w.workingDirectory w.disk) with
  | some first =>
    rw [hfind] at h
    cases h
  | none => exact Bool.eq_false_iff.2 (List.find?_eq_none.1 hfind g hg)

end Check

/-! ## The run -/

namespace Target

variable {g g' : Target} {pagesRoot : FilePath} {base : Location} {d : Disk}

/-- The file of a page is reached no other way than the root of the pages. -/
theorem not_isDetour (g : Target) (h : ¬ d.IsDetour base pagesRoot) :
    ¬ d.IsDetour base (g.path pagesRoot) := by
  have hcontinues := g.file.continues_path g.plan pagesRoot
  rw [← g.path_eq] at hcontinues
  exact mt (isDetour_of_steps (hcontinues.steps base) fun name hname =>
    (hcontinues.plain name hname).2) h

/-- No directory is made at the place of a missing file of a page, unless the root of the pages is
reached by a detour. -/
theorem not_isOnWay_of_missing (hdetour : ¬ d.IsDetour base pagesRoot)
    (hnone : d.item? (g.place pagesRoot base) = none) : ¬ g.IsOnWay pagesRoot base := by
  intro hway
  obtain ⟨q, hq, hplace⟩ := List.mem_map.1 hway
  have hbelow := prefix_of_mem_above hq hdetour (hplace.symm ▸ hnone)
  rw [hplace, g.place_eq] at hbelow
  have hlength := hbelow.length_le
  simp only [List.length_append, List.length_singleton] at hlength
  omega

/-- Targets at one place are the same file of the same page. -/
theorem page_eq_of_place (h : g.place pagesRoot base = g'.place pagesRoot base) :
    g.plan.page = g'.plan.page ∧ g.file = g'.file := by
  rw [g.place_eq, g'.place_eq] at h
  obtain ⟨hsegments, hname⟩ := List.append_inj' (List.append_cancel_left h) rfl
  refine ⟨(PagePath.mk.injEq _ _ _ _).mpr hsegments, ?_⟩
  have hnames : g.file.name = g'.file.name := List.singleton_inj.1 hname
  revert hnames
  cases g.file <;> cases g'.file <;> decide

/-- What became of a file between a disk and a later one, given the targets that were dealt with
before and what became of them. What was there is replaced only if the plan says so. A file is passed
over only if the plan says so, or if there was no path to what is there: it is a new directory, or an
earlier target has made it, or the way to it is new. Without links, and where the root of the pages is
reached by no detour, an earlier plan for the same page has made it. -/
structure IsDecided (pagesRoot : FilePath) (plans : List PagePlan) (base : Location) (d d' : Disk)
    (before : List (Target × FileOutcome)) (g : Target) (outcome : FileOutcome) : Prop where
  path : outcome.path = g.path pagesRoot
  written : outcome = .written (g.path pagesRoot) →
    ∀ place, d'.place base (g.path pagesRoot) = .ok place → (d.item? place).isSome = true →
      g.plan.cover = some true
  skipped : outcome = .skipped (g.path pagesRoot) → g.plan.cover = some false ∨
    g.plan.cover = none ∧ ¬ g.IsThere pagesRoot base d ∧
      ∃ place item, d'.place base (g.path pagesRoot) = .ok place ∧ d'.item? place = some item ∧
        (d.item? place = some item ∨ d.item? place = none ∧
          History.Placed pagesRoot plans base d before d' place item)
  skipped_plain : outcome = .skipped (g.path pagesRoot) → d.IsPlain →
    ¬ d.IsDetour base pagesRoot → g.plan.cover = some false ∨
      d.item? (g.place pagesRoot base) = none ∧ ∃ earlier : Target,
        (earlier, .written (g.path pagesRoot)) ∈ before ∧ earlier.plan.page = g.plan.page

end Target

namespace History

variable {pagesRoot : FilePath} {t : Templates} {plans : List PagePlan} {base : Location}
  {d d' : Disk} {before after : List (Target × FileOutcome)} {g : Target} {outcome : FileOutcome}

/-- What a run has put to a free place for a plain target comes from an earlier target with its
path. -/
theorem Placed.earlier {item : Item}
    (h : Placed pagesRoot plans base d before d' (g.place pagesRoot base) item)
    (hplain : d'.IsPlain) (hpages : ∀ plan ∈ plans, plan.page.IsPlain)
    (hroot : ¬ g.IsOnWay pagesRoot base) : ∃ earlier : Target,
      (earlier, .written (g.path pagesRoot)) ∈ before ∧ earlier.plan.page = g.plan.page := by
  cases h with
  | directory hplan hq hleads =>
    exact absurd (hplain.place_eq hleads).symm (Target.place_ne_way (hpages _ hplan) hq hroot)
  | @file earlier number hearlier _ hleads =>
    have hplace : g.place pagesRoot base = earlier.place pagesRoot base := hplain.place_eq hleads
    refine ⟨earlier, ?_, (Target.page_eq_of_place hplace).1.symm⟩
    rwa [Target.place_eq_iff.1 hplace]

/-- Each file that the check did not refuse is decided on. -/
theorem isDecided (h : History pagesRoot t plans base d (before ++ (g, outcome) :: after) d')
    (hpages : ∀ plan ∈ plans, plan.page.IsPlain)
    (hchecked : g.isUndecided pagesRoot base d = false) :
    g.IsDecided pagesRoot plans base d d' before outcome := by
  obtain ⟨d₁, d₂, hbefore, hdealt, hkeeps⟩ := h.split
  have hpath := hdealt.outcome_path
  cases hdealt with
  | written hcover hreaches hwritten =>
    refine ⟨hpath, fun _ place hplace hsome => hcover ?_, nofun, nofun⟩
    have hslash := g.getLast?_path pagesRoot
    have hhere := hkeeps.leads (hwritten.leads hslash hreaches)
    cases hplace.symm.trans hhere
    exact (WrittenAt.isSome_kind?_iff hslash hreaches).2 (hbefore.keeps.isSome hsome)
  | passed hthere hcover =>
    obtain ⟨place, hplace⟩ := isSome_kind?_iff.1 hthere
    obtain ⟨item, hitem⟩ := Option.isSome_iff_exists.1 (place_eq_ok_iff.1 hplace).2
    have horigin := hbefore.origin hitem
    cases hcovers : g.plan.cover with
    | some covers =>
      cases covers with
      | true => exact absurd hcovers hcover
      | false => exact ⟨hpath, nofun, fun _ => .inl hcovers, fun _ _ _ => .inl hcovers⟩
    | none =>
      have hunseen : ¬ g.IsThere pagesRoot base d := fun hthere => Bool.false_ne_true <|
        hchecked.symm.trans (Target.isUndecided_iff.2 ⟨hcovers, hthere⟩)
      refine ⟨hpath, nofun, fun _ => .inr ⟨hcovers, hunseen, place, item, hkeeps.leads hplace,
        hkeeps.item hitem, horigin.imp id (And.imp id fun hplaced => ?_)⟩,
        fun _ hplain hdetour => .inr ?_⟩
      · have hlater := hplaced.keeps hkeeps []
        rwa [List.append_nil] at hlater
      · have hplain₁ := hbefore.plain hplain
        cases hplain₁.place_eq hplace
        rcases horigin with hold | ⟨hnone, hplaced⟩
        · -- the check would have met what was there
          exact absurd (hplain₁.isSome_kind?_of_keeps hbefore.keeps (g.not_isDetour hdetour)
            (Option.isSome_of_mem hold) hthere) hunseen
        · exact ⟨hnone, Placed.earlier hplaced hplain₁ hpages
            (Target.not_isOnWay_of_missing hdetour hnone)⟩

end History

/-- What was there before a run and is something else afterwards is a file to which the path of a
target leads whose plan covers. -/
theorem covers_of_changed {w w' : World} {pagesRoot : FilePath} {t : Templates}
    {plans : List PagePlan} {report : WriteReport} {place : Location} {node : Node}
    (h : w.run (writePages pagesRoot t plans) = (.ok report, w'))
    (hthere : w.disk.get? place = some node) (hchanged : w'.disk.get? place ≠ some node) :
    ∃ g ∈ Target.all plans, g.plan.cover = some true ∧ ∃ number,
      w.disk.item? place = some (.file number) ∧
        g.reached? pagesRoot w.workingDirectory w'.disk = some (.file number) := by
  obtain ⟨-, done, hhistory, htargets, -⟩ := writePages_history h
  cases node with
  | directory =>
    have hitem := hhistory.keeps.item (item?_of_get?_directory hthere)
    exact absurd (get?_of_directory hitem) hchanged
  | file content =>
    obtain ⟨number, hitem, hcontent⟩ := item?_of_get?_file hthere
    have hold : w.disk.node? (.file number) = some (.file content) := by
      rw [Disk.node?, hcontent]
      rfl
    rw [Disk.get?, hhistory.keeps.item hitem, Option.bind_some, hhistory.node? (.refl _), htargets,
      hold, Target.left] at hchanged
    cases hlast : ((Target.all plans).filter fun g => g.reached? pagesRoot w.workingDirectory
        w'.disk = some (.file number)).reverse.find? Target.covers with
    | none =>
      rw [hlast] at hchanged
      exact absurd rfl hchanged
    | some g =>
      have hmem := List.mem_reverse.1 (List.mem_of_find?_eq_some hlast)
      obtain ⟨hg, hreached⟩ := List.mem_filter.1 hmem
      have hcovers : g.covers = true := List.find?_some hlast
      exact ⟨g, hg, of_decide_eq_true hcovers, number, hitem, of_decide_eq_true hreached⟩

/-- The check before a run refuses the first file, in the order of the plans, that is there and
that its plan does not decide on, and it changes nothing. Where it refuses none, a run of planned
pages decides on each file in turn, and changes nothing that was there but files of plans that cover.
The root of the pages of a project is never reached by a detour. -/
theorem checkOverwrites_decides {w : World} {pagesRoot : FilePath} {t : Templates}
    {routes : RouteTable} {b : Bindings} {pagesAlias : Text} {plans : List PagePlan}
    (hplans : planPages routes b pagesAlias = .ok plans) :
    let base := w.workingDirectory
    let check := w.run (checkOverwrites pagesRoot plans)
    ((∃ e, check.1 = .error e) ↔
      ∃ g ∈ Target.all plans, g.plan.cover = none ∧ g.IsThere pagesRoot base w.disk) ∧
    check = (match (Target.all plans).find? (Target.isUndecided pagesRoot base w.disk) with
      | some g => .error (.undecided g.plan.page (g.path pagesRoot))
      | none => .ok (), w) ∧
    (∀ report w', check.1 = .ok () →
      w.run (writePages pagesRoot t plans) = (.ok report, w') →
        report.outcomes.length = (Target.all plans).length ∧
        (∀ before g outcome after,
          (Target.all plans).zip report.outcomes = before ++ (g, outcome) :: after →
            g.IsDecided pagesRoot plans base w.disk w'.disk before outcome) ∧
        ∀ place node, w.disk.get? place = some node → w'.disk.get? place ≠ some node →
          ∃ g ∈ Target.all plans, g.plan.cover = some true ∧ ∃ number,
            w.disk.item? place = some (.file number) ∧
              g.reached? pagesRoot base w'.disk = some (.file number)) ∧
    ∀ c : ProjectConfig, ¬ w.disk.IsDetour base c.pagesRoot := by
  intro base check
  refine ⟨checkOverwrites_refuses_iff, checkOverwrites_run pagesRoot plans w,
    fun report w' hok hrun => ?_,
    fun c => not_isDetour_of_steps (c.pages_clean.up_not_mem_steps base)⟩
  obtain ⟨-, done, hhistory, htargets, houtcomes⟩ := writePages_history hrun
  have hdone : (Target.all plans).zip report.outcomes = done := by
    rw [← htargets, ← houtcomes]
    exact (List.zip_of_prod rfl rfl).symm
  refine ⟨?_, fun before g outcome after hsplit => ?_,
    fun place node hthere hchanged => covers_of_changed hrun hthere hchanged⟩
  · rw [← htargets, ← houtcomes, List.length_map, List.length_map]
  · rw [← hdone, hsplit] at hhistory
    refine hhistory.isDecided (fun plan hplan => ?_) (not_isUndecided_of_checked hok ?_)
    · obtain ⟨_, hof⟩ := exists_isPlanOf (planPages_eq_ok.1 hplans).1 hplan
      exact isPlain_of_deriveBinding hof.identifier
    · have hmem : (g, outcome) ∈ (Target.all plans).zip report.outcomes := by
        rw [hsplit]
        exact List.mem_append_right _ List.mem_cons_self
      exact (List.of_mem_zip hmem).1

/-- The same page is planned twice, and made by its first plan. One more page is kept, and one is
replaced. -/
theorem checkOverwrites_decides_twice :
    let here : Span := ⟨0, 0⟩
    let entry (path : Text) (service : Bool) (cover : Option Bool) : Entry :=
      ⟨some path, none, some (.path path here), false, service, cover, [], here, []⟩
    let routes : RouteTable := ⟨"routes", here, [entry "a" false none, entry "a" true none,
      entry "b" false (some false), entry "c" false (some true)], [], none⟩
    let pagesRoot : FilePath := ⟨"/p/pages"⟩
    let setUp : StateM World Unit := do
      discard (Host.makeDirectories ⟨"/p/pages/b"⟩)
      discard (Host.makeDirectories ⟨"/p/pages/c"⟩)
      discard (Host.writeText ⟨"/p/pages/b/index.tsx"⟩ "kept")
      discard (Host.writeText ⟨"/p/pages/c/index.tsx"⟩ "old")
    let start : World := (setUp ⟨.empty, [], []⟩).2
    let plans : List PagePlan := (planPages routes .empty "@/pages").toOption.getD []
    ∃ report w', planPages routes .empty "@/pages" = .ok plans ∧
      (start.run (checkOverwrites pagesRoot plans)).1 = .ok () ∧
      start.run (writePages pagesRoot .bundled plans) = (.ok report, w') ∧
      report.skipped.map FilePath.text =
        Text.texts ["/p/pages/a/index.tsx", "/p/pages/b/index.tsx"] ∧
      report.outcomes.length = 5 ∧ ∃ g ∈ Target.all plans, g.plan.cover = some true := by
  intro here entry routes pagesRoot setUp start plans
  let place : Location := Text.texts ["p", "pages", "c", "index.tsx"]
  have hplanned : (planPages routes .empty "@/pages").toOption = some plans := by decide +kernel
  have htargets : (Target.all plans).length = 5 := by decide +kernel
  have hskipped : (start.run (writePages pagesRoot .bundled plans)).1.toOption.map
      (fun report => report.skipped.map FilePath.text) =
        some (Text.texts ["/p/pages/a/index.tsx", "/p/pages/b/index.tsx"]) := by decide +kernel
  have hchecked : (start.run (checkOverwrites pagesRoot plans)).1.toOption = some () := by
    decide +kernel
  have hthere : start.disk.get? place = some (.file (Utf8.encode "old")) := by decide +kernel
  have hchanged : (start.run (writePages pagesRoot .bundled plans)).2.disk.get? place ≠
      some (.file (Utf8.encode "old")) := by decide +kernel
  rcases hrun : start.run (writePages pagesRoot .bundled plans) with ⟨result, w'⟩
  rw [hrun] at hskipped hchanged
  obtain ⟨report, hreport, hpaths⟩ := Option.map_eq_some_iff.1 hskipped
  cases toOption_eq_some.1 hreport
  have hplans := toOption_eq_some.1 hplanned
  have hok := toOption_eq_some.1 hchecked
  obtain ⟨-, -, hdecided, -⟩ :=
    @checkOverwrites_decides start pagesRoot .bundled _ _ _ _ hplans
  obtain ⟨hlength, -, hcovers⟩ := hdecided report w' hok hrun
  obtain ⟨g, hg, hcover, -⟩ := hcovers place _ hthere hchanged
  exact ⟨report, w', hplans, hok, rfl, hpaths, hlength.trans htargets, g, hg, hcover⟩

/-- The directory of one page is a link to that of another one. So the file of the second page is not
there when it is checked, and there when it is to be written, since the first page has made it. And
where the root of the pages leads back (`..`) out of a directory that is not there yet, the check does
not see a file that exists, and once that directory is made the file is passed over, although nothing
decides on it. -/
theorem checkOverwrites_overlooks :
    let here : Span := ⟨0, 0⟩
    let entry (path : Text) : Entry :=
      ⟨some path, none, some (.path path here), false, false, none, [], here, []⟩
    let planned (entries : List Entry) : Option (List PagePlan) :=
      (planPages ⟨"routes", here, entries, [], none⟩ .empty "@/pages").toOption
    let both : List PagePlan := (planned [entry "a", entry "b"]).getD []
    let pagesRoot : FilePath := ⟨"/p/pages"⟩
    let setUp : StateM World Unit := do
      discard (Host.makeDirectories ⟨"/p/pages/a"⟩)
      discard (World.change fun d base => d.makeLink base ⟨"/p/pages/b"⟩ ⟨"a"⟩)
    let linked : World := (setUp ⟨.empty, [], []⟩).2
    let one : List PagePlan := (planned [entry "a"]).getD []
    let back : FilePath := ⟨"x/../pages"⟩
    let setUp' : StateM World Unit := do
      discard (Host.makeDirectories ⟨"pages/a"⟩)
      discard (Host.writeText ⟨"pages/a/index.tsx"⟩ "old")
    let start : World := (setUp' ⟨.empty, [], []⟩).2
    (pagesRoot.IsClean ∧ planned [entry "a", entry "b"] = some both ∧
      both.map (fun plan => (plan.page.toText, plan.cover)) =
        [(("/a" : Text), none), (("/b" : Text), none)] ∧
      (linked.run (checkOverwrites pagesRoot both)).1.toOption = some () ∧
      (linked.run (writePages pagesRoot .bundled both)).1.toOption =
        some ⟨[.written ⟨"/p/pages/a/index.tsx"⟩, .skipped ⟨"/p/pages/b/index.tsx"⟩]⟩) ∧
    planned [entry "a"] = some one ∧
      one.map (fun plan => (plan.page.toText, plan.cover)) = [(("/a" : Text), none)] ∧
      start.disk.content? [] ⟨"pages/a/index.tsx"⟩ = some (Utf8.encode "old") ∧
      (start.run (checkOverwrites back one)).1.toOption = some () ∧
      (start.run (writePages back .bundled one)).1.toOption =
        some ⟨[.skipped ⟨"x/../pages/a/index.tsx"⟩]⟩ := by
  intro here entry planned both pagesRoot setUp linked one back setUp' start
  exact ⟨⟨by decide +kernel, by decide +kernel, by decide +kernel, by decide +kernel,
    by decide +kernel⟩, by decide +kernel, by decide +kernel, by decide +kernel,
    by decide +kernel, by decide +kernel⟩

end RoutePages
