import RoutePages.Proofs.Disk.Plain
import RoutePages.Proofs.Page.Written

/-!
# Histories of written pages

Writing pages makes directories and deals with one file after the other. A history keeps these
files in their order, each with what became of it. What is on the disk in the end was there before,
or it comes from one of the steps.
-/
namespace RoutePages

open World Disk

/-- A file of a planned page. -/
structure Target where
  plan : PagePlan
  file : PageFile

/-- The files that a plan asks for: a component, and a service where one is planned. -/
def PagePlan.targets (plan : PagePlan) : List Target :=
  ⟨plan, .component⟩ :: if plan.service then [⟨plan, .service⟩] else []

theorem PagePlan.targets_eq (plan : PagePlan) : plan.targets = plan.files.map (Target.mk plan) := by
  unfold targets files
  split <;> rfl

/-- The path of a file, whatever became of it. -/
def FileOutcome.path : FileOutcome → FilePath
  | written path => path
  | skipped path => path

namespace Target

/-- The files that plans ask for, in order. -/
def all (plans : List PagePlan) : List Target := plans.flatMap PagePlan.targets

theorem mem_all {plans : List PagePlan} {g : Target} :
    g ∈ all plans ↔ g.plan ∈ plans ∧ g.file ∈ g.plan.files := by
  obtain ⟨plan, f⟩ := g
  simp only [all, PagePlan.targets_eq, List.mem_flatMap, List.mem_map, Target.mk.injEq]
  constructor
  · rintro ⟨_, hplan, _, hf, rfl, rfl⟩
    exact ⟨hplan, hf⟩
  · rintro ⟨hplan, hf⟩
    exact ⟨plan, hplan, f, hf, rfl, rfl⟩

def path (g : Target) (pagesRoot : FilePath) : FilePath :=
  (g.plan.page.directory pagesRoot).join
    (match g.file with
      | .component => "index.tsx"
      | .service => "service.tsx")

theorem path_eq (g : Target) (pagesRoot : FilePath) :
    g.path pagesRoot = g.file.path g.plan pagesRoot := by
  obtain ⟨plan, f⟩ := g
  cases f <;> rfl

/-- The file as it is made from its template, that of a component by whether the page has a
table. -/
def bytes (t : Templates) (g : Target) : Bytes :=
  Utf8.encode (Templates.render
    (match g.file with
      | .component => if g.plan.table then t.table else t.blank
      | .service => t.service)
    g.plan.name g.plan.componentName)

theorem bytes_eq (t : Templates) (g : Target) :
    g.bytes t = Utf8.encode (g.file.text t g.plan) := by
  obtain ⟨plan, f⟩ := g
  cases f <;> rfl

theorem getLast?_path (g : Target) (pagesRoot : FilePath) :
    (g.path pagesRoot).text.getLast? ≠ some '/' := by
  rw [g.path_eq]
  exact g.file.getLast?_path g.plan pagesRoot

/-- Something is there at the path of the file. -/
def IsThere (pagesRoot : FilePath) (base : Location) (d : Disk) (g : Target) : Prop :=
  (d.kind? base (g.path pagesRoot)).isSome = true

/-- A file is passed over since something is there and its plan does not cover, or it is written. -/
inductive Dealt (pagesRoot : FilePath) (t : Templates) (base : Location) (g : Target) :
    Disk → FileOutcome → Disk → Prop
  | passed {d : Disk} (hthere : g.IsThere pagesRoot base d) (hcover : g.plan.cover ≠ some true) :
      Dealt pagesRoot t base g d (.skipped (g.path pagesRoot)) d
  | written {d d' : Disk} {place : Location} {number : Nat}
      (hcover : g.IsThere pagesRoot base d → g.plan.cover = some true)
      (hreaches : d.Reaches true (g.path pagesRoot) ((g.path pagesRoot).steps base) place)
      (hwritten : d.WrittenAt place number (g.bytes t) d') :
      Dealt pagesRoot t base g d (.written (g.path pagesRoot)) d'

variable {pagesRoot : FilePath} {t : Templates} {base : Location} {g : Target} {d d' : Disk}
  {outcome : FileOutcome}

namespace Dealt

theorem outcome_path (h : g.Dealt pagesRoot t base d outcome d') : outcome.path = g.path pagesRoot := by
  cases h <;> rfl

theorem keeps (h : g.Dealt pagesRoot t base d outcome d') : d.Keeps d' := by
  cases h with
  | passed _ _ => exact .refl d
  | written _ _ hwritten => exact hwritten.keeps

/-- The path of the file leads to something in the end. -/
theorem leads (h : g.Dealt pagesRoot t base d outcome d') :
    ∃ place, d'.place base (g.path pagesRoot) = .ok place := by
  cases h with
  | passed hthere _ => exact isSome_kind?_iff.1 hthere
  | written _ hreaches hwritten =>
    exact ⟨_, hwritten.leads (g.getLast?_path pagesRoot) hreaches⟩

end Dealt
end Target

/-- The steps of writing pages that have been made: directories, and files in their order. -/
inductive History (pagesRoot : FilePath) (t : Templates) (plans : List PagePlan) (base : Location)
    (d : Disk) : List (Target × FileOutcome) → Disk → Prop
  | start : History pagesRoot t plans base d [] d
  | made {done : List (Target × FileOutcome)} {d₁ d₂ : Disk} {place : Location} {plan : PagePlan}
      {q : FilePath} (h : History pagesRoot t plans base d done d₁) (hplan : plan ∈ plans)
      (hq : q ∈ plan.page.way pagesRoot) (hreaches : d₁.Reaches false q (q.steps base) place)
      (hmade : d₁.MadeAt place d₂) : History pagesRoot t plans base d done d₂
  | dealt {done : List (Target × FileOutcome)} {d₁ d₂ : Disk} {g : Target} {outcome : FileOutcome}
      (h : History pagesRoot t plans base d done d₁)
      (hdealt : g.Dealt pagesRoot t base d₁ outcome d₂) :
      History pagesRoot t plans base d (done ++ [(g, outcome)]) d₂

section Run

variable {pagesRoot : FilePath} {t : Templates} {plans : List PagePlan} {plan : PagePlan}
  {base : Location} {d : Disk} {done : List (Target × FileOutcome)} {w w' : World}

/-- A history goes on in a world. -/
def World.IsAt (pagesRoot : FilePath) (t : Templates) (plans : List PagePlan) (base : Location)
    (d : Disk) (done : List (Target × FileOutcome)) (w : World) : Prop :=
  w.workingDirectory = base ∧ History pagesRoot t plans base d done w.disk

theorem writePageFile_dealt {f : PageFile} {outcome : FileOutcome}
    (h : w.run (writePageFile pagesRoot t plan f) = (.ok outcome, w')) :
    w'.workingDirectory = w.workingDirectory ∧
      Target.Dealt pagesRoot t w.workingDirectory ⟨plan, f⟩ w.disk outcome w'.disk := by
  let g : Target := ⟨plan, f⟩
  have hpath : f.path plan pagesRoot = g.path pagesRoot := (g.path_eq pagesRoot).symm
  have hbytes : Utf8.encode (f.text t plan) = g.bytes t := (g.bytes_eq t).symm
  obtain ⟨hbase, ⟨rfl, hdisk, hthere, hcover⟩ | ⟨rfl, hcover, _, _, hreaches, hwritten⟩⟩ :=
    writePageFile_eq_ok h
  · rw [PageFile.IsThere, hpath] at hthere
    rw [hdisk, hpath]
    exact ⟨hbase, .passed hthere hcover⟩
  · rw [PageFile.IsThere, hpath] at hcover
    rw [hpath] at hreaches ⊢
    rw [hbytes] at hwritten
    exact ⟨hbase, .written hcover hreaches hwritten⟩

theorem writePage_history {outcomes : List FileOutcome} (hplan : plan ∈ plans)
    (hw : w.IsAt pagesRoot t plans base d done)
    (h : w.run (writePage pagesRoot t plan) = (.ok outcomes, w')) :
    w'.IsAt pagesRoot t plans base d (done ++ plan.targets.zip outcomes) ∧
      outcomes.length = plan.targets.length := by
  obtain ⟨_, w₁, hmade, hfiles⟩ := run_andThen_ok h
  -- making a directory goes on with any history
  let R (base : Location) (d₁ d₂ : Disk) : Prop :=
    History pagesRoot t plans base d done d₁ → History pagesRoot t plans base d done d₂
  have hR : IsChain R := ⟨fun _ _ => id, fun _ _ _ _ h h' => h' ∘ h⟩
  have hmake : ∀ q ∈ plan.page.way pagesRoot, ∀ d₁ base d₂,
      Disk.makeDirectory d₁ base q = .ok d₂ → R base d₁ d₂ := by
    intro q hq d₁ base d₂ hmake hhistory
    obtain ⟨place, hreaches, hmade⟩ := makeDirectory_eq_ok hmake
    exact hhistory.made hplan hq hreaches hmade
  obtain ⟨hbase, hhistory⟩ :=
    (Changes.orFail hR (Changes.makeDirectories hR hmake) _).of_run hmade
  obtain ⟨rfl, hstart⟩ := hw
  let P (pairs : List (PageFile × FileOutcome)) (w₁ : World) : Prop :=
    w₁.IsAt pagesRoot t plans w.workingDirectory d (done ++ pairs.map (Prod.map (Target.mk plan) id))
  have hbegun : P [] w₁ := ⟨hbase, (List.append_nil done).symm ▸ hhistory hstart⟩
  have hend := run_mapM_zip (P := P) (fun f _ pairs w₁ outcome w₂ ⟨hbase₁, hhistory₁⟩ hfile => by
    obtain ⟨hbase₂, hdealt⟩ := writePageFile_dealt hfile
    refine ⟨hbase₂.trans hbase₁, ?_⟩
    rw [List.map_append, ← List.append_assoc]
    exact hhistory₁.dealt (hbase₁ ▸ hdealt)) hbegun hfiles
  rw [PagePlan.targets_eq, List.zip_map_left]
  exact ⟨hend, (length_of_run_mapM hfiles).trans (List.length_map _).symm⟩

/-- A run that writes pages has a history of all targets, with the outcomes that it reports. -/
theorem writePages_history {report : WriteReport}
    (h : w.run (writePages pagesRoot t plans) = (.ok report, w')) :
    w'.workingDirectory = w.workingDirectory ∧ ∃ done,
      History pagesRoot t plans w.workingDirectory w.disk done w'.disk ∧
      done.map Prod.fst = Target.all plans ∧ done.map Prod.snd = report.outcomes := by
  obtain ⟨rows, w₁, hrows, hlast⟩ := run_andThen_ok h
  cases hlast
  let P (pairs : List (PagePlan × List FileOutcome)) (w₁ : World) : Prop :=
    ∃ done, w₁.IsAt pagesRoot t plans w.workingDirectory w.disk done ∧
      done.map Prod.fst = Target.all (pairs.map Prod.fst) ∧
      done.map Prod.snd = (pairs.map Prod.snd).flatten
  have hstep : ∀ plan ∈ plans, ∀ pairs w₁ row w₂, P pairs w₁ →
      w₁.run (writePage pagesRoot t plan) = (.ok row, w₂) → P (pairs ++ [(plan, row)]) w₂ := by
    rintro plan hplan pairs w₁ row w₂ ⟨done, hat, htargets, houtcomes⟩ hpage
    obtain ⟨hat', hlength⟩ := writePage_history hplan hat hpage
    refine ⟨_, hat', ?_, ?_⟩
    · rw [List.map_append, htargets, List.map_fst_zip (Nat.le_of_eq hlength.symm), List.map_append,
        Target.all, Target.all, List.flatMap_append]
      exact congrArg _ (List.flatMap_singleton _ _).symm
    · rw [List.map_append, houtcomes, List.map_snd_zip (Nat.le_of_eq hlength), List.map_append,
        List.flatten_append]
      exact congrArg _ (List.append_nil _).symm
  have hbegun : P [] w := ⟨[], ⟨rfl, .start⟩, rfl, rfl⟩
  obtain ⟨done, ⟨hbase, hhistory⟩, htargets, houtcomes⟩ := run_mapM_zip hstep hbegun hrows
  have hlength := length_of_run_mapM hrows
  refine ⟨hbase, done, hhistory, ?_, ?_⟩
  · rw [htargets, List.nil_append, List.map_fst_zip (Nat.le_of_eq hlength.symm)]
  · rw [houtcomes, List.nil_append, List.map_snd_zip (Nat.le_of_eq hlength)]

end Run

namespace History

variable {pagesRoot : FilePath} {t : Templates} {plans : List PagePlan} {base place : Location}
  {d d' : Disk} {done : List (Target × FileOutcome)} {g : Target} {outcome : FileOutcome}

theorem keeps (h : History pagesRoot t plans base d done d') : d.Keeps d' := by
  induction h with
  | start => exact .refl d
  | made _ _ _ _ hmade ih => exact ih.trans hmade.keeps
  | dealt _ hdealt ih => exact ih.trans hdealt.keeps

/-- Each outcome is about the path of its target. -/
theorem paths (h : History pagesRoot t plans base d done d') :
    done.map (fun pair => pair.2.path) = done.map fun pair => pair.1.path pagesRoot := by
  induction h with
  | start => rfl
  | made _ _ _ _ _ ih => exact ih
  | dealt _ hdealt ih =>
    rw [List.map_append, List.map_append, ih, List.map_singleton, List.map_singleton,
      hdealt.outcome_path]

/-- The path of a target that has been dealt with leads to something. -/
theorem leads (h : History pagesRoot t plans base d done d') (hg : (g, outcome) ∈ done) :
    ∃ place, d'.place base (g.path pagesRoot) = .ok place := by
  induction h with
  | start => cases hg
  | made _ _ _ _ hmade ih =>
    obtain ⟨place, hplace⟩ := ih hg
    exact ⟨place, hmade.keeps.leads hplace⟩
  | dealt _ hdealt ih =>
    rcases List.mem_append.1 hg with hg | hlast
    · obtain ⟨place, hplace⟩ := ih hg
      exact ⟨place, hdealt.keeps.leads hplace⟩
    · cases List.mem_singleton.1 hlast
      exact hdealt.leads

/-- What stands at a place that was free before: a directory that was made for a page, or a new
file that was written. -/
inductive Placed (pagesRoot : FilePath) (plans : List PagePlan) (base : Location) (old : Disk)
    (done : List (Target × FileOutcome)) (d : Disk) (place : Location) : Item → Prop
  | directory {plan : PagePlan} {q : FilePath} (hplan : plan ∈ plans)
      (hq : q ∈ plan.page.way pagesRoot) (hleads : d.place base q = .ok place) :
      Placed pagesRoot plans base old done d place .directory
  | file {g : Target} {number : Nat} (hg : (g, .written (g.path pagesRoot)) ∈ done)
      (hnew : old.contents.length ≤ number) (hleads : d.place base (g.path pagesRoot) = .ok place) :
      Placed pagesRoot plans base old done d place (.file number)

theorem Placed.keeps {old : Disk} {item : Item}
    (h : Placed pagesRoot plans base old done d place item) (hkeeps : d.Keeps d')
    (more : List (Target × FileOutcome)) :
    Placed pagesRoot plans base old (done ++ more) d' place item := by
  cases h with
  | directory hplan hq hleads => exact .directory hplan hq (hkeeps.leads hleads)
  | file hg hnew hleads => exact .file (List.mem_append_left _ hg) hnew (hkeeps.leads hleads)

/-- What is there in the end was there before, or its place was free and a step has put it there. -/
theorem origin (h : History pagesRoot t plans base d done d') {item : Item}
    (hitem : d'.item? place = some item) :
    d.item? place = some item ∨
      d.item? place = none ∧ Placed pagesRoot plans base d done d' place item := by
  induction h with
  | start => exact .inl hitem
  | @made done d₁ d₂ here plan q h hplan hq hreaches hmade ih =>
    by_cases hhere : place = here
    · subst hhere
      cases hmade.item.symm.trans hitem
      refine .inr ⟨?_, .directory hplan hq (hmade.leads hreaches)⟩
      cases hold : d.item? place with
      | none => rfl
      | some other => cases hmade.before.symm.trans (h.keeps.item hold)
    · rw [hmade.other place hhere] at hitem
      refine (ih hitem).imp id (And.imp id fun hplaced => ?_)
      have hnext := hplaced.keeps hmade.keeps []
      rwa [List.append_nil] at hnext
  | @dealt done d₁ d₂ g outcome h hdealt ih =>
    cases hdealt with
    | passed _ _ => exact (ih hitem).imp id (And.imp id fun hplaced => hplaced.keeps (.refl _) _)
    | @written _ here number hcover hreaches hwritten =>
      have hbefore : d₁.item? place = some item → d.item? place = some item ∨
          d.item? place = none ∧ Placed pagesRoot plans base d
            (done ++ [(g, .written (g.path pagesRoot))]) d₂ place item :=
        fun hbefore => (ih hbefore).imp id (And.imp id fun hplaced => hplaced.keeps hwritten.keeps _)
      by_cases hhere : place = here
      · subst hhere
        rcases hwritten.before with ⟨hnone, rfl⟩ | hfile
        · cases hwritten.item.symm.trans hitem
          refine .inr ⟨?_, .file (List.mem_append_right _ List.mem_cons_self) h.keeps.length
            (hwritten.leads (g.getLast?_path pagesRoot) hreaches)⟩
          cases hold : d.item? place with
          | none => rfl
          | some other => cases hnone.symm.trans (h.keeps.item hold)
        · exact hbefore ((hfile.trans hwritten.item.symm).trans hitem)
      · rw [hwritten.other place hhere] at hitem
        exact hbefore hitem

/-- A history up to one of its targets, and what follows. -/
theorem split {before after : List (Target × FileOutcome)}
    (h : History pagesRoot t plans base d (before ++ (g, outcome) :: after) d') :
    ∃ d₁ d₂, History pagesRoot t plans base d before d₁ ∧
      g.Dealt pagesRoot t base d₁ outcome d₂ ∧ d₂.Keeps d' := by
  generalize hdone : before ++ (g, outcome) :: after = done at h
  induction h generalizing after with
  | start => exact absurd hdone (by simp)
  | made _ _ _ _ hmade ih =>
    obtain ⟨d₁, d₂, hbefore, hdealt, hkeeps⟩ := ih hdone
    exact ⟨d₁, d₂, hbefore, hdealt, hkeeps.trans hmade.keeps⟩
  | dealt hhistory hlast ih =>
    rcases List.eq_nil_or_concat after with rfl | ⟨front, last, rfl⟩
    · obtain ⟨rfl, hpair⟩ := List.append_inj' hdone rfl
      cases hpair
      exact ⟨_, _, hhistory, hlast, .refl _⟩
    · rw [List.concat_eq_append, ← List.cons_append, ← List.append_assoc] at hdone
      obtain ⟨d₁, d₂, hbefore, hdealt, hkeeps⟩ := ih (List.append_inj' hdone rfl).1
      exact ⟨d₁, d₂, hbefore, hdealt, hkeeps.trans hlast.keeps⟩

/-- A disk without links stays one. -/
theorem plain (h : History pagesRoot t plans base d done d') (hplain : d.IsPlain) : d'.IsPlain := by
  induction h with
  | start => exact hplain
  | made _ _ _ _ hmade ih => exact (ih.madeAt hmade).1
  | dealt _ hdealt ih =>
    cases hdealt with
    | passed _ _ => exact ih
    | written _ _ hwritten => exact (ih.writtenAt hwritten).1

end History
end RoutePages
