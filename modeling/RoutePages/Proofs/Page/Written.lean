import RoutePages.Page.Write
import RoutePages.Proofs.Host.Effect
import RoutePages.Proofs.Page.Places

/-!
# What writing pages changes

Writing pages changes what lies below the root of the pages, and makes directories that lead
there. Whatever was there stays there, so a page that has been written is not lost to a later
one.
-/
namespace RoutePages

open World Disk

namespace Disk

/-- The same thing stands at both places: they are one, or the same file has both. -/
def SameAt (d : Disk) (place other : Location) : Prop :=
  place = other ∨ ∃ number, d.item? place = some (.file number) ∧ d.item? other = some (.file number)

/-- A path leads to what stands at a place. -/
def LeadsTo (d : Disk) (base : Location) (p : FilePath) (place : Location) : Prop :=
  ∃ last, d.place base p = .ok last ∧ d.SameAt last place

/-- A disk changes below a path only, but for new directories above it. -/
structure GrowsBelow (root : FilePath) (base : Location) (d d' : Disk) : Prop where
  keeps : d.Keeps d'
  changed : ∀ place, d'.get? place = d.get? place ∨
    (∃ p names, root.Continues p names ∧ d'.LeadsTo base p place) ∨
    ∃ p names, p.Continues root names ∧ d'.place base p = .ok place ∧
      d.item? place = none ∧ d'.item? place = some .directory

variable {root p : FilePath} {base here : Location} {names : List Text} {d d' : Disk}

theorem Keeps.leadsTo (h : d.Keeps d') (hleads : d.LeadsTo base p here) : d'.LeadsTo base p here := by
  obtain ⟨last, hlast, hsame⟩ := hleads
  refine ⟨last, h.leads hlast, hsame.imp id ?_⟩
  rintro ⟨number, hfile, hother⟩
  exact ⟨number, h.item hfile, h.item hother⟩

theorem growsBelow_isChain (root : FilePath) : IsChain (GrowsBelow root) where
  refl base d := ⟨.refl d, fun place => .inl rfl⟩
  trans base d₁ d₂ d₃ h h' := by
    refine ⟨h.keeps.trans h'.keeps, fun place => ?_⟩
    rcases h'.changed place with hsame' | hbelow | ⟨p, names, hp, hleads, hnone, hnew⟩
    · rcases h.changed place with
        hsame | ⟨p, names, hp, hleads⟩ | ⟨p, names, hp, hleads, hnone, hnew⟩
      · exact .inl (hsame'.trans hsame)
      · exact .inr (.inl ⟨p, names, hp, h'.keeps.leadsTo hleads⟩)
      · exact .inr (.inr ⟨p, names, hp, h'.keeps.leads hleads, hnone, h'.keeps.item hnew⟩)
    · exact .inr (.inl hbelow)
    · refine .inr (.inr ⟨p, names, hp, hleads, ?_, hnew⟩)
      cases hold : d₁.item? place with
      | none => rfl
      | some item => cases hnone.symm.trans (h.keeps.item hold)

theorem write_growsBelow {content : Bytes} (hp : root.Continues p names)
    (hslash : p.text.getLast? ≠ some '/') (h : d.write base p content = .ok d') :
    GrowsBelow root base d d' := by
  obtain ⟨last, number, hreaches, hwritten⟩ := write_eq_ok h
  refine ⟨hwritten.keeps, fun place => ?_⟩
  by_cases hfile : d'.item? place = some (.file number)
  · exact .inr (.inl ⟨p, names, hp, last, hwritten.leads hslash hreaches,
      .inr ⟨number, hwritten.item, hfile⟩⟩)
  · exact .inl (hwritten.get?_other hfile)

theorem makeDirectory_growsBelow
    (hp : (∃ names, p.Continues root names) ∨ ∃ names, root.Continues p names)
    (h : d.makeDirectory base p = .ok d') : GrowsBelow root base d d' := by
  obtain ⟨last, hreaches, hmade⟩ := makeDirectory_eq_ok h
  have hleads := hmade.leads hreaches
  refine ⟨hmade.keeps, fun place => ?_⟩
  by_cases hplace : place = last
  · subst hplace
    rcases hp with ⟨names, hp⟩ | ⟨names, hp⟩
    · exact .inr (.inr ⟨p, names, hp, hleads, hmade.before, hmade.item⟩)
    · exact .inr (.inl ⟨p, names, hp, place, hleads, .inl rfl⟩)
  · exact .inl (hmade.get?_other hplace)

theorem keeps_isChain : IsChain fun _ d d' => d.Keeps d' :=
  ⟨fun _ d => .refl d, fun _ _ _ _ h h' => h.trans h'⟩

theorem write_keeps {content : Bytes} (h : d.write base p content = .ok d') : d.Keeps d' := by
  obtain ⟨_, _, -, hwritten⟩ := write_eq_ok h
  exact hwritten.keeps

end Disk

open Disk

/-- Something is there at the path of a file of a page. -/
def PageFile.IsThere (pagesRoot : FilePath) (plan : PagePlan) (f : PageFile) (base : Location)
    (d : Disk) : Prop :=
  (d.kind? base (f.path plan pagesRoot)).isSome = true

theorem PageFile.IsThere.keeps {pagesRoot : FilePath} {plan : PagePlan} {f : PageFile}
    {base : Location} {d d' : Disk} (h : f.IsThere pagesRoot plan base d) (hkeeps : d.Keeps d') :
    f.IsThere pagesRoot plan base d' := by
  obtain ⟨kind, hkind⟩ := Option.isSome_iff_exists.1 h
  exact Option.isSome_iff_exists.2 ⟨kind, hkeeps.kind? hkind⟩

/-- The planned pages are there: each has a component, and a service where one is planned. -/
def AllThere (pagesRoot : FilePath) (plans : List PagePlan) (base : Location) (d : Disk) : Prop :=
  ∀ plan ∈ plans,
    (d.kind? base ((plan.page.directory pagesRoot).join "index.tsx")).isSome = true ∧
    (plan.service = true →
      (d.kind? base ((plan.page.directory pagesRoot).join "service.tsx")).isSome = true)

theorem allThere_iff {pagesRoot : FilePath} {plans : List PagePlan} {base : Location} {d : Disk} :
    AllThere pagesRoot plans base d ↔
      ∀ plan ∈ plans, ∀ f ∈ plan.files, f.IsThere pagesRoot plan base d := by
  refine forall₂_congr fun plan _ => ?_
  unfold PagePlan.files
  split
  · rename_i hservice
    rw [List.forall_mem_cons, List.forall_mem_singleton]
    exact and_congr_right fun _ => ⟨fun h => h hservice, fun h _ => h⟩
  · rename_i hservice
    rw [List.forall_mem_singleton]
    exact and_iff_left fun h => absurd h hservice

theorem AllThere.keeps {pagesRoot : FilePath} {plans : List PagePlan} {base : Location}
    {d d' : Disk} (h : AllThere pagesRoot plans base d) (hkeeps : d.Keeps d') :
    AllThere pagesRoot plans base d' :=
  allThere_iff.2 fun plan hplan f hf => (allThere_iff.1 h plan hplan f hf).keeps hkeeps

/-- The directories that are made for a page, if they are missing. -/
def PagePath.way (p : PagePath) (pagesRoot : FilePath) : List FilePath :=
  p.directory pagesRoot :: (p.directory pagesRoot).above

section Changes

variable {R : Location → Disk → Disk → Prop} {pagesRoot : FilePath} {t : Templates}

theorem writePageFile_changes (hR : IsChain R) {plan : PagePlan} {f : PageFile}
    (hwrite : ∀ content d base d', Disk.write d base (f.path plan pagesRoot) content = .ok d' →
      R base d d') :
    Changes R (writePageFile (m := StateM World) pagesRoot t plan f).run := by
  unfold writePageFile
  refine Changes.andThen hR (Changes.lift (Changes.exists? hR _)) fun found => ?_
  split
  · exact Changes.andThen hR (Changes.reported hR _) fun _ => Changes.succeed hR _
  · exact Changes.andThen hR (Changes.reported hR _) fun _ =>
      Changes.andThen hR (Changes.orFail hR (Changes.change hR (hwrite _)) _) fun _ =>
      Changes.andThen hR (Changes.reported hR _) fun _ => Changes.succeed hR _

theorem writePage_changes (hR : IsChain R) {plan : PagePlan}
    (hwrite : ∀ (f : PageFile) content d base d',
      Disk.write d base (f.path plan pagesRoot) content = .ok d' → R base d d')
    (hmake : ∀ q ∈ plan.page.way pagesRoot, ∀ d base d', Disk.makeDirectory d base q = .ok d' →
      R base d d') :
    Changes R (writePage (m := StateM World) pagesRoot t plan).run :=
  Changes.andThen hR (Changes.orFail hR (Changes.makeDirectories hR hmake) _) fun _ =>
    Changes.mapM hR fun f _ => writePageFile_changes hR (hwrite f)

theorem writePages_changes (hR : IsChain R) {plans : List PagePlan}
    (hwrite : ∀ plan f content d base d',
      Disk.write d base (PageFile.path f plan pagesRoot) content = .ok d' → R base d d')
    (hmake : ∀ (plan : PagePlan), ∀ q ∈ plan.page.way pagesRoot, ∀ d base d',
      Disk.makeDirectory d base q = .ok d' → R base d d') :
    Changes R (writePages (m := StateM World) pagesRoot t plans).run :=
  Changes.andThen hR (Changes.mapM hR fun plan _ => writePage_changes hR (hwrite plan) (hmake plan))
    fun _ => Changes.succeed hR _

end Changes

section

variable (pagesRoot : FilePath) (t : Templates) (plan : PagePlan)

theorem writePageFile_keeps (f : PageFile) : Changes (fun _ d d' => d.Keeps d')
    (writePageFile (m := StateM World) pagesRoot t plan f).run :=
  writePageFile_changes keeps_isChain fun _ _ _ _ => write_keeps

theorem writePage_keeps : Changes (fun _ d d' => d.Keeps d')
    (writePage (m := StateM World) pagesRoot t plan).run :=
  writePage_changes keeps_isChain (fun _ _ _ _ _ => write_keeps) fun _ _ _ _ _ => makeDirectory_keeps

theorem writePages_keeps (plans : List PagePlan) : Changes (fun _ d d' => d.Keeps d')
    (writePages (m := StateM World) pagesRoot t plans).run :=
  writePages_changes keeps_isChain (fun _ _ _ _ _ _ => write_keeps)
    fun _ _ _ _ _ _ => makeDirectory_keeps

/-- Below a clean root, writing pages makes directories above it and changes what is below it. -/
theorem writePages_growsBelow (hroot : pagesRoot.IsClean) (plans : List PagePlan) :
    Changes (GrowsBelow pagesRoot) (writePages (m := StateM World) pagesRoot t plans).run := by
  refine writePages_changes (growsBelow_isChain pagesRoot)
    (fun plan f _ _ _ _ h => write_growsBelow (f.continues_path plan pagesRoot)
      (f.getLast?_path plan pagesRoot) h)
    fun plan q hq _ _ _ h => makeDirectory_growsBelow ?_ h
  have hdir := plan.page.continues_directory pagesRoot
  rcases List.mem_cons.1 hq with rfl | hq
  · exact .inr ⟨_, hdir⟩
  · obtain ⟨names, hnames⟩ := (hroot.continues hdir).continues_of_mem_above hq
    exact hdir.comparable hnames

end

section Run

variable {pagesRoot : FilePath} {t : Templates} {plan : PagePlan} {w w' : World}

/-- A file is passed over since something is there and the plan does not cover, or it is written. -/
theorem writePageFile_eq_ok {f : PageFile} {outcome : FileOutcome}
    (h : w.run (writePageFile pagesRoot t plan f) = (.ok outcome, w')) :
    w'.workingDirectory = w.workingDirectory ∧
      (outcome = .skipped (f.path plan pagesRoot) ∧ w'.disk = w.disk ∧
          f.IsThere pagesRoot plan w.workingDirectory w.disk ∧ plan.cover ≠ some true ∨
        outcome = .written (f.path plan pagesRoot) ∧
          (f.IsThere pagesRoot plan w.workingDirectory w.disk → plan.cover = some true) ∧
          ∃ place number, w.disk.Reaches true (f.path plan pagesRoot)
              ((f.path plan pagesRoot).steps w.workingDirectory) place ∧
            w.disk.WrittenAt place number (Utf8.encode (f.text t plan)) w'.disk) := by
  obtain ⟨found, w₁, hfound, h⟩ := run_andThen_ok h
  cases hfound
  split at h
  · rename_i hskip
    obtain ⟨hthere, hcover⟩ := Bool.and_eq_true_iff.1 hskip
    obtain ⟨_, w₂, hevent, hlast⟩ := run_andThen_ok h
    cases hevent
    cases hlast
    exact ⟨rfl, .inl ⟨rfl, rfl, hthere, bne_iff_ne.1 hcover⟩⟩
  · rename_i hwrite
    obtain ⟨_, w₂, hevent, h⟩ := run_andThen_ok h
    obtain ⟨_, w₃, hwritten, h⟩ := run_andThen_ok h
    obtain ⟨_, w₄, hevent', hlast⟩ := run_andThen_ok h
    cases hevent
    cases hevent'
    cases hlast
    have hcovers : f.IsThere pagesRoot plan w.workingDirectory w.disk → plan.cover = some true :=
      fun hthere => Decidable.not_not.1 fun hcover =>
        hwrite (Bool.and_eq_true_iff.2 ⟨hthere, bne_iff_ne.2 hcover⟩)
    obtain ⟨hbase, ⟨⟨e, he⟩, -⟩ | ⟨-, hstep⟩⟩ := run_change
      (Disk.write · · (f.path plan pagesRoot) (Utf8.encode (f.text t plan))) hwritten
    · cases he
    · exact ⟨hbase, .inr ⟨rfl, hcovers, write_eq_ok hstep⟩⟩

/-- A file that is written, or passed over since something is there, is there afterwards. -/
theorem writePageFile_leaves (f : PageFile) :
    Leaves (f.IsThere pagesRoot plan) (writePageFile pagesRoot t plan f) := by
  intro w outcome w' h
  obtain ⟨hbase, ⟨-, hdisk, hthere, -⟩ | ⟨-, -, place, number, hreaches, hwritten⟩⟩ :=
    writePageFile_eq_ok h
  · rw [hbase, hdisk]
    exact hthere
  · rw [hbase]
    exact isSome_kind?_iff.2 ⟨place, hwritten.leads (f.getLast?_path plan pagesRoot) hreaches⟩

theorem isThere_isKept (f : PageFile) :
    IsKept (fun _ d d' => d.Keeps d') (f.IsThere pagesRoot plan) :=
  fun _ _ _ hthere hkeeps => hthere.keeps hkeeps

theorem writePages_leaves (plans : List PagePlan) :
    Leaves (AllThere pagesRoot plans) (writePages pagesRoot t plans) := by
  have hkept : ∀ plan : PagePlan, IsKept (fun _ d d' => d.Keeps d')
      fun base d => ∀ f ∈ plan.files, f.IsThere pagesRoot plan base d :=
    fun plan base d d' hthere hkeeps f hf => (hthere f hf).keeps hkeeps
  have hall : IsKept (fun _ d d' => d.Keeps d') (AllThere pagesRoot plans) :=
    fun base d d' hthere hkeeps => hthere.keeps hkeeps
  have hpage : ∀ plan : PagePlan, Leaves
      (fun base d => ∀ f ∈ plan.files, f.IsThere pagesRoot plan base d)
      (writePage pagesRoot t plan) := fun plan =>
    Leaves.last fun _ => Leaves.mapM keeps_isChain (fun f => isThere_isKept f)
      (fun f _ => writePageFile_keeps pagesRoot t plan f) fun f _ => writePageFile_leaves f
  refine Leaves.andThen hall (fun w rows w' h => allThere_iff.2 ?_)
    fun _ => Changes.succeed keeps_isChain _
  exact Leaves.mapM keeps_isChain hkept (fun plan _ => writePage_keeps pagesRoot t plan)
    (fun plan _ => hpage plan) w rows w' h

end Run
end RoutePages
