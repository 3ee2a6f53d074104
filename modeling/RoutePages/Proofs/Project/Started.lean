import RoutePages.Proofs.Project.Walk

/-!
# Projects that were started

A project is started by a walk through the template, and by giving the file `.ignore` of the
target its proper name. What a walk looks into makes no difference to the world.
-/
namespace RoutePages

open World Disk

variable {template target : FilePath} {title : Text} {force : Bool}

/-! ## On journeys -/

theorem mirrors_copyFile (target : FilePath) (title : Text) (met : Met) :
    Journey.Mirrors (copyFile (m := StateM Journey) target title met).run
      (copyFile (m := StateM World) target title met).run :=
  .andThen (.orFail (.visit _ _) _) fun _ => .andThen (.orFail (.within _) _) fun _ =>
    .andThen (.lift (.within _)) fun _ => .succeed _

theorem mirrors_copyTree (target : FilePath) (title : Text) (room : Nat) (met : Met) :
    Journey.Mirrors (copyTree (m := StateM Journey) target title room met).run
      (copyTree (m := StateM World) target title room met).run := by
  induction room generalizing met with
  | zero => exact .throw _
  | succ room ih =>
    unfold copyTree
    cases met.kind with
    | file => exact mirrors_copyFile target title met
    | directory =>
      refine .andThen (.lift (.visit _ _)) fun listed => .andThen (.orFail ?_ _) fun _ => ?_
      · rw [Journey.within_makeDirectories]
        exact .within _
      · cases listed with
        | error fault => exact .throw _
        | ok entries =>
          exact .andThen (.mapM fun child _ => ih (met.child child.1 child.2)) fun _ => .succeed _

theorem mirrors_unhide (target : FilePath) (copies : List FilePath) :
    Journey.Mirrors (unhide (m := StateM Journey) target copies).run
      (unhide (m := StateM World) target copies).run := by
  refine .andThen (.lift (.isFile _)) fun isFile => ?_
  cases isFile with
  | true => exact .andThen (.orFail (.within _) _) fun _ => .succeed _
  | false => exact .succeed _

theorem mirrors_startProject (template target : FilePath) (title : Text) (force : Bool) :
    Journey.Mirrors (startProject (m := StateM Journey) template target title force).run
      (startProject (m := StateM World) template target title force).run := by
  have hwalk := Journey.Mirrors.andThen
    (.lift (.within (Host.isLink template))) fun isLink => .andThen (mirrors_copyTree target title
      deepest ⟨template, [], if isLink = true then .file else .directory⟩) (mirrors_unhide target)
  have htarget := Journey.Mirrors.andThen (.lift (.exists? target)) fun found =>
    Journey.Mirrors.refuse (found && !force) (InitError.targetExists target) hwalk
  exact .andThen (.lift (.isDirectory template)) fun isDirectory =>
    .refuse (!isDirectory) (InitError.templateMissing template) htarget

/-! ## What a start does -/

/-- Starting a project is refused, and nothing happens, or it copies the template. -/
theorem startProject_cases {j j' : Journey} {result : Except InitError (List FilePath)}
    (hplain : j.world.disk.IsPlain)
    (h : j.run (startProject template target title force) = (result, j')) :
    ((∃ e, result = .error e) ∧ j' = j) ∨
      j.world.disk.kind? j.world.workingDirectory template = some .directory ∧
        (j.world.disk.kind? j.world.workingDirectory target = none ∨ force = true) ∧
        j.run (copyTree target title deepest ⟨template, [], .directory⟩ >>= unhide target) =
          (result, j') := by
  rcases Journey.run_andThen h with ⟨e, hkind, -⟩ | ⟨isDirectory, j₁, hkind, h⟩
  · cases congrArg Prod.fst hkind
  cases hkind
  rcases Journey.run_refuse h with ⟨-, rfl, rfl⟩ | ⟨htemplate, h⟩
  · exact .inl ⟨⟨_, rfl⟩, rfl⟩
  rcases Journey.run_andThen h with ⟨e, hfound, -⟩ | ⟨found, j₂, hfound, h⟩
  · cases congrArg Prod.fst hfound
  cases hfound
  rcases Journey.run_refuse h with ⟨-, rfl, rfl⟩ | ⟨htarget, h⟩
  · exact .inl ⟨⟨_, rfl⟩, rfl⟩
  rcases Journey.run_andThen h with ⟨e, hlink, -⟩ | ⟨isLink, j₃, hlink, h⟩
  · cases congrArg Prod.fst hlink
  cases hlink
  change j.run (copyTree target title deepest ⟨template, [],
    if j.world.disk.isLink j.world.workingDirectory template then .file else .directory⟩ >>=
      unhide target) = (result, j') at h
  rw [hplain.isLink, if_neg Bool.false_ne_true] at h
  refine .inr ⟨?_, ?_, h⟩
  · rw [Bool.not_eq_false'] at htemplate
    exact of_decide_eq_true htemplate
  · rw [Bool.and_eq_false_iff, Bool.not_eq_false'] at htarget
    refine htarget.imp (fun hmissing => ?_) id
    exact Option.not_isSome_iff_eq_none.1 (Bool.not_eq_true _ ▸ hmissing)

namespace Start

/-- A project is to be started in a world. -/
def within (w : World) (template target : FilePath) : Start :=
  ⟨w.disk, w.workingDirectory, template, target⟩

/-- The path at which a walk leaves the `.ignore` of a project. -/
def ignorePath (s : Start) : FilePath := s.copyPath [".ignore"]

/-- The path of the `.ignore` of a project under its proper name. -/
def properPath (s : Start) : FilePath := s.copyPath [".gitignore"]

theorem isFileName_ignore : ∀ name ∈ Text.texts [".ignore"], IsFileName name := by decide

theorem isFileName_proper : ∀ name ∈ Text.texts [".gitignore"], IsFileName name := by decide

theorem location_ignorePath (s : Start) : s.ignorePath.location s.base = s.copy [".ignore"] :=
  s.location_copyPath isFileName_ignore

theorem location_properPath (s : Start) : s.properPath.location s.base = s.copy [".gitignore"] :=
  s.location_copyPath isFileName_proper

/-- What a disk holds once the `.ignore` of a project has its proper name. -/
theorem get?_renamed {s : Start} {d d' : Disk} {content : Bytes}
    (h : d.Renamed s.base s.ignorePath s.properPath content d') (place : Location) :
    d'.get? place = if place = s.copy [".gitignore"] then some (.file content)
      else if place = s.copy [".ignore"] then none else d.get? place := by
  rw [h.get?, location_properPath, location_ignorePath]

/-- What becomes of a disk and of the paths of copies when `.ignore` gets its proper name. -/
inductive Unhidden (s : Start) (d : Disk) (copies : List FilePath) : Disk → List FilePath → Prop
  | none (hkind : d.kind? s.base s.ignorePath ≠ some .file) : Unhidden s d copies d copies
  | renamed {content : Bytes} {d' : Disk} (hkind : d.kind? s.base s.ignorePath = some .file)
      (hrenamed : d.Renamed s.base s.ignorePath s.properPath content d') :
      Unhidden s d copies d' (copies.map fun copy =>
        if copy.sameParts s.ignorePath then s.properPath else copy)

variable {s : Start}

theorem unhide_cases {copies : List FilePath} {j j' : Journey}
    {result : Except InitError (List FilePath)} (hplain : j.world.disk.IsPlain)
    (hbase : j.world.workingDirectory = s.base)
    (h : j.run (unhide s.target copies) = (result, j')) :
    j'.visited = j.visited ∧ j'.world.workingDirectory = s.base ∧ ∀ created, result = .ok created →
      s.Unhidden j.world.disk copies j'.world.disk created := by
  rcases Journey.run_andThen h with ⟨e, hkind, -⟩ | ⟨isFile, j₁, hkind, h⟩
  · cases congrArg Prod.fst hkind
  cases hkind
  split at h
  · rename_i hfile
    have hkind : j.world.disk.kind? s.base s.ignorePath = some .file :=
      hbase ▸ of_decide_eq_true hfile
    let step : Disk → Location → Except Fault Disk := (Disk.rename · · s.ignorePath s.properPath)
    rcases Journey.run_andThen h with ⟨e, hrename, rfl⟩ | ⟨_, j₂, hrename, hlast⟩
    · obtain ⟨hvisited, hbase', -⟩ := Journey.run_change step hrename
      exact ⟨hvisited, hbase'.trans hbase, nofun⟩
    · obtain ⟨hvisited, hbase', ⟨⟨e, ⟨⟩⟩, -⟩ | ⟨-, hstep⟩⟩ := Journey.run_change step hrename
      cases hlast
      refine ⟨hvisited, hbase'.trans hbase, fun created hcreated => ?_⟩
      cases hcreated
      obtain ⟨content, hrenamed⟩ := hplain.renamed hstep
      exact .renamed hkind (hbase ▸ hrenamed)
  · rename_i hfile
    cases h
    refine ⟨rfl, hbase, fun created hcreated => ?_⟩
    cases hcreated
    exact .none (hbase ▸ fun hkind => hfile (decide_eq_true hkind))

/-- Starting a project in a clear place is refused, or it walks through the template, and the
`.ignore` of the project gets its proper name. -/
theorem startProject_walks {w : World} {j' : Journey}
    {result : Except InitError (List FilePath)} (hplain : w.disk.IsPlain)
    (hclear : (within w template target).IsClear)
    (h : (Journey.mk w []).run (startProject template target title force) = (result, j')) :
    ((∃ e, result = .error e) ∧ j' = ⟨w, []⟩) ∨
      (within w template target).IsProper ∧
        ∃ walked j₁, (within w template target).Walks title [[]] ⟨w, []⟩ j₁ walked ∧
          j'.visited = j₁.visited ∧ ∀ created, result = .ok created → ∃ copies,
            walked = .ok copies ∧ (within w template target).Unhidden j₁.world.disk copies
              j'.world.disk created ∧ j'.world.workingDirectory = w.workingDirectory := by
  rcases startProject_cases hplain h with hrefused | ⟨htemplate, -, h⟩
  · exact .inl hrefused
  have hroot : ((within w template target).held? []).map Node.kind = some .directory := by
    have hkind := (hplain.kind?_eq_some.1 htemplate).2
    rwa [← List.append_nil (template.location w.workingDirectory)] at hkind
  have hproper : (within w template target).IsProper :=
    ⟨hplain, Node.map_kind_eq_directory.1 hroot⟩
  have hunder : (within w template target).IsUnderWay [] ⟨w, []⟩ := ⟨rfl, .refl _⟩
  have hwalks := fun walked j₁ (hrun : (Journey.mk w []).run
      (copyTree target title deepest ⟨template, [], .directory⟩) = (walked, j₁)) =>
    copyTree_walks hproper hclear deepest ⟨rfl, hroot⟩ hunder (fun _ => rfl) hrun
  refine .inr ⟨hproper, ?_⟩
  rcases Journey.run_andThen h with ⟨e, hrun, rfl⟩ | ⟨copies, j₁, hrun, h⟩
  · exact ⟨_, _, hwalks _ _ hrun, rfl, nofun⟩
  · obtain ⟨seen, hmeets, hbelow, hall⟩ := hwalks _ _ hrun
    obtain ⟨hvisited, hbase, hunhidden⟩ := unhide_cases (hmeets.fills.plain hplain) hmeets.base h
    exact ⟨_, _, ⟨seen, hmeets, hbelow, hall⟩, hvisited, fun created hcreated =>
      ⟨copies, rfl, hunhidden created hcreated, hbase⟩⟩

/-- A disk on which the whole template has been copied. -/
structure Copies (s : Start) (title : Text) (files : List (List Text)) (d : Disk) : Prop where
  proper : s.IsProper
  fills : s.Fills (fun names => (s.held? names).isSome = true) s.disk d
  ordered : files.Pairwise (· < ·)
  complete : ∀ names, names ∈ files ↔ s.isFile names = true
  copied : ∀ names, (s.held? names).isSome = true → s.IsCopied title d names

/-- A project that was started in a clear place has a copy of the whole template, and its `.ignore`
has got its proper name. -/
theorem startProject_copies {w w' : World} {created : List FilePath} (hplain : w.disk.IsPlain)
    (hclear : (within w template target).IsClear)
    (h : w.run (startProject template target title force) = (.ok created, w')) :
    ∃ files d, (within w template target).Copies title files d ∧
      (within w template target).Unhidden d (files.map (within w template target).copyPath) w'.disk
        created ∧ w'.workingDirectory = w.workingDirectory := by
  have hworld := (mirrors_startProject template target title force).run ⟨w, []⟩
  rw [h] at hworld
  rcases hrun : (Journey.mk w []).run (startProject template target title force) with ⟨result, j'⟩
  rw [hrun] at hworld
  obtain ⟨rfl, rfl⟩ := Prod.mk.inj hworld
  rcases startProject_walks hplain hclear hrun with
    ⟨⟨e, ⟨⟩⟩, -⟩ | ⟨hproper, walked, j₁, ⟨seen, hmeets, -, hall⟩, -, hend⟩
  obtain ⟨copies, rfl, hunhidden, hbase⟩ := hend created rfl
  have hseen : ∀ names, ((within w template target).held? names).isSome = true → names ∈ seen :=
    fun names => hall copies rfl [] List.mem_cons_self names List.nil_prefix
  refine ⟨seen.filter (within w template target).isFile, j₁.world.disk, ⟨hproper,
    hmeets.fills.imp hmeets.present, hmeets.ordered.filter _, fun names => ?_, fun names hpresent =>
      hmeets.copied copies rfl names (hseen names hpresent)⟩, ?_, hbase⟩
  · rw [List.mem_filter]
    refine ⟨And.right, fun hfile => ⟨hseen names ?_, hfile⟩⟩
    obtain ⟨content, hentry⟩ := isFile_iff.1 hfile
    exact Option.isSome_of_mem hentry
  · rw [← hmeets.copies copies rfl]
    exact hunhidden

variable {files : List (List Text)} {d : Disk}

/-- Where the template has something under the name `.ignore`, and a file of that name is in the
project, it is a file of the template. -/
theorem Copies.isFile_ignore (h : s.Copies title files d)
    (hkind : d.kind? s.base s.ignorePath = some .file)
    (hpresent : (s.held? [".ignore"]).isSome = true) : s.isFile [".ignore"] = true := by
  obtain ⟨node, hnode⟩ := Option.isSome_iff_exists.1 hpresent
  cases node with
  | file content => exact isFile_iff.2 ⟨content, hnode⟩
  | directory =>
    have hnames := isFileName_of_isSome hpresent
    have htext := s.text_copyPath_ne_nil hnames (.inr (List.cons_ne_nil _ _))
    cases hkind.symm.trans ((h.copied _ hpresent).directory htext hnode)

end Start
end RoutePages
