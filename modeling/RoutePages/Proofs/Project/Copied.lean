import RoutePages.Proofs.Project.Started
import RoutePages.Proofs.Text.Replaced
import RoutePages.Proofs.Text.Utf8

/-!
# What a new project is

A project at a place where nothing was, apart from its template, is the template with the project's
name filled in. Its `.gitignore` is the `.ignore` of the template, if that has one. Nothing else
changes but that the directories above the project are made.
-/
namespace RoutePages

open World Disk

variable {template target : FilePath} {title : Text} {force : Bool}

/-! ## Copies of files -/

/-- In a text, every place where the name of a project goes is filled in. What is no text stays. -/
inductive Filled (title : Text) : Bytes → Bytes → Prop
  | text {before after : Text}
      (h : Text.PartlyReplaced projectName title (Text.occurrences projectName before) before after) :
      Filled title (Utf8.encode before) (Utf8.encode after)
  | bytes {content : Bytes} (h : ∀ text, content ≠ Utf8.encode text) : Filled title content content

theorem fillIn_filled (title : Text) (content : Bytes) :
    Filled title content (fillIn title content) := by
  unfold fillIn
  split
  · rename_i text htext
    rw [Utf8.decode?_eq_some_iff.1 htext]
    exact .text (Text.replace_partlyReplaced (by decide) title text)
  · rename_i hnone
    refine .bytes fun text htext => ?_
    rw [htext, Utf8.decode?_encode] at hnone
    cases hnone

/-- The copy of a directory is a directory, and the copy of a file is filled in. -/
inductive CopyOf (title : Text) : Option Node → Option Node → Prop
  | none : CopyOf title none none
  | directory : CopyOf title (some .directory) (some .directory)
  | file {content filled : Bytes} (h : Filled title content filled) :
      CopyOf title (some (.file content)) (some (.file filled))

namespace Start

/-- The names under which a project has the copy of a file. -/
def projectNames (names : List Text) : List Text :=
  if names = [(".ignore" : Text)] then [".gitignore"] else names

/-- What stands in a project under some names is a copy of this. -/
def origin? (s : Start) (names : List Text) : Option Node :=
  if s.isFile [".ignore"] = true then
    if names = [(".gitignore" : Text)] then s.held? [".ignore"]
    else if names = [(".ignore" : Text)] then none
    else s.held? names
  else s.held? names

/-- The project is the template, filled in, and nothing else has changed but that the directories
above the project have been made. -/
structure IsStarted (s : Start) (title : Text) (d : Disk) (created : List FilePath) : Prop where
  copies : ∀ names, CopyOf title (s.origin? names) (d.get? (s.copy names))
  made : ∃ files : List (List Text), files.Pairwise (· < ·) ∧
    (∀ names, names ∈ files ↔ s.isFile names = true) ∧
    created = files.map fun names => s.copyPath (projectNames names)
  present : ∀ path ∈ created, d.kind? s.base path = some .file
  template : ∀ names, d.get? (s.source names) = s.held? names
  outside : ∀ place, ¬ s.copy [] <+: place → d.get? place = s.disk.get? place ∨
    place <+: s.copy [] ∧ s.disk.get? place = none ∧ d.get? place = some .directory

variable {s : Start} {files : List (List Text)} {names more : List Text} {d d' : Disk}
  {created : List FilePath}

theorem sameParts_copyPath_iff (hnames : ∀ name ∈ names, IsFileName name)
    (hmore : ∀ name ∈ more, IsFileName name) :
    (s.copyPath names).sameParts (s.copyPath more) = true ↔ names = more := by
  have hfirst := s.continues_copyPath hnames
  have hsecond := s.continues_copyPath hmore
  rw [FilePath.sameParts, hfirst.absolute, hsecond.absolute, hfirst.parts, hsecond.parts]
  simp

/-- With its `.ignore` renamed, what stands in a project is a copy of what it comes from. -/
theorem copyOf_renamed {content : Bytes}
    (hrenamed : d.Renamed s.base s.ignorePath s.properPath content d')
    (hcopies : ∀ names, CopyOf title (s.held? names) (d.get? (s.copy names)))
    (names : List Text) : CopyOf title (s.origin? names) (d'.get? (s.copy names)) := by
  have hignore := hcopies [".ignore"]
  rw [← location_ignorePath, hrenamed.file] at hignore
  have hfile : s.isFile [".ignore"] = true := by
    generalize hentry : s.held? [".ignore"] = entry at hignore
    cases hignore with
    | file _ => exact isFile_iff.2 ⟨_, hentry⟩
  rw [origin?, if_pos hfile, get?_renamed hrenamed]
  by_cases hproper : names = [(".gitignore" : Text)]
  · rw [if_pos hproper, if_pos (congrArg s.copy hproper)]
    exact hignore
  rw [if_neg hproper, if_neg (copy_injective.ne hproper)]
  by_cases hhidden : names = [(".ignore" : Text)]
  · rw [if_pos hhidden, if_pos (congrArg s.copy hhidden)]
    exact .none
  · rw [if_neg hhidden, if_neg (copy_injective.ne hhidden)]
    exact hcopies names

theorem get?_renamed_outside {content : Bytes} {place : Location}
    (hrenamed : d.Renamed s.base s.ignorePath s.properPath content d')
    (houtside : ¬ s.copy [] <+: place) :
    d'.get? place = d.get? place := by
  have hother : ∀ names, place ≠ s.copy names := by
    rintro names rfl
    exact houtside (prefix_copy names)
  rw [get?_renamed hrenamed, if_neg (hother _), if_neg (hother _)]

namespace Copies

/-- Where a project is to be new, nothing stands. -/
theorem get?_target (h : s.Copies title files d) (hdirect : ¬ s.disk.IsDetour s.base s.target)
    (htarget : s.target.text ≠ []) (hmissing : s.disk.kind? s.base s.target = none) :
    s.disk.get? (s.copy []) = none := by
  have htext : (s.copyPath []).text ≠ [] := s.text_copyPath_ne_nil nofun (.inl htarget)
  have hroot := (h.copied [] (Option.isSome_of_mem h.proper.root)).directory htext h.proper.root
  have hlater := Option.isSome_of_mem (kind?_target s htarget hroot)
  refine Option.not_isSome_iff_eq_none.1 fun hsome => ?_
  rw [copy, List.append_nil] at hsome
  have hthere := (h.fills.plain h.proper.plain).isSome_kind?_of_keeps h.fills.keeps hdirect
    (h.proper.plain.isSome_iff.1 hsome) hlater
  rw [hmissing] at hthere
  cases hthere

/-- Before `.ignore` gets its proper name, the project is the template, filled in. -/
theorem copyOf (h : s.Copies title files d) (hapart : s.IsApart) (htarget : s.target.text ≠ [])
    (hmissing : s.disk.get? (s.copy []) = none) (names : List Text) :
    CopyOf title (s.held? names) (d.get? (s.copy names)) := by
  cases hentry : s.held? names with
  | some node =>
    have hpresent : (s.held? names).isSome = true := Option.isSome_of_mem hentry
    have hcopied := h.copied names hpresent
    have hnames := isFileName_of_isSome hpresent
    cases node with
    | file content =>
      rw [hcopied.filled hapart content hentry]
      exact .file (fillIn_filled title content)
    | directory =>
      have htext := s.text_copyPath_ne_nil hnames (.inl htarget)
      have hkind := ((h.fills.plain h.proper.plain).kind?_eq_some.1
        (hcopied.directory htext hentry)).2
      rw [s.location_copyPath hnames] at hkind
      rw [Node.map_kind_eq_directory.1 hkind]
      exact .directory
  | none =>
    have hstart : s.disk.get? (s.copy names) = none := by
      have hplain := h.proper.plain
      rw [← List.nil_append names, copy_append, hplain.get?_eq_none_iff]
      exact item?_append_eq_none (hplain.get?_eq_none_iff.1 hmissing) names
    suffices hnone : d.get? (s.copy names) = none by
      rw [hnone]
      exact .none
    rcases h.fills.changed (s.copy names) with
      hsame | ⟨other, hpresent, hplace⟩ | ⟨habove | ⟨other, kept, hpresent, hkept, hplace⟩, -, -⟩
    · exact hsame.trans hstart
    · rw [← copy_injective hplace, hentry] at hpresent
      cases hpresent
    · -- only the target itself is below the target and above it
      have habove := prefix_of_mem_above h.proper.plain hapart.direct habove hstart
      have hsame := habove.eq_of_length_le (prefix_copy names).length_le
      rw [copy_injective hsame, h.proper.root] at hentry
      cases hentry
    · have hthere := isSome_of_extends hkept hpresent
      rw [← copy_injective hplace, hentry] at hthere
      cases hthere

/-- Outside the target, only directories above it are made. -/
theorem outside (h : s.Copies title files d) (hdirect : ¬ s.disk.IsDetour s.base s.target)
    {place : Location} (houtside : ¬ s.copy [] <+: place) :
    d.get? place = s.disk.get? place ∨
      place <+: s.copy [] ∧ s.disk.get? place = none ∧ d.get? place = some .directory := by
  rcases h.fills.changed place with
    hsame | ⟨names, -, rfl⟩ | ⟨habove | ⟨-, kept, -, -, rfl⟩, hnone, hmade⟩
  · exact .inl hsame
  · exact absurd (prefix_copy names) houtside
  · exact .inr ⟨prefix_of_mem_above h.proper.plain hdirect habove hnone, hnone, hmade⟩
  · exact absurd (prefix_copy kept) houtside

theorem isFileName_of_mem (h : s.Copies title files d) (hmem : names ∈ files) :
    ∀ name ∈ names, IsFileName name := by
  obtain ⟨content, hentry⟩ := isFile_iff.1 ((h.complete names).1 hmem)
  exact isFileName_of_isSome (Option.isSome_of_mem hentry)

theorem kind?_copyPath (h : s.Copies title files d) (hmem : names ∈ files) :
    d.kind? s.base (s.copyPath names) = some .file := by
  obtain ⟨content, hentry⟩ := isFile_iff.1 ((h.complete names).1 hmem)
  exact (h.copied names (Option.isSome_of_mem hentry)).file content hentry

/-- The template has no file `.ignore`, so every copy keeps its name. -/
theorem isStarted_of_kind?_ne (h : s.Copies title files d) (hapart : s.IsApart)
    (hcopies : ∀ names, CopyOf title (s.held? names) (d.get? (s.copy names)))
    (hkind : d.kind? s.base s.ignorePath ≠ some .file) :
    s.IsStarted title d (files.map s.copyPath) := by
  have hno : s.isFile [".ignore"] ≠ true :=
    fun hfile => hkind (h.kind?_copyPath ((h.complete _).2 hfile))
  refine ⟨fun names => ?_, ⟨files, h.ordered, h.complete, ?_⟩, fun path hpath => ?_,
    fun names => hapart.get?_source h.proper.plain h.fills names, fun place => h.outside hapart.direct⟩
  · rw [origin?, if_neg hno]
    exact hcopies names
  · refine List.map_congr_left fun names hmem => ?_
    rw [projectNames, if_neg]
    rintro rfl
    exact hno ((h.complete _).1 hmem)
  · obtain ⟨names, hmem, rfl⟩ := List.mem_map.1 hpath
    exact h.kind?_copyPath hmem

/-- What is given for a copy, in place of its path before the renaming. -/
theorem copyPath_projectNames (h : s.Copies title files d) (hmem : names ∈ files) :
    (if (s.copyPath names).sameParts s.ignorePath = true then s.properPath else s.copyPath names) =
      s.copyPath (projectNames names) := by
  have hsame : (s.copyPath names).sameParts s.ignorePath = true ↔ names = [".ignore"] :=
    sameParts_copyPath_iff (h.isFileName_of_mem hmem) isFileName_ignore
  by_cases hhidden : names = [(".ignore" : Text)]
  · rw [if_pos (hsame.2 hhidden), projectNames, if_pos hhidden]
    rfl
  · rw [if_neg (mt hsame.1 hhidden), projectNames, if_neg hhidden]

theorem kind?_projectNames {content : Bytes} (h : s.Copies title files d)
    (hrenamed : d.Renamed s.base s.ignorePath s.properPath content d') (hmem : names ∈ files) :
    d'.kind? s.base (s.copyPath (projectNames names)) = some .file := by
  have hproper : d'.kind? s.base s.properPath = some .file :=
    hrenamed.kind? (h.fills.plain h.proper.plain) (s.getLast?_copyPath isFileName_proper (List.cons_ne_nil _ _))
  by_cases hhidden : names = [(".ignore" : Text)]
  · rw [projectNames, if_pos hhidden]
    exact hproper
  rw [projectNames, if_neg hhidden]
  by_cases hnamed : names = [(".gitignore" : Text)]
  · rw [hnamed]
    exact hproper
  have hlocation := s.location_copyPath (h.isFileName_of_mem hmem)
  refine hrenamed.kind?_other (h.fills.plain h.proper.plain) (h.kind?_copyPath hmem) ?_ ?_
  · rw [hlocation, location_properPath]
    exact copy_injective.ne hnamed
  · rw [hlocation, location_ignorePath]
    exact copy_injective.ne hhidden

/-- The template has a file `.ignore`, whose copy gets its proper name. -/
theorem isStarted_of_renamed {content : Bytes} (h : s.Copies title files d) (hapart : s.IsApart)
    (hrenamed : d.Renamed s.base s.ignorePath s.properPath content d')
    (hcopies : ∀ names, CopyOf title (s.held? names) (d.get? (s.copy names))) :
    s.IsStarted title d' ((files.map s.copyPath).map fun copy =>
      if copy.sameParts s.ignorePath then s.properPath else copy) := by
  have hmade : ((files.map s.copyPath).map fun copy =>
      if copy.sameParts s.ignorePath then s.properPath else copy) =
        files.map fun names => s.copyPath (projectNames names) := by
    rw [List.map_map]
    exact List.map_congr_left fun names hmem => h.copyPath_projectNames hmem
  rw [hmade]
  refine ⟨copyOf_renamed hrenamed hcopies, ⟨files, h.ordered, h.complete, rfl⟩, fun path hpath => ?_,
    fun names => ?_, fun place hplace => ?_⟩
  · obtain ⟨names, hmem, rfl⟩ := List.mem_map.1 hpath
    exact h.kind?_projectNames hrenamed hmem
  · rw [get?_renamed_outside hrenamed (hapart.not_below names)]
    exact hapart.get?_source h.proper.plain h.fills names
  · rw [get?_renamed_outside hrenamed hplace]
    exact h.outside hapart.direct hplace

theorem isStarted (h : s.Copies title files d) (hapart : s.IsApart) (htarget : s.target.text ≠ [])
    (hmissing : s.disk.kind? s.base s.target = none)
    (hunhidden : s.Unhidden d (files.map s.copyPath) d' created) : s.IsStarted title d' created := by
  have hcopies := h.copyOf hapart htarget (h.get?_target hapart.direct htarget hmissing)
  cases hunhidden with
  | none hkind => exact h.isStarted_of_kind?_ne hapart hcopies hkind
  | renamed hkind hrenamed => exact h.isStarted_of_renamed hapart hrenamed hcopies

end Copies
end Start

/-- A project at a missing target, which lies neither in the template nor above it and is not
reached by a detour, is the template with the project's name filled in. Its files are given in the
order of the walk, each is there, and nothing else changes but that the directories above the target
are made. -/
theorem startProject_isStarted {w w' : World} {created : List FilePath} (hplain : w.disk.IsPlain)
    (htarget : target.text ≠ []) (hmissing : w.disk.kind? w.workingDirectory target = none)
    (hapart : (Start.within w template target).IsApart)
    (h : w.run (startProject template target title force) = (.ok created, w')) :
    (Start.within w template target).IsStarted title w'.disk created := by
  obtain ⟨files, d, hcopies, hunhidden, -⟩ := Start.startProject_copies hplain (hapart.isClear hplain) h
  exact hcopies.isStarted hapart htarget hmissing hunhidden

/-- The name of the project is filled in, what is no text is copied, and `.ignore` is renamed at the
top only. -/
theorem startProject_isStarted_demo :
    let setUp : StateM World Unit := do
      discard (Host.makeDirectories ⟨"tpl/src"⟩)
      discard (Host.writeText ⟨"tpl/index.html"⟩ "<title>PROJECTNAME</title>")
      discard (Host.writeText ⟨"tpl/.ignore"⟩ "node_modules")
      discard (Host.writeText ⟨"tpl/src/.ignore"⟩ "dist")
      discard (Host.write ⟨"tpl/favicon.ico"⟩ [0xff, 0xfe, 0, 0x50])
    let start : World := (setUp ⟨.empty, [], []⟩).2
    let template : FilePath := ⟨"tpl"⟩
    let target : FilePath := ⟨"new/demo"⟩
    let s := Start.within start template target
    start.disk.IsPlain ∧ target.text ≠ [] ∧ start.disk.kind? start.workingDirectory target = none ∧
      s.IsApart ∧ ∃ created w',
        start.run (startProject template target "演示" false) = (.ok created, w') ∧
        created.map FilePath.text = Text.texts ["new/demo/.gitignore", "new/demo/favicon.ico",
          "new/demo/index.html", "new/demo/src/.ignore"] ∧
        w'.disk.get? (s.copy ["index.html"]) =
          some (.file (Utf8.encode "<title>演示</title>")) ∧
        s.IsStarted "演示" w'.disk created := by
  intro setUp start template target s
  have hplain : start.disk.IsPlain := by decide +kernel
  have htarget : target.text ≠ [] := by decide
  have hmissing : start.disk.kind? start.workingDirectory target = none := by decide +kernel
  have hapart : s.IsApart :=
    ⟨by decide +kernel, by decide +kernel, not_isDetour_of_steps (by decide +kernel)⟩
  have hpaths : (start.run (startProject template target "演示" false)).1.toOption.map
      (List.map FilePath.text) = some (Text.texts ["new/demo/.gitignore", "new/demo/favicon.ico",
        "new/demo/index.html", "new/demo/src/.ignore"]) := by decide +kernel
  have hindex : (start.run (startProject template target "演示" false)).2.disk.get?
      (s.copy ["index.html"]) = some (.file (Utf8.encode "<title>演示</title>")) := by
    decide +kernel
  clear_value start
  rcases hrun : start.run (startProject template target "演示" false) with ⟨result, w'⟩
  rw [hrun] at hpaths hindex
  obtain ⟨created, hcreated, htexts⟩ := Option.map_eq_some_iff.1 hpaths
  cases toOption_eq_some.1 hcreated
  exact ⟨hplain, htarget, hmissing, hapart, created, w', rfl, htexts, hindex,
    startProject_isStarted hplain htarget hmissing hapart hrun⟩

/-- The target leads back out of a directory of the template that is made on the way, and that the
template is then found to have: the project has a copy of it. The empty path leads to nothing, but
what is put behind it stands in the working directory, beside what was there. -/
theorem startProject_copies_detour :
    (let setUp : StateM World Unit := do
        discard (Host.makeDirectories ⟨"tpl/a"⟩)
        discard (Host.writeText ⟨"tpl/a/f.txt"⟩ "f")
      let start : World := (setUp ⟨.empty, [], []⟩).2
      let target : FilePath := ⟨"tpl/y/../a/x/../../../out"⟩
      let s := Start.within start ⟨"tpl"⟩ target
      let ended := start.run (startProject ⟨"tpl"⟩ target "T" false)
      start.disk.kind? start.workingDirectory target = none ∧
        ¬ s.source [] <+: s.copy [] ∧ ¬ s.copy [] <+: s.source [] ∧
        ended.1.toOption = some [target.join "a/f.txt"] ∧ s.held? ["a", "x"] = none ∧
        ended.2.disk.get? (s.copy ["a", "x"]) = some .directory) ∧
    (let setUp : StateM World Unit := do
        discard (Host.makeDirectories ⟨"/tpl"⟩)
        discard (Host.makeDirectories ⟨"/work"⟩)
        discard (Host.writeText ⟨"/work/old.txt"⟩ "old")
      let start : World := (setUp ⟨.empty, ["work"], []⟩).2
      let target : FilePath := ⟨""⟩
      let s := Start.within start ⟨"/tpl"⟩ target
      let ended := start.run (startProject ⟨"/tpl"⟩ target "T" false)
      start.disk.kind? start.workingDirectory target = none ∧
        ¬ s.source [] <+: s.copy [] ∧ ¬ s.copy [] <+: s.source [] ∧
        ended.1.toOption = some [] ∧ s.held? ["old.txt"] = none ∧
        ended.2.disk.get? (s.copy ["old.txt"]) = some (.file (Utf8.encode "old"))) := by
  decide +kernel

end RoutePages
