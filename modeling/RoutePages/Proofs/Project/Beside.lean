import RoutePages.Proofs.Project.Started

/-!
# What a start leaves alone

Starting a project over something that is there already changes only copies of entries. There is
one exception: a file `.ignore` that was there, and that the template does not have, is taken for
a copy and gets the proper name of one.
-/
namespace RoutePages

open World Disk

variable {template target : FilePath} {title : Text} {force : Bool}

namespace Start

/-- A file `.ignore` that was at the target becomes `.gitignore`, although the template has none. -/
structure TakesIgnore (s : Start) (d : Disk) : Prop where
  lacking : s.held? [".ignore"] = none
  taken : ∃ content, s.disk.get? (s.copy [".ignore"]) = some (.file content) ∧
    d.get? (s.copy [".gitignore"]) = some (.file content)
  gone : d.get? (s.copy [".ignore"]) = none

variable {s : Start} {files : List (List Text)} {d d' : Disk} {place : Location} {node : Node}
  {copies created : List FilePath}

/-- A place that an entry would have, if the template had it, is not the place of a copy. -/
theorem ne_copy_of_lacking {names : List Text} (hlacking : s.held? names = none)
    (hplace : place = s.copy names) :
    ∀ other, (s.held? other).isSome = true → place ≠ s.copy other := by
  intro other hpresent hother
  rw [← copy_injective (hplace.symm.trans hother), hlacking] at hpresent
  cases hpresent

namespace Copies

/-- What was there and is not the place of a copy stays while the template is copied. -/
theorem get?_beside (h : s.Copies title files d) (hthere : s.disk.get? place = some node)
    (hother : ∀ names, (s.held? names).isSome = true → place ≠ s.copy names) :
    d.get? place = some node := by
  rcases h.fills.changed place with hsame | ⟨names, hpresent, hplace⟩ | ⟨-, hnone, -⟩
  · exact hsame.trans hthere
  · exact absurd hplace (hother names hpresent)
  · cases hnone.symm.trans hthere

/-- A file that the template does not have was there already. -/
theorem get?_lacking (h : s.Copies title files d) {names : List Text} {content : Bytes}
    (hlacking : s.held? names = none) (hfile : d.get? (s.copy names) = some (.file content)) :
    s.disk.get? (s.copy names) = some (.file content) := by
  rcases h.fills.changed (s.copy names) with hsame | ⟨other, hpresent, hplace⟩ | ⟨-, -, hmade⟩
  · exact hsame.symm.trans hfile
  · rw [← copy_injective hplace, hlacking] at hpresent
    cases hpresent
  · cases hmade.symm.trans hfile

theorem takesIgnore (h : s.Copies title files d) {content : Bytes}
    (hlacking : s.held? [".ignore"] = none)
    (hrenamed : d.Renamed s.base s.ignorePath s.properPath content d') : s.TakesIgnore d' := by
  have hfile := hrenamed.file
  rw [location_ignorePath] at hfile
  refine ⟨hlacking, ⟨content, h.get?_lacking hlacking hfile, ?_⟩, ?_⟩
  · rw [get?_renamed hrenamed, if_pos rfl]
  · rw [get?_renamed hrenamed, if_neg (copy_injective.ne (by decide)), if_pos rfl]

/-- What was there and is no copy is left alone, or it is a name that `.ignore` has or gets. -/
theorem unhidden_beside (h : s.Copies title files d) (hunhidden : s.Unhidden d copies d' created)
    (hthere : s.disk.get? place = some node)
    (hother : ∀ names, (s.held? names).isSome = true → place ≠ s.copy names)
    (hproper : s.isFile [".ignore"] = true → place ≠ s.copy [".gitignore"]) :
    d'.get? place = some node ∨
      s.TakesIgnore d' ∧ (place = s.copy [".ignore"] ∨ place = s.copy [".gitignore"]) := by
  have hbeside := h.get?_beside hthere hother
  cases hunhidden with
  | none _ => exact .inl hbeside
  | renamed hkind hrenamed =>
    cases hlacking : s.held? [".ignore"] with
    | none =>
      by_cases hends : place = s.copy [".ignore"] ∨ place = s.copy [".gitignore"]
      · exact .inr ⟨h.takesIgnore hlacking hrenamed, hends⟩
      · obtain ⟨hignore, hgitignore⟩ := not_or.1 hends
        rw [get?_renamed hrenamed, if_neg hgitignore, if_neg hignore]
        exact .inl hbeside
    | some entry =>
      have hpresent : (s.held? [".ignore"]).isSome = true := Option.isSome_of_mem hlacking
      rw [get?_renamed hrenamed, if_neg (hproper (h.isFile_ignore hkind hpresent)),
        if_neg (hother _ hpresent)]
      exact .inl hbeside

end Copies
end Start

/-- Starting a project in a clear place leaves every file and directory as it was that is not the
place of a copy, and not the `.gitignore` of a template with a file `.ignore`. But where the
template has no `.ignore`, one that is a file at the target becomes its `.gitignore`. -/
theorem startProject_leaves_beside {w w' : World} {created : List FilePath} (hplain : w.disk.IsPlain)
    (hclear : (Start.within w template target).IsClear)
    (h : w.run (startProject template target title force) = (.ok created, w')) :
    let s := Start.within w template target
    (∀ place node, w.disk.get? place = some node →
      (∀ names, (s.held? names).isSome = true → place ≠ s.copy names) →
      (s.isFile [".ignore"] = true → place ≠ s.copy [".gitignore"]) →
      w'.disk.get? place = some node ∨
        s.TakesIgnore w'.disk ∧ (place = s.copy [".ignore"] ∨ place = s.copy [".gitignore"])) ∧
    (s.held? [".ignore"] = none →
      w.disk.kind? w.workingDirectory (target.join ".ignore") = some .file →
      s.TakesIgnore w'.disk) := by
  intro s
  obtain ⟨files, d, hcopies, hunhidden, -⟩ := Start.startProject_copies hplain hclear h
  refine ⟨fun place node hthere hother hproper =>
    hcopies.unhidden_beside hunhidden hthere hother hproper, fun hlacking hkind => ?_⟩
  have hlater : d.kind? s.base s.ignorePath = some .file := hcopies.fills.keeps.kind? hkind
  generalize hend : w'.disk = d' at hunhidden
  cases hunhidden with
  | none hno => exact absurd hlater hno
  | renamed _ hrenamed => exact hcopies.takesIgnore hlacking hrenamed

/-- A template with a file `.ignore`, and a target that has a file of its own. -/
theorem startProject_leaves_beside_kept :
    let setUp : StateM World Unit := do
      discard (Host.makeDirectories ⟨"tpl"⟩)
      discard (Host.makeDirectories ⟨"t"⟩)
      discard (Host.writeText ⟨"tpl/.ignore"⟩ "node_modules")
      discard (Host.writeText ⟨"t/kept.txt"⟩ "mine")
    let start : World := (setUp ⟨.empty, [], []⟩).2
    let template : FilePath := ⟨"tpl"⟩
    let target : FilePath := ⟨"t"⟩
    let s := Start.within start template target
    let place : Location := Text.texts ["t", "kept.txt"]
    start.disk.IsPlain ∧ s.IsClear ∧ ∃ created w',
      start.run (startProject template target "T" true) = (.ok created, w') ∧
      start.disk.get? place = some (.file (Utf8.encode "mine")) ∧
      (∀ names, (s.held? names).isSome = true → place ≠ s.copy names) ∧
      s.isFile [".ignore"] = true ∧ place ≠ s.copy [".gitignore"] ∧
      w'.disk.get? place = some (.file (Utf8.encode "mine")) := by
  intro setUp start template target s place
  have hplain : start.disk.IsPlain := by decide +kernel
  have hapart : s.IsApart :=
    ⟨by decide +kernel, by decide +kernel, not_isDetour_of_steps (by decide +kernel)⟩
  have hthere : start.disk.get? place = some (.file (Utf8.encode "mine")) := by decide +kernel
  have hlacking : s.held? ["kept.txt"] = none := by decide +kernel
  have hplace : place = s.copy ["kept.txt"] := by decide +kernel
  have hfile : s.isFile [".ignore"] = true := by decide +kernel
  have hproper : place ≠ s.copy [".gitignore"] := by decide +kernel
  have hends : ¬ (place = s.copy [".ignore"] ∨ place = s.copy [".gitignore"]) := by decide +kernel
  have hok : (start.run (startProject template target "T" true)).1.toOption.isSome = true := by
    decide +kernel
  clear_value start
  have hclear : s.IsClear := hapart.isClear hplain
  have hother := Start.ne_copy_of_lacking hlacking hplace
  rcases hrun : start.run (startProject template target "T" true) with ⟨result, w'⟩
  rw [hrun] at hok
  obtain ⟨created, hcreated⟩ := Option.isSome_iff_exists.1 hok
  cases toOption_eq_some.1 hcreated
  refine ⟨hplain, hclear, created, w', rfl, hthere, hother, hfile, hproper, ?_⟩
  have hleft := (startProject_leaves_beside hplain hclear hrun).1 place _ hthere hother
    fun _ => hproper
  exact hleft.resolve_right fun htaken => hends htaken.2

/-- A template without `.ignore`, and a target that has one: it is there no more. -/
theorem startProject_takes_ignore :
    let setUp : StateM World Unit := do
      discard (Host.makeDirectories ⟨"tpl"⟩)
      discard (Host.makeDirectories ⟨"t"⟩)
      discard (Host.writeText ⟨"tpl/a.txt"⟩ "a")
      discard (Host.writeText ⟨"t/.ignore"⟩ "mine")
    let start : World := (setUp ⟨.empty, [], []⟩).2
    let ended := start.run (startProject ⟨"tpl"⟩ ⟨"t"⟩ "T" true)
    let s := Start.within start ⟨"tpl"⟩ ⟨"t"⟩
    let place : Location := Text.texts ["t", ".ignore"]
    ended.1.toOption = some [⟨"t/a.txt"⟩] ∧
      start.disk.get? place = some (.file (Utf8.encode "mine")) ∧
      (∀ names, (s.held? names).isSome = true → place ≠ s.copy names) ∧
      s.isFile [".ignore"] = false ∧ ended.2.disk.get? place = none ∧
      ended.2.disk.get? (s.copy [".gitignore"]) = some (.file (Utf8.encode "mine")) := by
  intro setUp start ended s place
  refine ⟨by decide +kernel, by decide +kernel, ?_, by decide +kernel, by decide +kernel,
    by decide +kernel⟩
  exact @Start.ne_copy_of_lacking s _ [".ignore"] (by decide +kernel) (by decide +kernel)

end RoutePages
