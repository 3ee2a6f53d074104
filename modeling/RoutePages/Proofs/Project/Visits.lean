import Mathlib.Data.List.Nodup
import Mathlib.Data.List.Perm.Subperm
import RoutePages.Proofs.Project.Depth
import RoutePages.Proofs.Project.Started

/-!
# What a start looks into

Where nothing new comes to stand in a directory of the template, but for its top, starting a project
looks into what the template held at the start, into nothing else, and into nothing twice.
-/
namespace RoutePages

open World Disk

variable {template target : FilePath} {title : Text} {force : Bool}

namespace Start

/-- The entries of the template, its top first. -/
def tree (s : Start) : List (List Text) :=
  [] :: ((s.disk.items.map Prod.fst).filter fun place =>
    (s.source []).isPrefixOf place && place != s.source []).map (·.drop (s.source []).length)

variable {s : Start} {names : List Text} {place : Location}

theorem mem_below : (place ∈ (s.disk.items.map Prod.fst).filter fun place =>
      (s.source []).isPrefixOf place && place != s.source []) ↔
    ∃ name more, place = s.source (name :: more) ∧ place ∈ s.disk.items.map Prod.fst := by
  rw [List.mem_filter, Bool.and_eq_true, List.isPrefixOf_iff_prefix, bne_iff_ne]
  constructor
  · rintro ⟨hplace, ⟨below, rfl⟩, hne⟩
    cases below with
    | nil => exact absurd (List.append_nil _) hne
    | cons name more => exact ⟨name, more, (source_append [] _).symm, hplace⟩
  · rintro ⟨name, more, rfl, hplace⟩
    exact ⟨hplace, prefix_source _, source_injective.ne (List.cons_ne_nil _ _)⟩

theorem drop_source (names : List Text) : (s.source names).drop (s.source []).length = names := by
  rw [← List.nil_append names, source_append, List.drop_left, List.nil_append]

theorem mem_items_iff (hs : s.IsProper) (name : Text) (more : List Text) :
    s.source (name :: more) ∈ s.disk.items.map Prod.fst ↔
      (s.held? (name :: more)).isSome = true := by
  have hne : s.source (name :: more) ≠ [] := List.append_ne_nil_of_right_ne_nil _ (List.cons_ne_nil _ _)
  rw [held?, hs.plain.isSome_iff, Option.isSome_iff_exists, List.mem_map]
  constructor
  · rintro ⟨⟨_, item⟩, hitem, rfl⟩
    exact ⟨item, (Disk.mem_items_iff hne).1 hitem⟩
  · rintro ⟨item, hitem⟩
    exact ⟨_, (Disk.mem_items_iff hne).2 hitem, rfl⟩

theorem mem_tree (hs : s.IsProper) : names ∈ s.tree ↔ (s.held? names).isSome = true := by
  rw [tree, List.mem_cons, List.mem_map]
  constructor
  · rintro (rfl | ⟨place, hplace, rfl⟩)
    · exact Option.isSome_of_mem hs.root
    · obtain ⟨name, more, rfl, hnode⟩ := mem_below.1 hplace
      rw [drop_source]
      exact (mem_items_iff hs name more).1 hnode
  · intro hpresent
    cases names with
    | nil => exact .inl rfl
    | cons name more =>
      exact .inr ⟨_, mem_below.2 ⟨name, more, rfl, (mem_items_iff hs name more).2 hpresent⟩,
        drop_source _⟩

theorem tree_nodup (s : Start) : s.tree.Nodup := by
  rw [tree, List.nodup_cons, List.mem_map]
  constructor
  · rintro ⟨place, hplace, hnil⟩
    obtain ⟨name, more, rfl, -⟩ := mem_below.1 hplace
    rw [drop_source] at hnil
    cases hnil
  · refine List.Nodup.map_on (fun place hplace other hother hsame => ?_) (s.disk.distinct.filter _)
    obtain ⟨name, more, rfl, -⟩ := mem_below.1 hplace
    obtain ⟨name', more', rfl, -⟩ := mem_below.1 hother
    rw [drop_source, drop_source] at hsame
    exact congrArg s.source hsame

/-- What is met in order is met once. -/
theorem nodup_of_ordered {seen : List (List Text)} (h : seen.Pairwise (· < ·)) : seen.Nodup :=
  List.nodup_iff_pairwise_ne.2 (h.imp ne_of_lt)

end Start

/-- A path that leads to something is not empty. -/
theorem size_pos_of_kind? {d : Disk} {base : Location} {p : FilePath} {kind : Kind}
    (h : d.kind? base p = some kind) : 0 < Text.size p.text := by
  obtain ⟨place, hplace, -⟩ := kind?_eq_some.1 h
  have hne := (checkText_eq_ok.1 (place_eq_ok_iff.1 hplace).1.text).2.1
  exact Nat.pos_of_ne_zero fun hzero => hne (Text.size_eq_zero hzero)

/-- Starting a project, where nothing new comes to stand in a directory of the template but for its
top, does on a journey what it does. It looks into entries that the template held at the start, in
their order and each at most once, so there are no more of them than the template has entries; when
it succeeds it has looked into all of them. No bound on the depth is ever reached. -/
theorem startProject_visits {w : World} {j' : Journey} {result : Except InitError (List FilePath)}
    (hplain : w.disk.IsPlain) (hclear : (Start.within w template target).IsClear)
    (h : (Journey.mk w []).run (startProject template target title force) = (result, j')) :
    let s := Start.within w template target
    let top : Met := ⟨template, [], .directory⟩
    w.run (startProject template target title force) = (result, j'.world) ∧
    (∃ seen : List (List Text), j'.visited = seen.map s.sourcePath ∧ seen.Pairwise (· < ·) ∧
      (∀ names ∈ seen, (s.sourcePath names).location w.workingDirectory = s.source names ∧
        (w.disk.get? (s.source names)).isSome = true) ∧
      seen.Subperm s.tree ∧ j'.visited.length ≤ s.tree.length ∧
      ∀ created, result = .ok created → seen.Perm s.tree) ∧
    ∀ room, deepest ≤ room → w.disk.kind? w.workingDirectory template = some .directory →
      w.run (copyTree target title room top) = w.run (copyTree target title deepest top) := by
  intro s top
  refine ⟨?_, ?_, fun room hroom htemplate => ?_⟩
  · have hrun := (mirrors_startProject template target title force).run ⟨w, []⟩
    rwa [h] at hrun
  · rcases Start.startProject_walks hplain hclear h with
      ⟨⟨e, rfl⟩, rfl⟩ | ⟨hproper, walked, j₁, ⟨seen, hmeets, -, hall⟩, hvisited, hend⟩
    · exact ⟨[], rfl, .nil, nofun, List.nil_subperm, Nat.zero_le _, nofun⟩
    have hdistinct := Start.nodup_of_ordered hmeets.ordered
    have hwithin : seen.Subperm s.tree := List.subperm_of_subset hdistinct fun names hnames =>
      (Start.mem_tree hproper).2 (hmeets.present names hnames)
    rw [hmeets.visited, List.nil_append] at hvisited
    refine ⟨seen, hvisited, hmeets.ordered, fun names hnames => ?_, hwithin, ?_, ?_⟩
    · have hpresent := hmeets.present names hnames
      exact ⟨s.location_sourcePath (Start.isFileName_of_isSome hpresent), hpresent⟩
    · rw [hvisited, List.length_map]
      exact hwithin.length_le
    · intro created hcreated
      obtain ⟨copies, hcopies, -⟩ := hend created hcreated
      refine (List.perm_ext_iff_of_nodup hdistinct s.tree_nodup).2 fun names => ?_
      rw [Start.mem_tree hproper]
      exact ⟨hmeets.present names, hall copies hcopies [] List.mem_cons_self names
        List.nil_prefix⟩
  · obtain ⟨more, rfl⟩ : ∃ more, room = more + 1 := ⟨room - 1, by unfold deepest at hroom; omega⟩
    refine (copyTree_room (Nat.le_of_succ_le_succ hroom) ?_).symm
    exact Nat.lt_add_of_pos_right (size_pos_of_kind? htemplate)

/-- A project inside its template: the target is new, and made when the template has been listed. -/
theorem startProject_visits_inside :
    let setUp : StateM World Unit := do
      discard (Host.makeDirectories ⟨"tpl/sub"⟩)
      discard (Host.writeText ⟨"tpl/sub/a.txt"⟩ "a")
    let start : World := (setUp ⟨.empty, [], []⟩).2
    let template : FilePath := ⟨"tpl"⟩
    let target : FilePath := ⟨"tpl/out"⟩
    start.disk.IsPlain ∧ (Start.within start template target).IsClear ∧ ∃ created j',
      (Journey.mk start []).run (startProject template target "T" false) = (.ok created, j') ∧
      start.run (startProject template target "T" false) = (.ok created, j'.world) ∧
      j'.visited.length ≤ (Start.within start template target).tree.length ∧
      j'.visited.map FilePath.text = Text.texts ["tpl", "tpl/sub", "tpl/sub/a.txt"] := by
  intro setUp start template target
  have hplain : start.disk.IsPlain := by decide +kernel
  have hdirect : ¬ start.disk.IsDetour start.workingDirectory target :=
    not_isDetour_of_steps (by decide +kernel)
  have hsource : template.location start.workingDirectory = Text.texts ["tpl"] := by decide +kernel
  have hcopy : target.location start.workingDirectory = Text.texts ["tpl", "out"] := by
    decide +kernel
  have hfree : start.disk.get? (Text.texts ["tpl", "out"]) = none := by decide +kernel
  have hvisited : ((Journey.mk start []).run (startProject template target "T" false)).2.visited.map
      FilePath.text = Text.texts ["tpl", "tpl/sub", "tpl/sub/a.txt"] := by decide +kernel
  have hok : ((Journey.mk start []).run (startProject template target "T" false)).1.toOption.isSome =
      true := by decide +kernel
  clear_value start
  have hclear : (Start.within start template target).IsClear := by
    refine Start.isClear_of_direct hplain hdirect ?_
    rintro name more (hbelow | habove)
    · have hlies : target.location start.workingDirectory ++ [] =
        template.location start.workingDirectory ++ name :: more := hbelow
      rw [hsource, hcopy] at hlies
      cases hlies
      change start.disk.get? (template.location start.workingDirectory ++ Text.texts ["out"]) = none
      rw [hsource]
      exact hfree
    · have hlies : template.location start.workingDirectory ++ [] =
        target.location start.workingDirectory ++ name :: more := habove
      rw [hsource, hcopy] at hlies
      cases hlies
  rcases hrun : (Journey.mk start []).run (startProject template target "T" false) with ⟨result, j'⟩
  rw [hrun] at hvisited hok
  obtain ⟨created, hcreated⟩ := Option.isSome_iff_exists.1 hok
  cases toOption_eq_some.1 hcreated
  obtain ⟨hworld, ⟨seen, -, -, -, -, hlength, -⟩, -⟩ := startProject_visits hplain hclear hrun
  exact ⟨hplain, hclear, created, j', rfl, hworld, hlength, hvisited⟩

/-- The target is a directory of the template. A file that was copied there is met as well, and
copied once more. -/
theorem startProject_revisits_copies :
    let setUp : StateM World Unit := do
      discard (Host.makeDirectories ⟨"tpl/out"⟩)
      discard (Host.writeText ⟨"tpl/a.txt"⟩ "a")
    let start : World := (setUp ⟨.empty, [], []⟩).2
    let ended := (Journey.mk start []).run (startProject ⟨"tpl"⟩ ⟨"tpl/out"⟩ "T" true)
    let copy : FilePath := ⟨"tpl/out/a.txt"⟩
    start.disk.get? (copy.location []) = none ∧
      ended.1.toOption.map (List.map FilePath.text) =
        some (Text.texts ["tpl/out/a.txt", "tpl/out/out/a.txt"]) ∧
      copy ∈ ended.2.visited ∧
      (Start.within start ⟨"tpl"⟩ ⟨"tpl/out"⟩).tree.length < ended.2.visited.length := by
  decide +kernel

end RoutePages
