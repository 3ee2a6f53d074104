import RoutePages.Project.Starter
import RoutePages.Proofs.Disk.Detour
import RoutePages.Proofs.Disk.Listing
import RoutePages.Proofs.Host.Effect
import RoutePages.Proofs.Text.Order
import RoutePages.Proofs.Text.Split

/-!
# Where a project is started

The entries of a template are told apart by the names that lead to them. Each has a place below
the template and a place for its copy below the target. While a project is started, the disk
changes at the places of copies, and directories are made on the way to them.
-/
namespace RoutePages

open World Disk

/-- A disk with a template, and a place for a project. -/
structure Start where
  disk : Disk
  base : Location
  template : FilePath
  target : FilePath

namespace Start

variable (s : Start)

/-- The place of an entry of the template. -/
def source (names : List Text) : Location := s.template.location s.base ++ names

/-- The place of the copy of an entry. -/
def copy (names : List Text) : Location := s.target.location s.base ++ names

/-- What the template holds under some names. -/
def held? (names : List Text) : Option Node := s.disk.get? (s.source names)

/-- The path at which an entry is met. -/
def sourcePath (names : List Text) : FilePath := names.foldl FilePath.join s.template

/-- The path of the copy of an entry. -/
def copyPath (names : List Text) : FilePath := s.target.join (Text.join "/" names)

/-- The template is a directory, on a disk without links. -/
structure IsProper : Prop where
  plain : s.disk.IsPlain
  root : s.held? [] = some .directory

/-- A directory may be made there when some entries are copied: it leads to the target, or to the
copy of one of them. -/
def IsOnWay (copied : List Text → Prop) (place : Location) : Prop :=
  place ∈ s.target.above.map (FilePath.location s.base) ∨
    ∃ names kept, copied names ∧ kept <+: names ∧ place = s.copy kept

/-- Nothing new comes to stand in a directory of the template before that is listed. The directories
that lead to the target are made when the top of the template has been listed, and the copies of
entries in their order. -/
def IsClear : Prop :=
  ∀ dir name, dir ≠ [] → s.held? dir = some .directory → s.held? (dir ++ [name]) = none →
    s.source (dir ++ [name]) ∉ s.target.above.map (FilePath.location s.base) ∧
      ∀ other, (s.held? other).isSome = true → other < dir → s.source (dir ++ [name]) ≠ s.copy other

variable {s} {names dir more : List Text} {name : Text} {d d' d'' : Disk}

/-! ## Entries -/

theorem source_append (names more : List Text) : s.source (names ++ more) = s.source names ++ more :=
  (List.append_assoc _ _ _).symm

theorem copy_append (names more : List Text) : s.copy (names ++ more) = s.copy names ++ more :=
  (List.append_assoc _ _ _).symm

theorem source_injective : Function.Injective s.source := fun _ _ => List.append_cancel_left

theorem copy_injective : Function.Injective s.copy := fun _ _ => List.append_cancel_left

theorem isSome_item? (h : (s.held? names).isSome = true) :
    (s.disk.item? (s.source names)).isSome = true := by
  obtain ⟨node, hnode⟩ := Option.isSome_iff_exists.1 h
  obtain ⟨item, hitem, -⟩ := Option.bind_eq_some_iff.1 hnode
  exact Option.isSome_of_mem hitem

theorem isFileName_of_isSome (h : (s.held? names).isSome = true) :
    ∀ name ∈ names, IsFileName name :=
  fun name hname => s.disk.isFileName (isSome_item? h) name (List.mem_append_right _ hname)

/-- What is below an entry stands in a directory. -/
theorem directory_of_extends (hextends : names <+: more) (hne : more ≠ names)
    (h : (s.held? more).isSome = true) : s.held? names = some .directory := by
  obtain ⟨below, rfl⟩ := hextends
  cases below with
  | nil => exact absurd (List.append_nil names) hne
  | cons name below =>
    have hitem := isSome_item? h
    have hnext : (s.disk.item? (s.source names ++ [name])).isSome = true := by
      refine Option.isSome_iff_ne_none.2 fun hnone => ?_
      have hbelow : s.source (names ++ name :: below) = s.source names ++ [name] ++ below := by
        rw [source_append, List.append_assoc, List.singleton_append]
      rw [hbelow, item?_append_eq_none hnone] at hitem
      cases hitem
    exact get?_of_directory (s.disk.parent_of_isSome hnext)

theorem isSome_of_extends (hextends : names <+: more) (h : (s.held? more).isSome = true) :
    (s.held? names).isSome = true := by
  by_cases hsame : more = names
  · exact hsame ▸ h
  · exact Option.isSome_of_mem (directory_of_extends hextends hsame h)

/-! ## Paths -/

theorem join_names_ne_nil (h : ∀ name ∈ names, IsFileName name) (hne : names ≠ []) :
    Text.join "/" names ≠ [] ∧ (Text.join "/" names).getLast? ≠ some '/' := by
  induction names with
  | nil => exact absurd rfl hne
  | cons name names ih =>
    obtain ⟨hname, hnames⟩ := List.forall_mem_cons.1 h
    cases names with
    | nil => exact ⟨hname.1, fun hlast => hname.2.1 (List.mem_of_mem_getLast? hlast)⟩
    | cons next names =>
      obtain ⟨hrest, hlast⟩ := ih hnames (List.cons_ne_nil _ _)
      rw [Text.join]
      refine ⟨List.append_ne_nil_of_right_ne_nil _ hrest, ?_⟩
      rwa [List.getLast?_append_of_ne_nil _ hrest]

section
variable (s)

theorem continues_copyPath (h : ∀ name ∈ names, IsFileName name) :
    s.target.Continues (s.copyPath names) names :=
  FilePath.continues_join s.target h

theorem location_copyPath (h : ∀ name ∈ names, IsFileName name) :
    (s.copyPath names).location s.base = s.copy names :=
  (s.continues_copyPath h).location s.base

theorem location_sourcePath (h : ∀ name ∈ names, IsFileName name) :
    (s.sourcePath names).location s.base = s.source names :=
  (FilePath.continues_foldl s.template h).location s.base

theorem sourcePath_concat (names : List Text) (name : Text) :
    s.sourcePath (names ++ [name]) = (s.sourcePath names).join name :=
  List.foldl_append

theorem text_copyPath_ne_nil (h : ∀ name ∈ names, IsFileName name)
    (hne : s.target.text ≠ [] ∨ names ≠ []) : (s.copyPath names).text ≠ [] := by
  rcases FilePath.join_relative s.target (FilePath.head?_join_names h) with
    ⟨hempty, hjoin⟩ | ⟨front, -, hjoin⟩
  · rw [copyPath, hjoin]
    exact (join_names_ne_nil h (hne.resolve_left (not_not.2 hempty))).1
  · rw [copyPath, hjoin]
    exact List.append_ne_nil_of_right_ne_nil _ (List.cons_ne_nil _ _)

/-- What stands at the copy of the template stands at the target. -/
theorem kind?_target {kind : Kind} (htarget : s.target.text ≠ [])
    (h : d.kind? s.base (s.copyPath []) = some kind) : d.kind? s.base s.target = some kind := by
  rcases FilePath.join_relative s.target (@FilePath.head?_join_names [] nofun) with
    ⟨hempty, -⟩ | ⟨front, ⟨hfront, -⟩ | hfront, hjoin⟩
  · exact absurd hempty htarget
  · have hcontinues : s.target.Continues (s.copyPath []) [] := s.continues_copyPath nofun
    have hlast : (s.copyPath []).text.getLast? = some '/' := by
      rw [copyPath, hjoin]
      exact List.getLast?_concat
    obtain ⟨place, hplace, hkind⟩ := kind?_eq_some.1 h
    obtain ⟨⟨htext, hfollows⟩, hsome⟩ := place_eq_ok_iff.1 hplace
    rw [FilePath.closing, if_pos hlast, hcontinues.steps, List.append_nil] at hfollows
    refine kind?_eq_some.2 ⟨place, place_eq_ok_iff.2 ⟨⟨?_, ?_⟩, hsome⟩, hkind⟩
    · obtain ⟨hcut, -, hsize⟩ := checkText_eq_ok.1 htext
      rw [copyPath, hjoin, ← hfront] at hcut hsize
      refine checkText_eq_ok.2 ⟨fun c hc => hcut c (List.mem_append_left _ hc), htarget, ?_⟩
      exact Nat.le_trans (Text.size_append _ _ ▸ Nat.le_add_right _ _) hsize
    · unfold FilePath.closing
      split
      · exact hfollows
      · rw [List.append_nil]
        exact hfollows.leave
  · have hsame : s.copyPath [] = s.target := by
      rw [copyPath, hjoin]
      exact congrArg FilePath.mk hfront.symm
    rwa [hsame] at h

/-- The path of the copy of a file does not ask for a directory. -/
theorem getLast?_copyPath (h : ∀ name ∈ names, IsFileName name) (hne : names ≠ []) :
    (s.copyPath names).text.getLast? ≠ some '/' := by
  obtain ⟨hrest, hlast⟩ := join_names_ne_nil h hne
  rwa [copyPath, FilePath.getLast?_join _ (FilePath.head?_join_names h) hrest]

end

/-! ## What may change -/

/-- The disk changes at the copies of some entries, and by directories on the way to copies. -/
structure Fills (s : Start) (copied : List Text → Prop) (d d' : Disk) : Prop where
  keeps : d.Keeps d'
  plain : d.IsPlain → d'.IsPlain
  changed : ∀ place, d'.get? place = d.get? place ∨
    (∃ names, copied names ∧ place = s.copy names) ∨
    s.IsOnWay copied place ∧ d.get? place = none ∧ d'.get? place = some .directory

namespace Fills

variable {copied copied' : List Text → Prop}

theorem refl (d : Disk) : s.Fills copied d d := ⟨.refl d, id, fun _ => .inl rfl⟩

theorem trans (h : s.Fills copied d d') (h' : s.Fills copied d' d'') : s.Fills copied d d'' := by
  refine ⟨h.keeps.trans h'.keeps, h'.plain ∘ h.plain, fun place => ?_⟩
  rcases h.changed place with hsame | hcopied | ⟨hway, hnone, hnew⟩
  · rcases h'.changed place with hsame' | hcopied | ⟨hway, hnone, hnew⟩
    · exact .inl (hsame'.trans hsame)
    · exact .inr (.inl hcopied)
    · exact .inr (.inr ⟨hway, hsame.symm.trans hnone, hnew⟩)
  · exact .inr (.inl hcopied)
  · exact .inr (.inr ⟨hway, hnone, h'.keeps.get?_directory hnew⟩)

theorem imp (h : s.Fills copied d d') (himp : ∀ names, copied names → copied' names) :
    s.Fills copied' d d' := by
  refine ⟨h.keeps, h.plain, fun place => ?_⟩
  refine (h.changed place).imp id (Or.imp ?_ (And.imp (Or.imp id ?_) id))
  · rintro ⟨names, hcopied, hplace⟩
    exact ⟨names, himp names hcopied, hplace⟩
  · rintro ⟨names, kept, hcopied, hkept, hplace⟩
    exact ⟨names, kept, himp names hcopied, hkept, hplace⟩

end Fills

/-- Writing a copy changes the disk at the copy. -/
theorem write_fills {copied : List Text → Prop} {content : Bytes} (hplain : d.IsPlain)
    (hpresent : (s.held? names).isSome = true) (hcopied : copied names)
    (h : d.write s.base (s.copyPath names) content = .ok d') : s.Fills copied d d' := by
  have hwritten := hplain.written h
  refine ⟨hwritten.keeps, fun _ => hwritten.plain, fun place => ?_⟩
  rw [hwritten.get?, s.location_copyPath (isFileName_of_isSome hpresent)]
  split
  · rename_i hplace
    exact .inr (.inl ⟨names, hcopied, hplace⟩)
  · exact .inl rfl

theorem makeDirectory_fills {copied : List Text → Prop} {q : FilePath} (hplain : d.IsPlain)
    (hway : s.IsOnWay copied (q.location s.base)) (h : d.makeDirectory s.base q = .ok d') :
    s.Fills copied d d' := by
  obtain ⟨hplain', hfree, hget⟩ := hplain.made h
  refine ⟨makeDirectory_keeps h, fun _ => hplain', fun place => ?_⟩
  rw [hget]
  split
  · rename_i hplace
    subst hplace
    exact .inr (.inr ⟨hway, hfree, rfl⟩)
  · exact .inl rfl

/-- The directories that lead to the copy of an entry are on the way. -/
theorem isOnWay_of_mem {copied : List Text → Prop} (hpresent : (s.held? names).isSome = true)
    (hcopied : copied names) {q : FilePath}
    (hq : q ∈ s.copyPath names :: (s.copyPath names).above) :
    s.IsOnWay copied (q.location s.base) := by
  have hcontinues := s.continues_copyPath (isFileName_of_isSome hpresent)
  rcases List.mem_cons.1 hq with rfl | hq
  · exact .inr ⟨names, names, hcopied, List.prefix_rfl, hcontinues.location s.base⟩
  · rcases hcontinues.mem_above s.base hq with habove | ⟨kept, hkept, hlocation⟩
    · exact .inl (List.mem_map_of_mem habove)
    · exact .inr ⟨names, kept, hcopied, hkept, hlocation⟩

/-- Making the directory of a copy, with all that leads to it, makes directories on the way. -/
theorem makeDirectories_fills {copied : List Text → Prop} {w w' : World}
    {outcome : Except Fault Unit} (hplain : w.disk.IsPlain)
    (hpresent : (s.held? names).isSome = true) (hcopied : copied names)
    (hbase : w.workingDirectory = s.base)
    (h : (Host.makeDirectories (s.copyPath names) : StateM World (Except Fault Unit)) w =
      (outcome, w')) :
    w'.workingDirectory = s.base ∧ s.Fills copied w.disk w'.disk := by
  let R : Location → Disk → Disk → Prop :=
    fun base d d' => base = s.base → d.IsPlain → s.Fills copied d d'
  have hR : IsChain R :=
    ⟨fun _ d _ _ => .refl d, fun _ _ _ _ h h' hbase hplain =>
      (h hbase hplain).trans (h' hbase ((h hbase hplain).plain hplain))⟩
  have hchanges : Changes R
      (Host.makeDirectories (s.copyPath names) : StateM World (Except Fault Unit)) :=
    Changes.makeDirectories hR fun q hq d base d' hmake hsame hplain =>
      makeDirectory_fills hplain (isOnWay_of_mem hpresent hcopied hq) (hsame ▸ hmake)
  have hrun := hchanges w
  rw [h] at hrun
  exact ⟨hrun.1.trans hbase, hrun.2 hbase hplain⟩

/-! ## Where a target lies -/

theorem prefix_source (names : List Text) : s.source [] <+: s.source names :=
  ⟨names, (source_append [] names).symm⟩

theorem prefix_copy (names : List Text) : s.copy [] <+: s.copy names :=
  ⟨names, (copy_append [] names).symm⟩

/-- A missing place that leads to the target lies above it. -/
theorem prefix_of_mem_above {place : Location} (hplain : s.disk.IsPlain)
    (hdirect : ¬ s.disk.IsDetour s.base s.target)
    (habove : place ∈ s.target.above.map (FilePath.location s.base))
    (hnone : s.disk.get? place = none) : place <+: s.copy [] := by
  obtain ⟨q, hq, rfl⟩ := List.mem_map.1 habove
  rw [copy, List.append_nil]
  exact Disk.prefix_of_mem_above hq hdirect (hplain.get?_eq_none_iff.1 hnone)

/-- The target and the template are clear of each other if no entry of the template has the first
name on the way from one of them down to the other. -/
theorem isClear_of_direct (hplain : s.disk.IsPlain) (hdirect : ¬ s.disk.IsDetour s.base s.target)
    (hfirst : ∀ name more, s.copy [] = s.source (name :: more) ∨
      s.source [] = s.copy (name :: more) → s.held? [name] = none) : s.IsClear := by
  intro dir name hne hdir hnone
  obtain ⟨first, rest, rfl⟩ := List.exists_cons_of_ne_nil hne
  have hentry : s.held? [first] ≠ none := Option.isSome_iff_ne_none.1
    (isSome_of_extends ⟨rest, rfl⟩ (Option.isSome_of_mem hdir))
  refine ⟨fun habove => ?_, fun other hother _ hplace => ?_⟩
  · obtain ⟨below, hbelow⟩ := prefix_of_mem_above hplain hdirect habove hnone
    refine hentry (hfirst first (rest ++ [name] ++ below) (.inl ?_))
    rw [← hbelow, ← source_append]
    rfl
  rcases List.prefix_or_prefix_of_prefix (prefix_source (first :: rest ++ [name]))
    (hplace ▸ prefix_copy other) with ⟨way, hway⟩ | ⟨way, hway⟩
  · -- the target lies below the template, or they are one
    rw [← source_append, List.nil_append] at hway
    have hsame : first :: rest ++ [name] = way ++ other := by
      refine source_injective (hplace.trans ?_)
      rw [source_append, hway, ← copy_append, List.nil_append]
    cases way with
    | nil => exact (Option.isSome_iff_ne_none.1 hother) (List.nil_append other ▸ hsame ▸ hnone)
    | cons next way =>
      obtain ⟨rfl, -⟩ := List.cons.inj hsame
      exact hentry (hfirst first way (.inl hway.symm))
  · -- the template lies below the target, or they are one
    rw [← copy_append, List.nil_append] at hway
    have hsame : way ++ (first :: rest ++ [name]) = other := by
      refine copy_injective (Eq.trans ?_ hplace)
      rw [copy_append, hway, ← source_append, List.nil_append]
    cases way with
    | nil => exact (Option.isSome_iff_ne_none.1 hother) (hsame ▸ hnone)
    | cons next way =>
      rw [← hsame] at hother
      have hnext : [next] <+: next :: way ++ (first :: rest ++ [name]) := ⟨_, rfl⟩
      exact Option.isSome_iff_ne_none.1 (isSome_of_extends hnext hother)
        (hfirst next way (.inr hway.symm))

/-- The target lies neither in the template nor above it, and its path does not lead back out of a
missing directory. -/
structure IsApart (s : Start) : Prop where
  outside : ¬ s.source [] <+: s.copy []
  beside : ¬ s.copy [] <+: s.source []
  direct : ¬ s.disk.IsDetour s.base s.target

namespace IsApart

theorem isClear (h : s.IsApart) (hplain : s.disk.IsPlain) : s.IsClear := by
  refine isClear_of_direct hplain h.direct fun name more hlies => ?_
  rcases hlies with hinside | habove
  · exact absurd (hinside ▸ prefix_source _) h.outside
  · exact absurd (habove ▸ prefix_copy _) h.beside

/-- No entry of the template lies in the target. -/
theorem not_below (h : s.IsApart) (names : List Text) : ¬ s.copy [] <+: s.source names := by
  intro hbelow
  rcases List.prefix_or_prefix_of_prefix (prefix_source names) hbelow with hinside | habove
  · exact h.outside hinside
  · exact h.beside habove

theorem source_ne_copy (h : s.IsApart) (names more : List Text) : s.source names ≠ s.copy more :=
  fun hsame => h.not_below names (hsame ▸ prefix_copy more)

/-- The template stays as it is. -/
theorem get?_source {copied : List Text → Prop} (h : s.IsApart) (hplain : s.disk.IsPlain)
    (hfills : s.Fills copied s.disk d) (names : List Text) :
    d.get? (s.source names) = s.held? names := by
  rcases hfills.changed (s.source names) with
    hsame | ⟨other, -, hplace⟩ | ⟨habove | ⟨-, kept, -, -, hplace⟩, hnone, -⟩
  · exact hsame
  · exact absurd hplace (h.source_ne_copy names other)
  · exact absurd ((prefix_source names).trans
      (prefix_of_mem_above hplain h.direct habove hnone)) h.outside
  · exact absurd hplace (h.source_ne_copy names kept)

end IsApart
end Start
end RoutePages
