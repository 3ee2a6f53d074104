import RoutePages.Proofs.Disk.Location

/-!
# What one step changes

Writing a file fills the file that its path leads to, or makes one where nothing is. Making a
directory changes only a location where nothing was. Neither loses anything. Renaming changes the
location that something leaves and the one that it gets.
-/
namespace RoutePages.Disk

variable {d d' : Disk} {base here other : Location} {p q : FilePath} {content : Bytes}
  {number : Nat}

/-- Nothing is below a place where nothing is. -/
theorem item?_append_eq_none (h : d.item? here = none) (names : List Text) :
    d.item? (here ++ names) = none := by
  induction names generalizing here with
  | nil => rwa [List.append_nil]
  | cons name names ih =>
    have hnext : d.item? (here ++ [name]) = none := by
      cases hsome : d.item? (here ++ [name]) with
      | none => rfl
      | some item => cases h.symm.trans (d.parent_of_isSome (Option.isSome_of_mem hsome))
    rw [← List.singleton_append, ← List.append_assoc]
    exact ih hnext

/-- Nothing is below what is no directory. -/
theorem eq_of_prefix {item : Item} (hitem : d.item? here = some item) (hno : item ≠ .directory)
    (hbelow : here <+: other) (hsome : (d.item? other).isSome = true) : other = here := by
  obtain ⟨names, rfl⟩ := hbelow
  cases names with
  | nil => exact List.append_nil here
  | cons name names =>
    have hnone : d.item? (here ++ [name]) = none := by
      cases hnext : d.item? (here ++ [name]) with
      | none => rfl
      | some below =>
        have hparent := d.parent_of_isSome (Option.isSome_of_mem hnext)
        exact absurd (Option.some.inj (hitem.symm.trans hparent)) hno
    rw [← List.singleton_append, ← List.append_assoc, item?_append_eq_none hnone] at hsome
    cases hsome

theorem item?_put (s : Spot d) (item : Item) (contents : List Bytes) (free more numbered) :
    (d.put s item contents free more numbered).item? other =
      if other = s.place then some item else d.item? other := by
  have hne : s.place ≠ [] := fun hnil => free (by rw [hnil]; rfl)
  show itemAt? _ other = _
  rw [put, itemAt?_cons]
  by_cases hroot : other = []
  · rw [if_pos hroot, hroot, if_neg hne.symm]
    rfl
  · rw [if_neg hroot]
    rfl

theorem item?_remove (d : Disk) (place other : Location) : (d.remove place).item? other =
    if place <+: other ∧ other ≠ [] then none else d.item? other := by
  by_cases hroot : other = []
  · rw [if_neg fun h => h.2 hroot, hroot]
    rfl
  · rw [item?, item?, itemAt?, itemAt?, if_neg hroot, if_neg hroot, remove,
      lookup_filter fun other => !place.isPrefixOf other]
    simp only [Bool.not_eq_true', Bool.eq_false_iff, ne_eq, List.isPrefixOf_iff_prefix, ite_not,
      hroot, not_false_eq_true, and_true]

/-! ## Files that are written -/

/-- A file at a place is filled, or made where nothing was. -/
structure WrittenAt (d : Disk) (place : Location) (number : Nat) (content : Bytes) (d' : Disk) :
    Prop where
  item : d'.item? place = some (.file number)
  before : d.item? place = none ∧ number = d.contents.length ∨ d.item? place = some (.file number)
  other : ∀ other, other ≠ place → d'.item? other = d.item? other
  content : d'.contents[number]? = some content
  rest : ∀ k, k ≠ number → d'.contents[k]? = d.contents[k]?
  length : d.contents.length ≤ d'.contents.length

theorem writeAt_eq_ok {s : Spot d} (h : d.writeAt s content = .ok d') :
    ∃ number, d.WrittenAt s.place number content d' := by
  unfold writeAt at h
  split at h
  · rename_i hnone
    cases h
    refine ⟨d.contents.length, by rw [item?_put, if_pos rfl], .inl ⟨hnone, rfl⟩,
      fun other hother => by rw [item?_put, if_neg hother], List.getElem?_concat_length,
      fun k hk => ?_, by simp [put]⟩
    rcases Nat.lt_or_gt_of_ne hk with hless | hgreater
    · exact List.getElem?_append_left hless
    · rw [List.getElem?_eq_none (Nat.le_of_lt hgreater)]
      exact List.getElem?_eq_none (by simpa [put, Nat.succ_le_iff] using hgreater)
  · rename_i number hfile
    cases h
    exact ⟨number, hfile, .inr hfile, fun _ _ => rfl, List.getElem?_set_self (d.number_lt hfile),
      fun k hk => List.getElem?_set_ne hk.symm, Nat.le_of_eq List.length_set.symm⟩
  · cases h

theorem write_eq_ok (h : d.write base p content = .ok d') :
    ∃ place number, d.Reaches true p (p.steps base) place ∧ d.WrittenAt place number content d' := by
  obtain ⟨s, hs, h⟩ := bind_eq_ok.1 h
  obtain ⟨⟨⟩, -, h⟩ := bind_eq_ok.1 h
  obtain ⟨number, hwritten⟩ := writeAt_eq_ok h
  exact ⟨s.place, number, spot_eq_ok_iff.1 ⟨s, hs, rfl⟩, hwritten⟩

namespace WrittenAt

theorem keeps (h : d.WrittenAt here number content d') : d.Keeps d' where
  item := by
    intro other item hitem
    by_cases hsame : other = here
    · subst hsame
      rcases h.before with ⟨hnone, -⟩ | hfile
      · cases hnone.symm.trans hitem
      · exact (h.item.trans hfile.symm).trans hitem
    · rw [h.other other hsame]
      exact hitem
  link := by
    intro other target hlink
    by_cases hsame : other = here
    · subst hsame
      cases h.item.symm.trans hlink
    · rwa [← h.other other hsame]
  length := h.length

/-- Files of other numbers, and directories, stay as they are. -/
theorem get?_other (h : d.WrittenAt here number content d')
    (hother : d'.item? other ≠ some (.file number)) : d'.get? other = d.get? other := by
  have hne : other ≠ here := fun hsame => hother (hsame ▸ h.item)
  rw [get?, get?, ← h.other other hne]
  refine Option.bind_congr fun item hitem => ?_
  cases item with
  | directory => rfl
  | link target => rfl
  | file k =>
    have hk : k ≠ number := by
      rintro rfl
      exact hother hitem
    rw [node?, node?, h.rest k hk]

theorem get?_file (h : d.WrittenAt here number content d')
    (hother : d'.item? other = some (.file number)) : d'.get? other = some (.file content) := by
  rw [get?, hother, Option.bind_some, node?, h.content]
  rfl

variable (hslash : p.text.getLast? ≠ some '/')
include hslash

/-- The path leads to the file that was written, unless it asks for a directory. -/
theorem leads (h : d.WrittenAt here number content d')
    (hreaches : d.Reaches true p (p.steps base) here) : d'.place base p = .ok here := by
  refine place_eq_ok_iff.2 ⟨h.keeps.reaches ?_, Option.isSome_of_mem h.item⟩
  rwa [FilePath.closing, if_neg hslash, List.append_nil]

/-- Where a file can be written, its path tells whether something is there. -/
theorem isSome_kind?_iff (hreaches : d.Reaches true p (p.steps base) here) :
    (d.kind? base p).isSome = true ↔ (d.item? here).isSome = true := by
  have hclosed : d.Reaches true p (p.steps base ++ p.closing) here := by
    rwa [FilePath.closing, if_neg hslash, List.append_nil]
  rw [Disk.isSome_kind?_iff]
  constructor
  · rintro ⟨place, hplace⟩
    obtain ⟨hother, hsome⟩ := place_eq_ok_iff.1 hplace
    rwa [hclosed.follows.unique hother.follows]
  · exact fun hsome => ⟨here, place_eq_ok_iff.2 ⟨hclosed, hsome⟩⟩

end WrittenAt

/-! ## Directories that are made -/

/-- A directory is made at a place where nothing was. -/
structure MadeAt (d : Disk) (place : Location) (d' : Disk) : Prop where
  item : d'.item? place = some .directory
  before : d.item? place = none
  other : ∀ other, other ≠ place → d'.item? other = d.item? other
  contents : d'.contents = d.contents

theorem makeDirectory_eq_ok (h : d.makeDirectory base p = .ok d') :
    ∃ place, d.Reaches false p (p.steps base) place ∧ d.MadeAt place d' := by
  obtain ⟨s, hs, h⟩ := bind_eq_ok.1 h
  split at h
  · rename_i hfree
    obtain ⟨⟨⟩, -, h⟩ := bind_eq_ok.1 h
    cases h
    exact ⟨s.place, spot_eq_ok_iff.1 ⟨s, hs, rfl⟩, by rw [item?_put, if_pos rfl], hfree,
      fun other hother => by rw [item?_put, if_neg hother], rfl⟩
  · cases h

namespace MadeAt

theorem keeps (h : d.MadeAt here d') : d.Keeps d' where
  item := by
    intro other item hitem
    by_cases hsame : other = here
    · subst hsame
      cases h.before.symm.trans hitem
    · rw [h.other other hsame]
      exact hitem
  link := by
    intro other target hlink
    by_cases hsame : other = here
    · subst hsame
      cases h.item.symm.trans hlink
    · rwa [← h.other other hsame]
  length := Nat.le_of_eq (congrArg _ h.contents.symm)

theorem get?_other (h : d.MadeAt here d') (hother : other ≠ here) :
    d'.get? other = d.get? other := by
  have hnode : d'.node? = d.node? := by
    funext item
    cases item <;> rw [node?, node?]
    rw [h.contents]
  rw [get?, get?, h.other other hother, hnode]

/-- The path leads to the directory that was made, also if it asks for a directory. -/
theorem leads (h : d.MadeAt here d') (hreaches : d.Reaches false p (p.steps base) here) :
    d'.place base p = .ok here := by
  have hfollows := (h.keeps.reaches hreaches).follows.to_end (by rw [h.item]; exact nofun)
  refine place_eq_ok_iff.2 ⟨⟨hreaches.text, ?_⟩, Option.isSome_of_mem h.item⟩
  unfold FilePath.closing
  split
  · exact hfollows.enter h.item
  · rwa [List.append_nil]

end MadeAt

theorem makeDirectory_keeps (h : d.makeDirectory base p = .ok d') : d.Keeps d' := by
  obtain ⟨place, -, hmade⟩ := makeDirectory_eq_ok h
  exact hmade.keeps

/-- A directory that was made is there. -/
theorem makeDirectory_kind? (h : d.makeDirectory base p = .ok d') :
    d'.kind? base p = some .directory := by
  obtain ⟨place, hreaches, hmade⟩ := makeDirectory_eq_ok h
  exact kind?_eq_some.2 ⟨place, hmade.leads hreaches, by rw [hmade.item]; rfl⟩

/-! ## What gets another path -/

/-- Something that is no directory goes from one place to another, or it has both paths already. -/
structure MovedTo (d : Disk) (source target : Location) (item : Disk.Item) (d' : Disk) : Prop where
  found : d.item? source = some item
  plain : item ≠ .directory
  free : d.item? target ≠ some .directory
  moved : d' = d ∧ (source = target ∨ item.number?.isSome = true ∧ d.item? target = some item) ∨
    source ≠ target ∧ d'.contents = d.contents ∧ ∀ other, d'.item? other =
      if other = target then some item else if other = source then none else d.item? other

/-- What is no directory leaves nothing behind, and its new place is not below the old one. -/
theorem item?_moved {source target : Location} {item : Item} (hfound : d.item? source = some item)
    (hplain : item ≠ .directory) (hparent : d.item? target.dropLast = some .directory)
    (hapart : source ≠ target) (other : Location) :
    (if source <+: other ∧ other ≠ [] then none
      else if other = target then some item else d.item? other) =
    if other = target then some item else if other = source then none else d.item? other := by
  have hsource : source ≠ [] := by
    rintro rfl
    exact hplain (Option.some.inj hfound).symm
  have htarget : ¬ source <+: target := by
    rintro ⟨names, rfl⟩
    have hne : names ≠ [] := fun hnil => hapart (hnil ▸ (List.append_nil source).symm)
    rw [List.dropLast_append_of_ne_nil hne] at hparent
    have hsame := eq_of_prefix hfound hplain (List.prefix_append _ _) (Option.isSome_of_mem hparent)
    rw [hsame] at hparent
    exact hplain (Option.some.inj (hfound.symm.trans hparent))
  by_cases hbelow : source <+: other
  · have hne : other ≠ [] := fun hnil => hsource (List.prefix_nil.1 (hnil ▸ hbelow))
    have hother : other ≠ target := fun hsame => htarget (hsame ▸ hbelow)
    rw [if_pos ⟨hbelow, hne⟩, if_neg hother]
    split
    · rfl
    · rename_i hbehind
      refine (Option.not_isSome_iff_eq_none.1 fun hsome => hbehind ?_).symm
      exact eq_of_prefix hfound hplain hbelow hsome
  · have hother : other ≠ source := fun hsame => hbelow (hsame ▸ List.prefix_rfl)
    rw [if_neg fun h => hbelow h.1, if_neg hother]

theorem rename_eq_ok (h : d.rename base p q = .ok d') : ∃ source target item,
    d.Reaches false p (p.steps base ++ p.closing) source ∧
      d.Reaches false q (q.steps base) target ∧ d.MovedTo source target item d' := by
  obtain ⟨s, hs, h⟩ := bind_eq_ok.1 h
  have hsource := find_eq_ok_iff.1 ⟨s, hs, rfl⟩
  split at h
  · cases h
  · cases h
  · rename_i item hplain hfound
    obtain ⟨t, ht, h⟩ := bind_eq_ok.1 h
    have htarget := spot_eq_ok_iff.1 ⟨t, ht, rfl⟩
    obtain ⟨⟨⟩, -, h⟩ := bind_eq_ok.1 h
    obtain ⟨⟨⟩, -, h⟩ := bind_eq_ok.1 h
    have hno : item ≠ .directory := fun hdirectory => hplain hdirectory
    split at h
    · rename_i hfree
      refine ⟨s.place, t.place, item, hsource, htarget, hfound, hno, hfree, ?_⟩
      split at h
      · rename_i hsame
        cases h
        exact .inl ⟨rfl, hsame⟩
      · rename_i hapart
        cases h
        refine .inr ⟨fun hsame => hapart (.inl hsame), rfl, fun other => ?_⟩
        rw [item?_remove, item?_put]
        exact item?_moved hfound hno t.parent (fun hsame => hapart (.inl hsame)) other
    · cases h

end RoutePages.Disk
