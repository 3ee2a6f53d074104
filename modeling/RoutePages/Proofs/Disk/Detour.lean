import RoutePages.Proofs.Disk.Plain

/-!
# Paths that lead back

A path whose `..` lead out of directories that are there can be followed as soon as something
stands where it leads. Only a path that leads back out of a missing directory becomes usable when
other directories are made.
-/
namespace RoutePages

namespace Disk

/-- The path leads back out of a directory that is not there. -/
def IsDetour (d : Disk) (base : Location) (p : FilePath) : Prop :=
  ∃ names, names ++ [(".." : Text)] <+: p.steps base ∧
    d.item? (FilePath.locationFrom [] names) = none

variable {d d' : Disk} {through : Bool} {links : Nat} {base place last : Location} {p : FilePath} {names : List Text}

/-- From a missing place, names lead further down, until one of them leads back. -/
theorem back_or_below (h : d.item? place = none) (names : List Text) :
    (∃ kept, kept ++ [(".." : Text)] <+: names ∧
        d.item? (FilePath.locationFrom place kept) = none) ∨
      place <+: FilePath.locationFrom place names := by
  induction names generalizing place with
  | nil => exact .inr List.prefix_rfl
  | cons name names ih =>
    by_cases hup : name = ".."
    · subst hup
      exact .inl ⟨[], List.prefix_append _ _, h⟩
    · -- the next place is missing as well
      have hnext : d.item? (FilePath.locationFrom place [name]) = none ∧
          place <+: FilePath.locationFrom place [name] := by
        by_cases hhere : name = "."
        · subst hhere
          exact ⟨h, List.prefix_rfl⟩
        · have hplain : ∀ other ∈ [name], other ≠ "." ∧ other ≠ ".." := by
            intro other hother
            cases List.mem_singleton.1 hother
            exact ⟨hhere, hup⟩
          rw [FilePath.locationFrom_plain _ hplain]
          exact ⟨item?_append_eq_none h _, List.prefix_append _ _⟩
      rcases ih hnext.1 with ⟨kept, hkept, hnone⟩ | hbelow
      · refine .inl ⟨name :: kept, ?_, ?_⟩
        · rw [List.cons_append]
          exact List.cons_prefix_cons.2 ⟨rfl, hkept⟩
        · rw [FilePath.locationFrom_cons]
          exact hnone
      · rw [FilePath.locationFrom_cons]
        exact .inr (hnext.2.trans hbelow)

/-- Names that can be followed later can be followed now, if something stands where they lead and
none of them leads back out of a missing directory. -/
theorem IsPlain.follows_of_keeps (hplain : d'.IsPlain) (hkeeps : d.Keeps d')
    (h : d'.Follows through links place names last) (hsome : (d.item? last).isSome = true)
    (hback : ∀ kept, kept ++ [(".." : Text)] <+: names →
      d.item? (FilePath.locationFrom place kept) ≠ none) :
    d.Follows through links place names last := by
  induction h with
  | done _ => exact .done fun target hlink => absurd (hkeeps.item hlink) (hplain.direct _ target)
  | @step links place last name names hplace hname hrest ih =>
    have hthere : d.item? place ≠ none := by
      intro hnone
      rcases back_or_below hnone (name :: names) with ⟨kept, hkept, hmissing⟩ | ⟨more, hmore⟩
      · exact hback kept hkept hmissing
      · rw [hplain.follows_location (.step hplace hname hrest), ← hmore,
          item?_append_eq_none hnone] at hsome
        cases hsome
    obtain ⟨item, hitem⟩ := Option.ne_none_iff_exists'.1 hthere
    cases (hkeeps.item hitem).symm.trans hplace
    refine .step hitem hname (ih hsome fun kept hkept => ?_)
    rw [← FilePath.locationFrom_cons]
    exact hback (name :: kept) (List.cons_prefix_cons.2 ⟨rfl, hkept⟩)
  | jump hlink _ _ _ => exact absurd hlink (hplain.direct _ _)

/-- Something is at a path already, if it is where the path leads and the path can be followed
later. -/
theorem IsPlain.isSome_kind?_of_keeps (hplain : d'.IsPlain) (hkeeps : d.Keeps d')
    (hdetour : ¬ d.IsDetour base p) (hsome : (d.item? (p.location base)).isSome = true)
    (hlater : (d'.kind? base p).isSome = true) : (d.kind? base p).isSome = true := by
  obtain ⟨place, hplace⟩ := isSome_kind?_iff.1 hlater
  cases hplain.place_eq hplace
  obtain ⟨⟨htext, hfollows⟩, -⟩ := place_eq_ok_iff.1 hplace
  have hback : ∀ kept, kept ++ [(".." : Text)] <+: p.steps base ++ p.closing →
      d.item? (FilePath.locationFrom [] kept) ≠ none := by
    intro kept hkept hnone
    refine hdetour ⟨kept, ?_, hnone⟩
    unfold FilePath.closing at hkept
    split at hkept
    · rcases List.prefix_concat_iff.1 hkept with heq | hkept
      · cases (List.append_inj' heq rfl).2
      · exact hkept
    · rwa [List.append_nil] at hkept
  exact isSome_kind?_iff.2 ⟨_, place_eq_ok_iff.2
    ⟨⟨htext, hplain.follows_of_keeps hkeeps hfollows hsome hback⟩, hsome⟩⟩

/-- Names that do not lead back make no detour of a path. -/
theorem isDetour_of_steps {q : FilePath} (hsteps : q.steps base = p.steps base ++ names)
    (hplain : ∀ name ∈ names, name ≠ "..") (h : d.IsDetour base q) : d.IsDetour base p := by
  obtain ⟨kept, hkept, hnone⟩ := h
  rw [hsteps] at hkept
  refine ⟨kept, ?_, hnone⟩
  rcases List.prefix_or_prefix_of_prefix hkept (List.prefix_append _ names) with
    hfirst | ⟨more, hmore⟩
  · exact hfirst
  · rcases List.eq_nil_or_concat more with rfl | ⟨front, last, rfl⟩
    · rw [List.append_nil] at hmore
      exact hmore ▸ List.prefix_rfl
    · rw [List.concat_eq_append, ← List.append_assoc] at hmore
      obtain ⟨hfront, hlast⟩ := List.append_inj' hmore rfl
      obtain ⟨rest, hrest⟩ := hkept
      rw [← hfront, ← hlast] at hrest
      simp only [List.append_assoc, List.append_cancel_left_eq] at hrest
      have hmem : last ∈ names := by
        rw [← hrest]
        exact List.mem_append_right _ List.mem_cons_self
      exact absurd (List.singleton_inj.1 hlast) (hplain last hmem)

theorem not_isDetour_of_steps (h : (".." : Text) ∉ p.steps base) : ¬ d.IsDetour base p := by
  rintro ⟨kept, hkept, -⟩
  exact h (hkept.subset (List.mem_append_right _ List.mem_cons_self))

theorem prefix_names_of_parts (h : names ++ [(".." : Text)] <+: p.parts) :
    ∃ front, front ++ [(".." : Text)] <+: p.names ∧
      front.filter (fun name : Text => decide (name ≠ ".")) = names := by
  obtain ⟨rest, hrest⟩ := h
  rw [List.append_assoc] at hrest
  obtain ⟨front, back, hnames, hfront, hback⟩ := List.filter_eq_append_iff.1 hrest.symm
  obtain ⟨here, more, hbackNames, hhere, -, -⟩ := List.filter_eq_cons_iff.1 hback
  refine ⟨front ++ here, ?_, ?_⟩
  · rw [hnames, hbackNames]
    refine ⟨more, ?_⟩
    simp only [List.append_assoc, List.singleton_append]
  · rw [List.filter_append, hfront, List.filter_eq_nil_iff.2 hhere, List.append_nil]

/-- A missing place that a path leads through lies above the end of the path, unless the path is a
detour. -/
theorem prefix_of_mem_above {q : FilePath} (hq : q ∈ p.above) (hdetour : ¬ d.IsDetour base p)
    (hnone : d.item? (q.location base) = none) : q.location base <+: p.location base := by
  let start : Location := if p.isAbsolute then [] else base
  rw [FilePath.above, ← List.append_nil p.parts.reverse] at hq
  rcases FilePath.mem_aboveRoute_append hq with hq | ⟨kept, hkept, rfl⟩
  · cases hq
  rw [List.reverse_nil, List.nil_append] at hnone ⊢
  obtain ⟨rest, hrest⟩ : kept.reverse <+: p.parts := by
    rw [← List.reverse_suffix, List.reverse_reverse]
    exact hkept
  have hnames : ∀ name ∈ kept.reverse, name ≠ [] ∧ '/' ∉ name := by
    intro name hname
    refine FilePath.parts_spec (p := p) name ?_
    rw [← hrest]
    exact List.mem_append_left _ hname
  have hq : (FilePath.ofRoute p.isAbsolute kept.reverse).location base = _ :=
    FilePath.location_ofRoute hnames
  have hend : p.location base = FilePath.locationFrom
      ((FilePath.ofRoute p.isAbsolute kept.reverse).location base) rest := by
    rw [FilePath.location, FilePath.steps, FilePath.locationFrom_append,
      ← FilePath.locationFrom_parts, hq, ← FilePath.locationFrom_append _ _ rest, hrest]
  rw [hend]
  refine (back_or_below hnone rest).resolve_left ?_
  rintro ⟨more, hmore, hmissing⟩
  have hfirst : (kept.reverse ++ more) ++ [(".." : Text)] <+: p.parts := by
    rw [← hrest, List.append_assoc]
    exact List.prefix_append_right_inj _ |>.2 hmore
  obtain ⟨front, hfront, hfilter⟩ := prefix_names_of_parts hfirst
  refine hdetour ⟨start ++ front, ?_, ?_⟩
  · rw [FilePath.steps, List.append_assoc]
    exact List.prefix_append_right_inj _ |>.2 hfront
  · have hsame : FilePath.locationFrom (FilePath.locationFrom [] start) front =
        FilePath.locationFrom (FilePath.locationFrom [] start) (kept.reverse ++ more) := by
      simp only [FilePath.locationFrom, ← hfilter, List.filter_filter, Bool.and_self]
    rw [FilePath.locationFrom_append, hsame, FilePath.locationFrom_append, ← hq]
    exact hmissing

end Disk
end RoutePages
