import RoutePages.Proofs.Disk.Change

/-!
# Disks without links

On a plain disk nothing is a link and every file has one name, so the names of a path alone tell
its location. Every change keeps a disk plain.
-/
namespace RoutePages.Disk

/-- Nothing is a link, and no file stands at two places. -/
structure IsPlain (d : Disk) : Prop where
  direct : ∀ place target, d.item? place ≠ some (.link target)
  single : ∀ place other number, d.item? place = some (.file number) →
    d.item? other = some (.file number) → place = other

variable {d d' : Disk} {through : Bool} {links : Nat} {base start place other last : Location}
  {p q : FilePath} {names more : List Text} {content : Bytes}

theorem mem_items_iff (hplace : place ≠ []) {item : Item} :
    (place, item) ∈ d.items ↔ d.item? place = some item := by
  refine ⟨fun hmem => ?_, fun hitem => d.mem_items_of_item? hitem hplace⟩
  rw [item?, itemAt?, if_neg hplace, List.lookup_eq_some_iff]
  obtain ⟨before, after, hitems⟩ := List.append_of_mem hmem
  have hdistinct := d.distinct
  rw [hitems, List.map_append, List.map_cons] at hdistinct
  refine ⟨before, after, hitems, fun entry hentry => ?_⟩
  have hapart := (List.nodup_append.1 hdistinct).2.2 _ (List.mem_map_of_mem hentry) place
  exact bne_iff_ne.2 fun hsame => hapart List.mem_cons_self hsame.symm

theorem isPlain_iff : d.IsPlain ↔
    (∀ entry ∈ d.items, entry.1 ≠ [] → entry.2.target? = none) ∧
    ∀ one ∈ d.items, ∀ other ∈ d.items, (one.1 ≠ [] ∧ other.1 ≠ []) ∧
      one.2.number?.isSome = true ∧ one.2 = other.2 → one.1 = other.1 := by
  constructor
  · intro h
    refine ⟨?_, ?_⟩
    · rintro ⟨place, item⟩ hmem hne
      cases item with
      | link target => exact absurd ((mem_items_iff hne).1 hmem) (h.direct place target)
      | _ => rfl
    · rintro ⟨place, item⟩ hmem ⟨other, _⟩ hother ⟨⟨hne, hne'⟩, hnumber, rfl⟩
      cases item with
      | file number =>
        exact h.single place other number ((mem_items_iff hne).1 hmem) ((mem_items_iff hne').1 hother)
      | _ => cases hnumber
  · rintro ⟨hdirect, hsingle⟩
    have hne : ∀ {place item}, d.item? place = some item → item ≠ .directory → place ≠ [] := by
      rintro _ item hitem hno rfl
      exact hno (Option.some.inj hitem).symm
    refine ⟨fun place target hlink => ?_, fun place other number hplace hother => ?_⟩
    · have hplace := hne hlink nofun
      cases hdirect _ ((mem_items_iff hplace).2 hlink) hplace
    · have hplace' := hne hplace nofun
      have hother' := hne hother nofun
      exact hsingle _ ((mem_items_iff hplace').2 hplace) _ ((mem_items_iff hother').2 hother)
        ⟨⟨hplace', hother'⟩, rfl, rfl⟩

instance (d : Disk) : Decidable d.IsPlain := decidable_of_iff _ isPlain_iff.symm

namespace IsPlain

theorem get?_eq_none_iff (h : d.IsPlain) : d.get? place = none ↔ d.item? place = none := by
  refine ⟨fun hnone => ?_, fun hnone => by rw [get?, hnone]; rfl⟩
  cases hitem : d.item? place with
  | none => rfl
  | some item =>
    cases item with
    | directory => cases hnone.symm.trans (get?_of_directory hitem)
    | file number =>
      obtain ⟨content, -, hfile⟩ := get?_of_file hitem
      cases hnone.symm.trans hfile
    | link target => exact absurd hitem (h.direct place target)

theorem isSome_iff (h : d.IsPlain) : (d.get? place).isSome = true ↔ (d.item? place).isSome = true := by
  rw [Option.isSome_iff_ne_none, Option.isSome_iff_ne_none, ne_eq, h.get?_eq_none_iff]

theorem map_kind (h : d.IsPlain) (place : Location) :
    (d.item? place).map Item.kind = (d.get? place).map Node.kind := by
  cases hitem : d.item? place with
  | none => rw [h.get?_eq_none_iff.2 hitem]; rfl
  | some item =>
    cases item with
    | directory => rw [get?_of_directory hitem]; rfl
    | file number =>
      obtain ⟨content, -, hfile⟩ := get?_of_file hitem
      rw [hfile]
      rfl
    | link target => exact absurd hitem (h.direct place target)

theorem map_kind_of_keeps (h : d.IsPlain) (h' : d'.IsPlain) (hkeeps : d.Keeps d') {kind : Kind}
    (hkind : (d.get? place).map Node.kind = some kind) :
    (d'.get? place).map Node.kind = some kind := by
  rw [← h.map_kind] at hkind
  obtain ⟨item, hitem, rfl⟩ := Option.map_eq_some_iff.1 hkind
  rw [← h'.map_kind, hkeeps.item hitem]
  rfl

/-! ## Where paths lead -/

theorem follows_location (h : d.IsPlain) (hfollows : d.Follows through links start names last) :
    last = FilePath.locationFrom start names := by
  induction hfollows with
  | done _ => rfl
  | step _ _ _ ih => exact ih.trans (FilePath.locationFrom_cons _ _ _).symm
  | jump hlink _ _ _ => exact absurd hlink (h.direct _ _)

theorem of_append (h : d.IsPlain) (hfollows : d.Follows through links start (names ++ more) last) :
    d.Follows through links start names (FilePath.locationFrom start names) := by
  induction names generalizing start with
  | nil => exact .done fun target hlink => absurd hlink (h.direct _ target)
  | cons name names ih =>
    cases hfollows with
    | step hplace hname hrest =>
      rw [FilePath.locationFrom_cons]
      exact .step hplace hname (ih hrest)
    | jump hlink _ _ _ => exact absurd hlink (h.direct _ _)

theorem reaches_location (h : d.IsPlain) (hreaches : d.Reaches through p (p.steps base) last) :
    last = p.location base :=
  h.follows_location hreaches.follows

theorem closed_location (h : d.IsPlain)
    (hreaches : d.Reaches through p (p.steps base ++ p.closing) last) : last = p.location base := by
  refine (h.follows_location hreaches.follows).trans ?_
  rw [FilePath.locationFrom_append]
  unfold FilePath.closing
  split <;> rfl

theorem place_eq (h : d.IsPlain) (hplace : d.place base p = .ok last) : last = p.location base :=
  h.closed_location (place_eq_ok_iff.1 hplace).1

theorem kind?_eq_some (h : d.IsPlain) {kind : Kind} : d.kind? base p = some kind ↔
    d.place base p = .ok (p.location base) ∧
      (d.get? (p.location base)).map Node.kind = some kind := by
  rw [Disk.kind?_eq_some]
  constructor
  · rintro ⟨place, hplace, hkind⟩
    cases h.place_eq hplace
    exact ⟨hplace, (h.map_kind _).symm.trans hkind⟩
  · rintro ⟨hplace, hkind⟩
    exact ⟨_, hplace, (h.map_kind _).trans hkind⟩

theorem read_eq_ok (h : d.IsPlain) (hread : d.read base p = .ok content) :
    d.get? (p.location base) = some (.file content) := by
  obtain ⟨place, hplace, -, hfile⟩ := Disk.read_eq_ok.1 hread
  cases h.place_eq hplace
  exact hfile

theorem list_eq_ok (h : d.IsPlain) {entries : List (Text × Kind)}
    (hlist : d.list base p = .ok entries) : entries = d.entries (p.location base) := by
  obtain ⟨place, hplace, -, hentries⟩ := Disk.list_eq_ok hlist
  cases h.place_eq hplace
  exact hentries

theorem isLink (h : d.IsPlain) (base : Location) (p : FilePath) : d.isLink base p = false := by
  unfold Disk.isLink
  split
  · rename_i s _
    cases hitem : d.item? s.place with
    | none => rfl
    | some item =>
      cases item with
      | link target => exact absurd hitem (h.direct _ target)
      | _ => rfl
  · rfl

end IsPlain

/-! ## Changes of a plain disk -/

/-- What a file that could be written needs, and what it changes. -/
structure Written (d : Disk) (base : Location) (p : FilePath) (content : Bytes) (d' : Disk) :
    Prop where
  plain : d'.IsPlain
  keeps : d.Keeps d'
  reaches : d.Reaches true p (p.steps base) (p.location base)
  get? : ∀ other, d'.get? other =
    if other = p.location base then some (.file content) else d.get? other

namespace IsPlain

theorem writtenAt {number : Nat} (h : d.IsPlain) (hwritten : d.WrittenAt place number content d') :
    d'.IsPlain ∧ ∀ other, d'.get? other =
      if other = place then some (.file content) else d.get? other := by
  have hplain : d'.IsPlain := by
    refine ⟨fun other target hlink => h.direct other target (hwritten.keeps.link hlink), ?_⟩
    have hfresh : ∀ other k, other ≠ place → d'.item? other = some (.file k) → k ≠ number := by
      rintro other k hne hother rfl
      rw [hwritten.other other hne] at hother
      rcases hwritten.before with ⟨-, rfl⟩ | hfile
      · exact absurd (d.number_lt hother) (Nat.lt_irrefl _)
      · exact hne (h.single other place k hother hfile)
    intro one other k hone hother
    by_cases hfirst : one = place <;> by_cases hsecond : other = place
    · exact hfirst.trans hsecond.symm
    · subst hfirst
      cases hone.symm.trans hwritten.item
      exact absurd rfl (hfresh other number hsecond hother)
    · subst hsecond
      cases hother.symm.trans hwritten.item
      exact absurd rfl (hfresh one number hfirst hone)
    · rw [hwritten.other one hfirst] at hone
      rw [hwritten.other other hsecond] at hother
      exact h.single one other k hone hother
  refine ⟨hplain, fun other => ?_⟩
  split
  · rename_i hsame
    subst hsame
    exact hwritten.get?_file hwritten.item
  · rename_i hapart
    exact hwritten.get?_other fun hfile => hapart (hplain.single _ _ number hfile hwritten.item)

theorem written (h : d.IsPlain) (hwrite : d.write base p content = .ok d') :
    d.Written base p content d' := by
  obtain ⟨place, number, hreaches, hwritten⟩ := write_eq_ok hwrite
  cases h.reaches_location hreaches
  obtain ⟨hplain, hget⟩ := h.writtenAt hwritten
  exact ⟨hplain, hwritten.keeps, hreaches, hget⟩

theorem madeAt (h : d.IsPlain) (hmade : d.MadeAt place d') :
    d'.IsPlain ∧ d.get? place = none ∧ ∀ other, d'.get? other =
      if other = place then some .directory else d.get? other := by
  have hfile : ∀ {other number}, d'.item? other = some (.file number) →
      d.item? other = some (.file number) := by
    intro other number hother
    refine (hmade.other other ?_).symm.trans hother
    rintro rfl
    cases hmade.item.symm.trans hother
  refine ⟨⟨fun other target hlink => h.direct other target (hmade.keeps.link hlink),
    fun one other number hone hother => h.single one other number (hfile hone) (hfile hother)⟩,
    h.get?_eq_none_iff.2 hmade.before, fun other => ?_⟩
  split
  · rename_i hsame
    subst hsame
    exact get?_of_directory hmade.item
  · rename_i hapart
    exact hmade.get?_other hapart

theorem made (h : d.IsPlain) (hmake : d.makeDirectory base p = .ok d') :
    d'.IsPlain ∧ d.get? (p.location base) = none ∧ ∀ other, d'.get? other =
      if other = p.location base then some .directory else d.get? other := by
  obtain ⟨place, hreaches, hmade⟩ := makeDirectory_eq_ok hmake
  cases h.reaches_location hreaches
  exact h.madeAt hmade

end IsPlain

namespace Written

theorem get?_location (h : d.Written base p content d') :
    d'.get? (p.location base) = some (.file content) := by
  rw [h.get?, if_pos rfl]

/-- The file that was written is there, unless its path asks for a directory. -/
theorem kind? (h : d.Written base p content d') (hslash : p.text.getLast? ≠ some '/') :
    d'.kind? base p = some .file := by
  have hreaches : d'.Reaches true p (p.steps base ++ p.closing) (p.location base) := by
    rw [FilePath.closing, if_neg hslash, List.append_nil]
    exact h.keeps.reaches h.reaches
  have hsome : (d'.item? (p.location base)).isSome = true :=
    h.plain.isSome_iff.1 (Option.isSome_of_mem h.get?_location)
  refine h.plain.kind?_eq_some.2 ⟨place_eq_ok_iff.2 ⟨hreaches, hsome⟩, ?_⟩
  rw [h.get?_location]
  rfl

end Written

/-- What a file that could be renamed needs, and what it changes. -/
structure Renamed (d : Disk) (base : Location) (p q : FilePath) (content : Bytes) (d' : Disk) :
    Prop where
  plain : d'.IsPlain
  file : d.get? (p.location base) = some (.file content)
  reaches : d.Reaches true q (q.steps base) (q.location base)
  free : d.get? (q.location base) ≠ some .directory
  get? : ∀ other, d'.get? other =
    if other = q.location base then some (.file content)
    else if other = p.location base then none else d.get? other

theorem IsPlain.renamed (h : d.IsPlain) (hrename : d.rename base p q = .ok d') :
    ∃ content, d.Renamed base p q content d' := by
  obtain ⟨source, target, item, hsource, htarget, hmoved⟩ := rename_eq_ok hrename
  cases h.closed_location hsource
  cases h.reaches_location htarget
  have hto := htarget.follows.to_end fun other => h.direct _ other
  have hfree : d.get? (q.location base) ≠ some .directory :=
    fun hdirectory => hmoved.free (item?_of_get?_directory hdirectory)
  obtain ⟨number, rfl⟩ : ∃ number, item = .file number := by
    cases item with
    | directory => exact absurd rfl hmoved.plain
    | file number => exact ⟨number, rfl⟩
    | link other => exact absurd hmoved.found (h.direct _ other)
  obtain ⟨content, hcontent, hfile⟩ := get?_of_file hmoved.found
  refine ⟨content, ?_⟩
  rcases hmoved.moved with ⟨rfl, hsame⟩ | ⟨hapart, hcontents, hitem⟩
  · have hplace : p.location base = q.location base :=
      hsame.elim id fun hboth => h.single _ _ number hmoved.found hboth.2
    refine ⟨h, hfile, ⟨htarget.text, hto⟩, hfree, fun other => ?_⟩
    split
    · rename_i hother
      rw [hother, ← hplace]
      exact hfile
    · rename_i hother
      rw [if_neg (hplace ▸ hother)]
  · have hnode : d'.node? = d.node? := by
      funext item
      cases item <;> rw [node?, node?]
      rw [hcontents]
    have hback : ∀ {other item}, d'.item? other = some item → other ≠ q.location base →
        d.item? other = some item ∧ other ≠ p.location base := by
      intro other item hother hne
      rw [hitem, if_neg hne] at hother
      split at hother
      · cases hother
      · rename_i hno
        exact ⟨hother, hno⟩
    refine ⟨⟨fun other target hlink => ?_, fun one other k hone hother => ?_⟩, hfile,
      ⟨htarget.text, hto⟩, hfree, fun other => ?_⟩
    · by_cases hne : other = q.location base
      · rw [hitem, if_pos hne] at hlink
        cases hlink
      · exact h.direct other target (hback hlink hne).1
    · -- the file has left its old place
      have hgone : ∀ {other}, d'.item? other = some (.file number) → other = q.location base := by
        intro other hother
        refine Decidable.byContradiction fun hne => ?_
        obtain ⟨hold, hno⟩ := hback hother hne
        exact hno (h.single _ _ number hold hmoved.found)
      by_cases hk : k = number
      · subst hk
        exact (hgone hone).trans (hgone hother).symm
      · have hne : ∀ {other}, d'.item? other = some (.file k) → other ≠ q.location base := by
          rintro other hother rfl
          rw [hitem, if_pos rfl] at hother
          exact hk (by cases hother; rfl)
        exact h.single one other k (hback hone (hne hone)).1 (hback hother (hne hother)).1
    · rw [Disk.get?, hitem]
      split
      · rw [Option.bind_some, hnode, node?, hcontent]
        rfl
      · split
        · rfl
        · rw [hnode, Disk.get?]

namespace Renamed

theorem directory (h : d.Renamed base p q content d') (hplace : d.get? place = some .directory) :
    d'.get? place = some .directory := by
  have htarget : place ≠ q.location base := fun hsame => h.free (hsame ▸ hplace)
  have hsource : place ≠ p.location base := by
    rintro rfl
    cases hplace.symm.trans h.file
  rw [h.get?, if_neg htarget, if_neg hsource]
  exact hplace

/-- On plain disks, names can be followed wherever the same places are directories. -/
theorem reaches_after (h : d.Renamed base p q content d') (hplain : d.IsPlain) {r : FilePath}
    (hreaches : d.Reaches true r names last) : d'.Reaches true r names last := by
  obtain ⟨htext, hfollows⟩ := hreaches
  refine ⟨htext, ?_⟩
  generalize mostLinks = links at hfollows ⊢
  generalize ([] : Location) = start at hfollows ⊢
  induction hfollows with
  | done _ => exact .done fun target hlink => absurd hlink (h.plain.direct _ target)
  | step hplace hname _ ih =>
    exact .step (item?_of_get?_directory (h.directory (get?_of_directory hplace))) hname ih
  | jump hlink _ _ _ => exact absurd hlink (hplain.direct _ _)

/-- The file is there under its new path, unless that asks for a directory. -/
theorem kind? (h : d.Renamed base p q content d') (hplain : d.IsPlain)
    (hslash : q.text.getLast? ≠ some '/') : d'.kind? base q = some .file := by
  have hfile : d'.get? (q.location base) = some (.file content) := by
    rw [h.get?, if_pos rfl]
  have hreaches : d'.Reaches true q (q.steps base ++ q.closing) (q.location base) := by
    rw [FilePath.closing, if_neg hslash, List.append_nil]
    exact h.reaches_after hplain h.reaches
  refine h.plain.kind?_eq_some.2 ⟨place_eq_ok_iff.2 ⟨hreaches, ?_⟩, by rw [hfile]; rfl⟩
  exact h.plain.isSome_iff.1 (Option.isSome_of_mem hfile)

/-- All other paths lead to what they led to before. -/
theorem kind?_other (h : d.Renamed base p q content d') (hplain : d.IsPlain) {r : FilePath}
    {kind : Kind} (hkind : d.kind? base r = some kind) (htarget : r.location base ≠ q.location base)
    (hsource : r.location base ≠ p.location base) : d'.kind? base r = some kind := by
  obtain ⟨hplace, hnode⟩ := hplain.kind?_eq_some.1 hkind
  obtain ⟨hreaches, hsome⟩ := place_eq_ok_iff.1 hplace
  have hsame : d'.get? (r.location base) = d.get? (r.location base) := by
    rw [h.get?, if_neg htarget, if_neg hsource]
  rw [← hsame] at hnode
  refine h.plain.kind?_eq_some.2 ⟨place_eq_ok_iff.2 ⟨h.reaches_after hplain hreaches, ?_⟩, hnode⟩
  rw [← h.plain.isSome_iff, hsame]
  exact hplain.isSome_iff.2 hsome

end Renamed
end RoutePages.Disk
