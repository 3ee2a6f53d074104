import RoutePages.Proofs.Disk.Paths
import RoutePages.Proofs.Succeeds

/-!
# Where paths lead

A path that leads to something leads there on every disk that keeps what is there and adds no links.
-/
namespace RoutePages

theorem Node.map_kind_eq_directory {found : Option Node} :
    found.map kind = some .directory ↔ found = some .directory := by
  rcases found with _ | _ | content
  · exact ⟨nofun, nofun⟩
  · exact ⟨fun _ => rfl, fun _ => rfl⟩
  · exact ⟨nofun, nofun⟩

theorem Node.map_kind_eq_file {found : Option Node} :
    found.map kind = some .file ↔ ∃ content, found = some (.file content) := by
  rcases found with _ | _ | content
  · exact ⟨nofun, nofun⟩
  · exact ⟨nofun, nofun⟩
  · exact ⟨fun _ => ⟨content, rfl⟩, fun _ => rfl⟩

namespace Disk

variable {d d' : Disk} {through : Bool} {links : Nat} {base start place last : Location}
  {name : Text} {names : List Text} {target p : FilePath}

theorem get?_of_directory (h : d.item? place = some .directory) :
    d.get? place = some .directory := by
  rw [get?, h]
  rfl

theorem get?_of_file {number : Nat} (h : d.item? place = some (.file number)) :
    ∃ content, d.contents[number]? = some content ∧ d.get? place = some (.file content) := by
  have hcontent := List.getElem?_eq_getElem (d.number_lt h)
  refine ⟨_, hcontent, ?_⟩
  rw [get?, h, Option.bind_some, node?, hcontent]
  rfl

theorem item?_of_get?_directory (h : d.get? place = some .directory) :
    d.item? place = some .directory := by
  obtain ⟨item, hitem, hnode⟩ := Option.bind_eq_some_iff.1 h
  cases item with
  | directory => exact hitem
  | file number =>
    obtain ⟨content, -, ⟨⟩⟩ := Option.map_eq_some_iff.1 hnode
  | link target => cases hnode

theorem item?_of_get?_file {content : Bytes} (h : d.get? place = some (.file content)) :
    ∃ number, d.item? place = some (.file number) ∧ d.contents[number]? = some content := by
  obtain ⟨item, hitem, hnode⟩ := Option.bind_eq_some_iff.1 h
  cases item with
  | directory => cases hnode
  | file number =>
    obtain ⟨_, hcontent, ⟨⟩⟩ := Option.map_eq_some_iff.1 hnode
    exact ⟨number, hitem, hcontent⟩
  | link target => cases hnode

/-! ## Following names -/

/-- Can a name be followed? -/
def CanFollow (name : Text) : Prop :=
  name = "." ∨ name = ".." ∨ Text.size name ≤ longestName ∧ IsFileName name

/-- Where the names of a link are followed from. -/
def linkStart (place : Location) (target : FilePath) : Location :=
  if target.isAbsolute then [] else place.dropLast

/-- Names can be followed from one location to another, through a number of links at most. -/
inductive Follows (d : Disk) (through : Bool) : Nat → Location → List Text → Location → Prop
  | done {links : Nat} {place : Location}
      (hplace : ∀ target, d.item? place = some (.link target) → through = false) :
      Follows d through links place [] place
  | step {links : Nat} {place last : Location} {name : Text} {names : List Text}
      (hplace : d.item? place = some .directory) (hname : CanFollow name)
      (hrest : Follows d through links (FilePath.locationFrom place [name]) names last) :
      Follows d through links place (name :: names) last
  | jump {links : Nat} {place last : Location} {target : FilePath} {names : List Text}
      (hplace : d.item? place = some (.link target)) (htext : checkText target.text = .ok ())
      (hmore : names = [] → through = true)
      (hrest : Follows d through links (linkStart place target)
        (target.names ++ target.closing ++ names) last) :
      Follows d through (links + 1) place names last

/-- Following names ends, leads on, or jumps, whatever links are left. -/
theorem follow_eq_along (d : Disk) (through : Bool) (links : Nat) :
    ∃ jump, follow d through links = along d through jump := by
  cases links <;> exact ⟨_, rfl⟩

theorem follow_nil (here : Spot d)
    (hplace : ∀ target, d.item? here.place = some (.link target) → through = false) :
    follow d through links here [] = .ok here := by
  obtain ⟨jump, hjump⟩ := follow_eq_along d through links
  rw [hjump, along]
  split
  · rename_i target hlink
    rw [hplace target hlink]
    rfl
  · rfl

/-- A step leads on from a directory. -/
theorem follow_step (here : Spot d) (names : List Text)
    (hplace : d.item? here.place = some .directory) (hname : CanFollow name) :
    ∃ next : Spot d, next.place = FilePath.locationFrom here.place [name] ∧
      follow d through links here (name :: names) = follow d through links next names := by
  obtain ⟨jump, hjump⟩ := follow_eq_along d through links
  rw [hjump, along]
  split
  · rename_i hnone
    cases hnone.symm.trans hplace
  · rename_i hfile
    cases hfile.symm.trans hplace
  · rename_i hlink
    cases hlink.symm.trans hplace
  · rename_i hdirectory
    split
    · rename_i hhere
      subst hhere
      exact ⟨here, (FilePath.locationFrom_here _).symm, rfl⟩
    · rename_i hhere
      split
      · rename_i hup
        subst hup
        exact ⟨here.up, (FilePath.locationFrom_up _).symm, rfl⟩
      · rename_i hup
        obtain ⟨hsize, hproper⟩ := (hname.resolve_left hhere).resolve_left hup
        have hplain : ∀ other ∈ [name], other ≠ "." ∧ other ≠ ".." := by
          simpa using ⟨hhere, hup⟩
        rw [if_neg (Nat.not_lt.2 hsize), dif_pos hproper]
        exact ⟨_, (FilePath.locationFrom_plain _ hplain).symm, rfl⟩

/-- A step leads on from nothing but a directory or a link, and only by a proper name. -/
theorem follow_step_ok {here s : Spot d} (h : follow d through links here (name :: names) = .ok s) :
    d.item? here.place = some .directory ∧ CanFollow name ∨
      ∃ target, d.item? here.place = some (.link target) := by
  obtain ⟨jump, hjump⟩ := follow_eq_along d through links
  rw [hjump, along] at h
  split at h
  · cases h
  · cases h
  · rename_i target hlink
    exact .inr ⟨target, hlink⟩
  · rename_i hdirectory
    refine .inl ⟨hdirectory, ?_⟩
    split at h
    · rename_i hhere
      exact .inl hhere
    · split at h
      · rename_i hup
        exact .inr (.inl hup)
      · split at h
        · cases h
        · rename_i hsize
          split at h
          · rename_i hproper
            exact .inr (.inr ⟨Nat.not_lt.1 hsize, hproper⟩)
          · cases h

theorem along_link (jump : Spot d → FilePath → List Text → Except Fault (Spot d)) (here : Spot d)
    (names : List Text) (hplace : d.item? here.place = some (.link target))
    (hmore : names = [] → through = true) :
    along d through jump here names = jump here target names := by
  cases names with
  | nil =>
    rw [along]
    split
    · rename_i other hlink
      cases hplace.symm.trans hlink
      rw [if_pos (hmore rfl)]
    · rename_i hno
      exact absurd hplace (hno target)
  | cons name names =>
    rw [along]
    split
    · rename_i hnone
      cases hnone.symm.trans hplace
    · rename_i hfile
      cases hfile.symm.trans hplace
    · rename_i other hlink
      cases hplace.symm.trans hlink
      rfl
    · rename_i hdirectory
      cases hdirectory.symm.trans hplace

/-- At a link the names of its target come first. -/
theorem follow_jump (here : Spot d) (names : List Text)
    (hplace : d.item? here.place = some (.link target)) (hmore : names = [] → through = true) :
    ∃ next : Spot d, next.place = linkStart here.place target ∧
      follow d through (links + 1) here names = (do
        checkText target.text
        follow d through links next (target.names ++ target.closing ++ names)) := by
  refine ⟨if target.isAbsolute then d.rootSpot else here.up, ?_, ?_⟩
  · unfold linkStart
    split <;> rfl
  · rw [follow, along_link _ here names hplace hmore]

theorem follow_no_jump (here s : Spot d) (names : List Text)
    (hplace : d.item? here.place = some (.link target)) (hmore : names = [] → through = true) :
    follow d through 0 here names ≠ .ok s := by
  rw [follow, along_link _ here names hplace hmore]
  exact nofun

/-- Where each jump can be followed, all names can. -/
theorem follows_of_jumps {s : Spot d}
    (hjumps : ∀ (here : Spot d) names target, d.item? here.place = some (.link target) →
      (names = [] → through = true) → follow d through links here names = .ok s →
      d.Follows through links here.place names s.place)
    {here : Spot d} (h : follow d through links here names = .ok s) :
    d.Follows through links here.place names s.place := by
  induction names generalizing here with
  | nil =>
    by_cases hlink : ∃ target, d.item? here.place = some (.link target) ∧ through = true
    · obtain ⟨target, hlink, hthrough⟩ := hlink
      exact hjumps here [] target hlink (fun _ => hthrough) h
    · have hplace : ∀ target, d.item? here.place = some (.link target) → through = false :=
        fun target hitem => Bool.eq_false_iff.2 fun hthrough => hlink ⟨target, hitem, hthrough⟩
      cases (follow_nil here hplace).symm.trans h
      exact .done hplace
  | cons name names ih =>
    rcases follow_step_ok h with ⟨hdirectory, hname⟩ | ⟨target, hlink⟩
    · obtain ⟨next, hnext, heq⟩ := follow_step here names hdirectory hname
      exact .step hdirectory hname (hnext ▸ ih (heq.symm.trans h))
    · exact hjumps here (name :: names) target hlink nofun h

theorem follow_eq_ok_iff (here : Spot d) (names : List Text) (last : Location) :
    (∃ s, follow d through links here names = .ok s ∧ s.place = last) ↔
      d.Follows through links here.place names last := by
  constructor
  · rintro ⟨s, hs, rfl⟩
    induction links generalizing here names with
    | zero =>
      exact follows_of_jumps (fun here names _ hlink hmore hs =>
        absurd hs (follow_no_jump here s names hlink hmore)) hs
    | succ links ih =>
      refine follows_of_jumps (fun here names target hlink hmore hs => ?_) hs
      obtain ⟨next, hnext, heq⟩ := follow_jump here names hlink hmore
      obtain ⟨⟨⟩, htext, hrest⟩ := bind_eq_ok.1 (heq.symm.trans hs)
      exact .jump hlink htext hmore (hnext ▸ ih next _ hrest)
  · intro h
    generalize hplace : here.place = start at h
    induction h generalizing here with
    | done hdone =>
      subst hplace
      exact ⟨here, follow_nil here hdone, rfl⟩
    | step hdirectory hname _ ih =>
      subst hplace
      obtain ⟨next, hnext, heq⟩ := follow_step here _ hdirectory hname
      rw [heq]
      exact ih next hnext
    | jump hlink htext hmore _ ih =>
      subst hplace
      obtain ⟨next, hnext, heq⟩ := follow_jump here _ hlink hmore
      obtain ⟨s, hs, hlast⟩ := ih next hnext
      exact ⟨s, heq.trans (bind_eq_ok.2 ⟨(), htext, hs⟩), hlast⟩

namespace Follows

theorem unique {last' : Location} (h : d.Follows through links start names last)
    (h' : d.Follows through links start names last') : last = last' := by
  induction h with
  | done hplace =>
    cases h' with
    | done _ => rfl
    | jump hlink _ hmore _ => cases (hplace _ hlink).symm.trans (hmore rfl)
  | step hplace _ _ ih =>
    cases h' with
    | step _ _ hrest => exact ih hrest
    | jump hlink _ _ _ => cases hplace.symm.trans hlink
  | jump hlink _ hmore _ ih =>
    cases h' with
    | done hplace => cases (hplace _ hlink).symm.trans (hmore rfl)
    | step hplace _ _ => cases hplace.symm.trans hlink
    | jump hlink' _ _ hrest =>
      cases hlink.symm.trans hlink'
      exact ih hrest

/-- A path that is followed through its last link does not end at a link. -/
theorem not_link (h : d.Follows true links start names last) :
    d.item? last ≠ some (.link target) := by
  induction h with
  | done hplace => exact fun hlink => nomatch hplace target hlink
  | step _ _ _ ih => exact ih
  | jump _ _ _ _ ih => exact ih

/-- Where no link is at the end, it makes no difference that the last link is left alone. -/
theorem to_end (h : d.Follows false links start names last)
    (hlast : ∀ target, d.item? last ≠ some (.link target)) :
    d.Follows true links start names last := by
  induction h with
  | done _ => exact .done fun target hlink => absurd hlink (hlast target)
  | step hplace hname _ ih => exact .step hplace hname (ih hlast)
  | jump hlink htext hmore _ ih => exact .jump hlink htext (fun _ => rfl) (ih hlast)

/-- A path that asks for a directory leads to one. -/
theorem directory (h : d.Follows true links start (names ++ [['.']]) last) :
    d.item? last = some .directory := by
  generalize hall : names ++ [(['.'] : Text)] = all at h
  induction h generalizing names with
  | done _ => exact absurd hall (by simp)
  | @step links place last name rest hplace hname hrest ih =>
    rcases List.append_eq_cons_iff.1 hall with ⟨rfl, hlast⟩ | ⟨more, rfl, hmore⟩
    · obtain ⟨rfl, rfl⟩ := List.cons.inj hlast
      cases hrest with
      | done _ => exact hplace
      | jump hlink _ _ _ =>
        cases hplace.symm.trans hlink
    · exact ih hmore.symm
  | @jump links place last target rest hlink htext hmore hrest ih =>
    subst hall
    exact @ih (target.names ++ target.closing ++ names) (List.append_assoc _ _ _)

/-- A directory can be entered. -/
theorem enter (h : d.Follows true links start names last) (hlast : d.item? last = some .directory) :
    d.Follows true links start (names ++ [['.']]) last := by
  induction h with
  | done _ =>
    refine .step hlast (.inl rfl) (.done fun target hlink => ?_)
    cases hlast.symm.trans hlink
  | step hplace hname _ ih => exact .step hplace hname (ih hlast)
  | jump hlink htext _ _ ih =>
    refine .jump hlink htext (fun _ => rfl) ?_
    rw [← List.append_assoc]
    exact ih hlast

/-- A directory that was entered was reached before. -/
theorem leave (h : d.Follows true links start (names ++ [['.']]) last) :
    d.Follows true links start names last := by
  generalize hall : names ++ [(['.'] : Text)] = all at h
  induction h generalizing names with
  | done _ => exact absurd hall (by simp)
  | @step links place last name rest hplace hname hrest ih =>
    rcases List.append_eq_cons_iff.1 hall with ⟨rfl, hlast⟩ | ⟨more, rfl, hmore⟩
    · obtain ⟨rfl, rfl⟩ := List.cons.inj hlast
      cases hrest with
      | done hdone => exact .done hdone
      | jump hlink _ _ _ => cases hplace.symm.trans hlink
    · exact .step hplace hname (ih hmore.symm)
  | @jump links place last target rest hlink htext hmore hrest ih =>
    subst hall
    exact .jump hlink htext (fun _ => rfl)
      (@ih (target.names ++ target.closing ++ names) (List.append_assoc _ _ _))

end Follows

/-! ## Paths -/

theorem checkText_eq_ok {text : Text} : checkText text = .ok () ↔
    (∀ c ∈ text, c.toNat ≠ 0) ∧ text ≠ [] ∧ text.size ≤ longestPath := by
  have hcut : text.any (·.toNat = 0) = true ↔ ¬ ∀ c ∈ text, c.toNat ≠ 0 := by simp
  unfold checkText
  split
  · rename_i hany
    exact ⟨nofun, fun h => absurd h.1 (hcut.1 hany)⟩
  · rename_i hany
    split
    · rename_i hempty
      exact ⟨nofun, fun h => absurd hempty h.2.1⟩
    · rename_i hne
      split
      · rename_i hsize
        exact ⟨nofun, fun h => absurd hsize (Nat.not_lt.2 h.2.2)⟩
      · rename_i hsize
        exact ⟨fun _ => ⟨not_not.1 (mt hcut.2 hany), hne, Nat.not_lt.1 hsize⟩, fun _ => rfl⟩

/-- A path can be followed, by its names and what they are followed by. -/
structure Reaches (d : Disk) (through : Bool) (p : FilePath) (names : List Text) (last : Location) :
    Prop where
  text : checkText p.text = .ok ()
  follows : d.Follows through mostLinks [] names last

theorem reaches_iff : (∃ s, (do
      checkText p.text
      follow d through mostLinks d.rootSpot names) = .ok s ∧ s.place = last) ↔
    d.Reaches through p names last := by
  have hroot : (∃ s, follow d through mostLinks d.rootSpot names = .ok s ∧ s.place = last) ↔
      d.Follows through mostLinks [] names last := follow_eq_ok_iff d.rootSpot names last
  constructor
  · rintro ⟨s, hs, hlast⟩
    obtain ⟨⟨⟩, htext, hs⟩ := bind_eq_ok.1 hs
    exact ⟨htext, hroot.1 ⟨s, hs, hlast⟩⟩
  · rintro ⟨htext, hfollows⟩
    obtain ⟨s, hs, hlast⟩ := hroot.2 hfollows
    exact ⟨s, bind_eq_ok.2 ⟨(), htext, hs⟩, hlast⟩

theorem spot_eq_ok_iff : (∃ s, d.spot through base p = .ok s ∧ s.place = last) ↔
    d.Reaches through p (p.steps base) last :=
  reaches_iff

theorem find_eq_ok_iff : (∃ s, d.find through base p = .ok s ∧ s.place = last) ↔
    d.Reaches through p (p.steps base ++ p.closing) last :=
  reaches_iff

theorem place_eq_ok_iff : d.place base p = .ok last ↔
    d.Reaches true p (p.steps base ++ p.closing) last ∧ (d.item? last).isSome = true := by
  rw [← find_eq_ok_iff]
  unfold place
  constructor
  · intro h
    obtain ⟨s, hs, h⟩ := bind_eq_ok.1 h
    split at h
    · rename_i hsome
      cases h
      exact ⟨⟨s, hs, rfl⟩, hsome⟩
    · cases h
  · rintro ⟨⟨s, hs, rfl⟩, hsome⟩
    refine bind_eq_ok.2 ⟨s, hs, ?_⟩
    rw [if_pos hsome]
    rfl

theorem kind?_eq_some {kind : Kind} : d.kind? base p = some kind ↔
    ∃ place, d.place base p = .ok place ∧ (d.item? place).map Item.kind = some kind := by
  unfold kind?
  cases d.place base p with
  | error fault => simp
  | ok place => simp

theorem isSome_kind?_iff : (d.kind? base p).isSome = true ↔ ∃ place, d.place base p = .ok place := by
  unfold kind?
  cases hplace : d.place base p with
  | error fault => simp
  | ok place => simp [(place_eq_ok_iff.1 hplace).2]

/-- What a path leads to. -/
def reached? (d : Disk) (base : Location) (p : FilePath) : Option Item :=
  match d.place base p with
  | .ok place => d.item? place
  | .error _ => none

theorem reached?_eq_some {item : Item} : d.reached? base p = some item ↔
    ∃ place, d.place base p = .ok place ∧ d.item? place = some item := by
  unfold reached?
  cases d.place base p with
  | error fault => simp
  | ok place => simp

/-- What the file at a path holds, whether or not it may be read. -/
def content? (d : Disk) (base : Location) (p : FilePath) : Option Bytes :=
  ((d.reached? base p).bind Item.number?).bind fun number => d.contents[number]?

theorem content?_of_reached? {number : Nat} (h : d.reached? base p = some (.file number)) :
    d.content? base p = d.contents[number]? := by
  rw [content?, h]
  rfl

theorem content?_eq_some {content : Bytes} : d.content? base p = some content ↔
    ∃ number, d.reached? base p = some (.file number) ∧ d.contents[number]? = some content := by
  constructor
  · intro h
    obtain ⟨number, hnumber, hcontent⟩ := Option.bind_eq_some_iff.1 h
    obtain ⟨item, hitem, hfile⟩ := Option.bind_eq_some_iff.1 hnumber
    cases item with
    | file _ =>
      cases hfile
      exact ⟨number, hitem, hcontent⟩
    | _ => cases hfile
  · rintro ⟨number, hreached, hcontent⟩
    rw [content?_of_reached? hreached, hcontent]

theorem read_eq_ok {content : Bytes} : d.read base p = .ok content ↔
    ∃ place, d.place base p = .ok place ∧ d.allow .read place = .ok () ∧
      d.get? place = some (.file content) := by
  unfold read
  rw [bind_eq_ok]
  refine exists_congr fun place => and_congr_right fun _ => ?_
  rw [bind_eq_ok]
  constructor
  · rintro ⟨⟨⟩, hallowed, h⟩
    split at h
    · rename_i hfile
      cases h
      exact ⟨hallowed, hfile⟩
    · cases h
  · rintro ⟨hallowed, hfile⟩
    refine ⟨(), hallowed, ?_⟩
    rw [hfile]
    rfl

theorem content?_of_read {content : Bytes} (h : d.read base p = .ok content) :
    d.content? base p = some content := by
  obtain ⟨place, hplace, -, hfile⟩ := read_eq_ok.1 h
  obtain ⟨number, hitem, hcontent⟩ := item?_of_get?_file hfile
  exact content?_eq_some.2 ⟨number, reached?_eq_some.2 ⟨place, hplace, hitem⟩, hcontent⟩

theorem list_eq_ok {entries : List (Text × Kind)} (h : d.list base p = .ok entries) :
    ∃ place, d.place base p = .ok place ∧ d.item? place = some .directory ∧
      entries = d.entries place := by
  obtain ⟨place, hplace, h⟩ := bind_eq_ok.1 h
  obtain ⟨⟨⟩, -, h⟩ := bind_eq_ok.1 h
  refine ⟨place, hplace, ?_⟩
  split at h
  · rename_i hdirectory
    cases h
    exact ⟨hdirectory, rfl⟩
  · cases h

/-! ## Disks that keep what is there -/

/-- What stands on the first disk stands on the second, a file perhaps with another content. The
second has no other links. -/
structure Keeps (d d' : Disk) : Prop where
  item : ∀ {place item}, d.item? place = some item → d'.item? place = some item
  link : ∀ {place target}, d'.item? place = some (.link target) →
    d.item? place = some (.link target)
  length : d.contents.length ≤ d'.contents.length

namespace Keeps

theorem refl (d : Disk) : d.Keeps d := ⟨id, id, Nat.le_refl _⟩

theorem trans {d'' : Disk} (h : d.Keeps d') (h' : d'.Keeps d'') : d.Keeps d'' :=
  ⟨fun hitem => h'.item (h.item hitem), fun hlink => h.link (h'.link hlink),
    Nat.le_trans h.length h'.length⟩

theorem get?_directory (h : d.Keeps d') (hplace : d.get? place = some .directory) :
    d'.get? place = some .directory :=
  get?_of_directory (h.item (item?_of_get?_directory hplace))

theorem isSome (h : d.Keeps d') (hsome : (d.item? place).isSome = true) :
    (d'.item? place).isSome = true := by
  obtain ⟨item, hitem⟩ := Option.isSome_iff_exists.1 hsome
  exact Option.isSome_of_mem (h.item hitem)

/-- Names that can be followed can still be followed. -/
theorem follows (h : d.Keeps d') (hfollows : d.Follows through links start names last) :
    d'.Follows through links start names last := by
  induction hfollows with
  | done hplace => exact .done fun target hlink => hplace target (h.link hlink)
  | step hplace hname _ ih => exact .step (h.item hplace) hname ih
  | jump hlink htext hmore _ ih => exact .jump (h.item hlink) htext hmore ih

theorem reaches (h : d.Keeps d') (hreaches : d.Reaches through p names last) :
    d'.Reaches through p names last :=
  ⟨hreaches.text, h.follows hreaches.follows⟩

theorem leads (h : d.Keeps d') (hplace : d.place base p = .ok last) :
    d'.place base p = .ok last := by
  obtain ⟨hreaches, hsome⟩ := place_eq_ok_iff.1 hplace
  exact place_eq_ok_iff.2 ⟨h.reaches hreaches, h.isSome hsome⟩

theorem reached? (h : d.Keeps d') {item : Item} (hreached : d.reached? base p = some item) :
    d'.reached? base p = some item := by
  obtain ⟨place, hplace, hitem⟩ := reached?_eq_some.1 hreached
  exact reached?_eq_some.2 ⟨place, h.leads hplace, h.item hitem⟩

theorem kind? (h : d.Keeps d') {kind : Kind} (hkind : d.kind? base p = some kind) :
    d'.kind? base p = some kind := by
  obtain ⟨place, hplace, hmap⟩ := kind?_eq_some.1 hkind
  obtain ⟨item, hitem, rfl⟩ := Option.map_eq_some_iff.1 hmap
  exact kind?_eq_some.2 ⟨place, h.leads hplace, by rw [h.item hitem]; rfl⟩

end Keeps
end Disk
end RoutePages
