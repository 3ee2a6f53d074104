import RoutePages.Host.Basic

/-!
# Disks

A disk holds directories, files and links at locations. Whatever is on a disk stands in a
directory, and the root is always there. A file is known by its number, so one file may stand at
several locations. A disk may refuse to be read or changed.
-/
namespace RoutePages

/-- The names that lead from the root to a place on a disk. -/
abbrev Location := List Text

/-- Can a file or a directory have this name? -/
def IsFileName (name : Text) : Prop := name ≠ [] ∧ '/' ∉ name ∧ name ≠ "." ∧ name ≠ ".."

instance (name : Text) : Decidable (IsFileName name) := inferInstanceAs (Decidable (_ ∧ _))

/-- A directory, or a file with what it holds. -/
inductive Node where
  | directory
  | file (content : Bytes)
  deriving DecidableEq

def Node.kind : Node → Kind
  | directory => .directory
  | file _ => .file

namespace Disk

/-- What stands at a location. -/
inductive Item where
  | directory
  | file (number : Nat)
  /-- leads on to another path -/
  | link (target : FilePath)
  deriving DecidableEq

/-- What is called a directory where a directory is listed. -/
def Item.kind : Item → Kind
  | directory => .directory
  | file _ | link _ => .file

def Item.number? : Item → Option Nat
  | file number => some number
  | directory | link _ => none

def Item.target? : Item → Option FilePath
  | link target => some target
  | directory | file _ => none

/-- What is done at a location. -/
inductive Access where
  | read
  | change
  deriving DecidableEq

/-- What stands at a location, given all that is on the disk. -/
def itemAt? (items : List (Location × Item)) (place : Location) : Option Item :=
  if place = [] then some .directory else items.lookup place

end Disk

/-- All that is on a disk. -/
structure Disk where
  items : List (Location × Disk.Item)
  /-- what the files hold, by their numbers -/
  contents : List Bytes
  /-- the fault with which an access is refused, given all that is on the disk -/
  refusal? : List (Location × Disk.Item) → List Bytes → Disk.Access → Location → Option Fault
  /-- what holds something is a directory -/
  closed : ∀ place name, (Disk.itemAt? items (place ++ [name])).isSome →
    Disk.itemAt? items place = some .directory
  distinct : (items.map Prod.fst).Nodup
  named : ∀ entry ∈ items, ∀ name ∈ entry.1, IsFileName name
  numbered : ∀ entry ∈ items, ∀ number, entry.2 = .file number → number < contents.length

namespace Disk

def item? (d : Disk) (place : Location) : Option Item := itemAt? d.items place

theorem item?_root (d : Disk) : d.item? [] = some .directory := rfl

/-- The directory or the file that something is, unless it leads on. -/
def node? (d : Disk) : Item → Option Node
  | .directory => some .directory
  | .file number => d.contents[number]?.map .file
  | .link _ => none

/-- The directory or the file at a location. -/
def get? (d : Disk) (place : Location) : Option Node := (d.item? place).bind d.node?

def nodes (d : Disk) : List (Location × Node) :=
  d.items.filterMap fun (place, item) => (d.node? item).map (place, ·)

theorem parent_of_isSome (d : Disk) {place : Location} {name : Text}
    (h : (d.item? (place ++ [name])).isSome) : d.item? place = some .directory :=
  d.closed place name h

/-- A location other than the root is a name in its parent. -/
theorem dropLast_parent (d : Disk) {place : Location} (h : (d.item? place).isSome) :
    d.item? place.dropLast = some .directory := by
  rcases List.eq_nil_or_concat place with rfl | ⟨dir, name, rfl⟩
  · rfl
  · simpa using d.parent_of_isSome (by simpa using h)

theorem mem_items_of_item? (d : Disk) {place : Location} {item : Item}
    (h : d.item? place = some item) (hplace : place ≠ []) : (place, item) ∈ d.items := by
  rw [item?, itemAt?, if_neg hplace, List.lookup_eq_some_iff] at h
  obtain ⟨before, after, hitems, -⟩ := h
  rw [hitems]
  exact List.mem_append_right _ List.mem_cons_self

/-- What leads to something on a disk are names of files. -/
theorem isFileName (d : Disk) {place : Location} (h : (d.item? place).isSome) :
    ∀ name ∈ place, IsFileName name := by
  intro name hname
  obtain ⟨item, hitem⟩ := Option.isSome_iff_exists.1 h
  exact d.named _ (d.mem_items_of_item? hitem (List.ne_nil_of_mem hname)) name hname

theorem number_lt (d : Disk) {place : Location} {number : Nat}
    (h : d.item? place = some (.file number)) : number < d.contents.length := by
  have hne : place ≠ [] := by
    rintro rfl
    cases h
  exact d.numbered _ (d.mem_items_of_item? h hne) number rfl

def empty : Disk where
  items := []
  contents := []
  refusal? := fun _ _ _ _ => none
  closed := fun place name h => by simp [itemAt?] at h
  distinct := .nil
  named := nofun
  numbered := nofun

/-- A location whose directory exists, whether or not something stands there. -/
structure Spot (d : Disk) where
  place : Location
  parent : d.item? place.dropLast = some .directory
  named : ∀ name ∈ place, IsFileName name

theorem lookup_filter (keep : Location → Bool) (items : List (Location × Item))
    (place : Location) :
    (items.filter (keep ·.1)).lookup place = if keep place then items.lookup place else none := by
  induction items with
  | nil => simp
  | cons entry items ih =>
    obtain ⟨other, item⟩ := entry
    by_cases same : place = other
    · subst same
      by_cases kept : keep place = true <;> simp [List.filter, kept, ih]
    · have apart : (place == other) = false := by simpa using same
      by_cases kept : keep other = true <;> simp [List.filter, kept, List.lookup_cons, apart, ih]

theorem itemAt?_cons (items : List (Location × Item)) (place other : Location) (item : Item) :
    itemAt? ((place, item) :: items.filter (·.1 != place)) other =
      if other = [] then some .directory
      else if other = place then some item
      else itemAt? items other := by
  unfold itemAt?
  by_cases root : other = []
  · simp [root]
  · by_cases same : other = place
    · simp [same]
    · have apart : (other == place) = false := by simpa using same
      simp only [root, same, if_false, List.lookup_cons, apart]
      rw [lookup_filter (· != place)]
      simp [same]

theorem distinct_filter (d : Disk) (keep : Location × Item → Bool) :
    ((d.items.filter keep).map Prod.fst).Nodup :=
  d.distinct.sublist (List.filter_sublist.map _)

/-- Puts something at a spot where no directory is. There may be more files then. -/
def put (d : Disk) (s : Spot d) (item : Item) (contents : List Bytes)
    (free : d.item? s.place ≠ some .directory) (more : d.contents.length ≤ contents.length)
    (numbered : ∀ number, item = .file number → number < contents.length) : Disk where
  items := (s.place, item) :: d.items.filter (·.1 != s.place)
  contents := contents
  refusal? := d.refusal?
  closed := by
    intro dir name h
    rw [itemAt?_cons] at h ⊢
    by_cases same : dir ++ [name] = s.place
    · have : dir ≠ s.place := fun e => by simpa [e] using congrArg List.length same
      have parent := s.parent
      rw [← same, List.dropLast_concat] at parent
      by_cases root : dir = []
      · simp [root]
      · rw [if_neg root, if_neg this]
        exact parent
    · have below : d.item? dir = some .directory := d.closed dir name (by simpa [same] using h)
      have : dir ≠ s.place := fun e => free (e ▸ below)
      by_cases root : dir = []
      · simp [root]
      · rw [if_neg root, if_neg this]
        exact below
  distinct := by
    rw [List.map_cons, List.nodup_cons]
    refine ⟨fun again => ?_, d.distinct_filter _⟩
    obtain ⟨entry, member, same⟩ := List.mem_map.1 again
    exact bne_iff_ne.1 (List.mem_filter.1 member).2 same
  named := List.forall_mem_cons.2
    ⟨s.named, fun entry member => d.named entry (List.mem_filter.1 member).1⟩
  numbered := List.forall_mem_cons.2 ⟨numbered, fun entry member number same =>
    Nat.lt_of_lt_of_le (d.numbered entry (List.mem_filter.1 member).1 number same) more⟩

def fill (d : Disk) (number : Nat) (content : Bytes) : Disk :=
  { d with
    contents := d.contents.set number content
    numbered := fun entry member other same => by
      rw [List.length_set]
      exact d.numbered entry member other same }

/-- The disk without what is at a place and below it. -/
def remove (d : Disk) (place : Location) : Disk where
  items := d.items.filter fun entry => !place.isPrefixOf entry.1
  contents := d.contents
  refusal? := d.refusal?
  closed := by
    intro dir name h
    have root : dir ++ [name] ≠ [] := by simp
    rw [itemAt?, if_neg root, lookup_filter (fun other => !place.isPrefixOf other)] at h
    by_cases below : place.isPrefixOf (dir ++ [name]) = true
    · simp [below] at h
    · have above : place.isPrefixOf dir = false := by
        rw [Bool.eq_false_iff, ne_eq, List.isPrefixOf_iff_prefix] at *
        exact fun h => below (h.trans (List.prefix_append _ _))
      have kept := d.closed dir name (by simpa [itemAt?, below] using h)
      by_cases top : dir = []
      · simp [itemAt?, top]
      · rw [itemAt?, if_neg top] at kept ⊢
        rw [lookup_filter (fun other => !place.isPrefixOf other)]
        simpa [above] using kept
  distinct := d.distinct_filter _
  named := fun entry member => d.named entry (List.mem_filter.1 member).1
  numbered := fun entry member => d.numbered entry (List.mem_filter.1 member).1

def entries (d : Disk) (dir : Location) : List (Text × Kind) :=
  d.items.filterMap fun (place, item) =>
    match place.getLast? with
    | some name => if place.dropLast = dir then some (name, item.kind) else none
    | none => none

end Disk
end RoutePages
