import RoutePages.Disk.Basic

/-!
# Reaching what is on a disk

A path is followed name by name. Each step starts from a directory, so a path may
fail long before its last name. At a link, the names of its target come first. A path whose last
name is missing can still be used to make something.
-/
namespace RoutePages.Disk

/-- The longest name that a disk keeps, in bytes. -/
def longestName : Nat := 255

/-- The longest path that can be followed, in bytes. -/
def longestPath : Nat := 4095

/-- The number of links that a path may lead through. -/
def mostLinks : Nat := 40

def rootSpot (d : Disk) : Spot d := ⟨[], rfl, nofun⟩

namespace Spot

variable {d : Disk}

def up (s : Spot d) : Spot d where
  place := s.place.dropLast
  parent := d.dropLast_parent (by simp [s.parent])
  named := fun name h => s.named name (List.dropLast_subset _ h)

def down (s : Spot d) (name : Text) (dir : d.item? s.place = some .directory)
    (proper : IsFileName name) : Spot d where
  place := s.place ++ [name]
  parent := by simpa using dir
  named := List.forall_mem_append.2 ⟨s.named, List.forall_mem_singleton.2 proper⟩

end Spot

/-- Can a path of this text be followed at all? -/
def checkText (text : Text) : Except Fault Unit :=
  if text.any (·.toNat = 0) then .error .cutPath
  else if text = [] then .error .notFound
  else if longestPath < text.size then .error .nameTooLong
  else .ok ()

/-- Follows names as far as a link, where `jump` goes on. A link at the end is left alone unless
`through` asks for what it leads to. -/
def along (d : Disk) (through : Bool)
    (jump : Spot d → FilePath → List Text → Except Fault (Spot d)) (here : Spot d) :
    List Text → Except Fault (Spot d)
  | [] =>
    match d.item? here.place with
    | some (.link target) => if through then jump here target [] else .ok here
    | _ => .ok here
  | name :: names =>
    match found : d.item? here.place with
    | none => .error .notFound
    | some (.file _) => .error .notDirectory
    | some (.link target) => jump here target (name :: names)
    | some .directory =>
      if name = "." then along d through jump here names
      else if name = ".." then along d through jump here.up names
      else if longestName < Text.size name then .error .nameTooLong
      else if proper : IsFileName name then along d through jump (here.down name found proper) names
      else .error .notFound

/-- Follows names from a location, through a number of links at most. -/
def follow (d : Disk) (through : Bool) : (links : Nat) → Spot d → List Text → Except Fault (Spot d)
  | 0 => along d through fun _ _ _ => .error .manyLinks
  | links + 1 => along d through fun here target names => do
    checkText target.text
    follow d through links (if target.isAbsolute then d.rootSpot else here.up)
      (target.names ++ target.closing ++ names)

/-- The location of a path, its last name being perhaps still to be made. -/
def spot (d : Disk) (through : Bool) (base : Location) (p : FilePath) : Except Fault (Spot d) := do
  checkText p.text
  follow d through mostLinks d.rootSpot (p.steps base)

/-- The spot of what a path leads to, which may be nothing. -/
def find (d : Disk) (through : Bool) (base : Location) (p : FilePath) : Except Fault (Spot d) := do
  checkText p.text
  follow d through mostLinks d.rootSpot (p.steps base ++ p.closing)

/-- The location of a path that leads to something. -/
def place (d : Disk) (base : Location) (p : FilePath) : Except Fault Location := do
  let s ← d.find true base p
  if (d.item? s.place).isSome then return s.place else throw .notFound

def kind? (d : Disk) (base : Location) (p : FilePath) : Option Kind :=
  match d.place base p with
  | .ok place => (d.item? place).map Item.kind
  | .error _ => none

def isLink (d : Disk) (base : Location) (p : FilePath) : Bool :=
  match d.find false base p with
  | .ok s => ((d.item? s.place).bind Item.target?).isSome
  | .error _ => false

def allow (d : Disk) (access : Access) (place : Location) : Except Fault Unit :=
  match d.refusal? d.items d.contents access place with
  | some fault => .error fault
  | none => .ok ()

def read (d : Disk) (base : Location) (p : FilePath) : Except Fault Bytes := do
  let place ← d.place base p
  d.allow .read place
  match d.get? place with
  | some (.file content) => return content
  | _ => throw .isDirectory

/-- Makes a file at a spot, or replaces what the file there holds. -/
def writeAt (d : Disk) (s : Spot d) (content : Bytes) : Except Fault Disk :=
  match found : d.item? s.place with
  | none => .ok (d.put s (.file d.contents.length) (d.contents ++ [content]) (by simp [found])
    (by simp) (by simp))
  | some (.file number) => .ok (d.fill number content)
  | some _ => .error .isDirectory

/-- Makes the file at a path, or replaces what it holds. -/
def write (d : Disk) (base : Location) (p : FilePath) (content : Bytes) : Except Fault Disk := do
  let s ← d.spot true base p
  d.allow .change s.place
  d.writeAt s content

/-- Makes a directory at a path where nothing is. -/
def makeDirectory (d : Disk) (base : Location) (p : FilePath) : Except Fault Disk := do
  let s ← d.spot false base p
  if free : d.item? s.place = none then
    d.allow .change s.place
    return d.put s .directory d.contents (by simp [free]) (Nat.le_refl _) nofun
  else throw .alreadyExists

/-- Makes a link to a target at a path where nothing is. -/
def makeLink (d : Disk) (base : Location) (p target : FilePath) : Except Fault Disk := do
  let s ← d.spot false base p
  if free : d.item? s.place = none then
    d.allow .change s.place
    return d.put s (.link target) d.contents (by simp [free]) (Nat.le_refl _) nofun
  else throw .alreadyExists

def list (d : Disk) (base : Location) (p : FilePath) : Except Fault (List (Text × Kind)) := do
  let place ← d.place base p
  d.allow .read place
  match d.item? place with
  | some .directory => return d.entries place
  | _ => throw .notDirectory

/-- Gives what stands at a path another path, where it replaces what is no directory. A file that
has both already keeps them. -/
def rename (d : Disk) (base : Location) (source target : FilePath) : Except Fault Disk := do
  let s ← d.find false base source
  match found : d.item? s.place with
  | none => throw .notFound
  | some .directory => throw .isDirectory
  | some item =>
    let t ← d.spot false base target
    d.allow .change s.place
    d.allow .change t.place
    if free : d.item? t.place ≠ some .directory then
      if s.place = t.place ∨ item.number?.isSome ∧ d.item? t.place = some item then return d
      else return (d.put t item d.contents free (Nat.le_refl _)
        fun _ same => d.number_lt (same ▸ found)).remove s.place
    else throw .isDirectory

/-- The absolute path of what a path leads to. -/
def resolve (d : Disk) (base : Location) (p : FilePath) : Except Fault FilePath := do
  let place ← d.place base p
  return .ofParts place

end RoutePages.Disk
