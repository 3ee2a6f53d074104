import RoutePages.Disk.Access

/-!
# A host in memory

A disk, the directory that relative paths start from, and the events reported so
far.
-/
namespace RoutePages

/-- All that a command can see and change. -/
structure World where
  disk : Disk
  workingDirectory : Location
  /-- the events reported, in order -/
  log : List Event

namespace World

def look {α : Type} (see : Disk → Location → α) : StateM World α :=
  fun w => (see w.disk w.workingDirectory, w)

/-- Changes the disk, or leaves it as it is. -/
def change (step : Disk → Location → Except Fault Disk) : StateM World (Except Fault Unit) :=
  fun w =>
    match step w.disk w.workingDirectory with
    | .ok disk => (.ok (), { w with disk })
    | .error fault => (.error fault, w)

instance : Host (StateM World) where
  kind? p := look (Disk.kind? · · p)
  isLink p := look (Disk.isLink · · p)
  workingDirectory := look fun _ base => .ofParts base
  read p := look (Disk.read · · p)
  write p content := change (Disk.write · · p content)
  makeDirectory p := change (Disk.makeDirectory · · p)
  list p := look (Disk.list · · p)
  rename p q := change (Disk.rename · · p q)
  resolve p := look (Disk.resolve · · p)
  report event := fun w => ((), { w with log := w.log ++ [event] })

end World
end RoutePages
