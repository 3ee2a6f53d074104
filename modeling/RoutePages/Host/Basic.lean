import RoutePages.Disk.FilePath
import RoutePages.Host.Event
import RoutePages.Host.Fault
import RoutePages.Text.Utf8

/-!
# Hosts

The commands of this library run on any host that gives access to files and takes
reports. A disk held in memory is one, the machine is another.
-/
namespace RoutePages

inductive Kind where
  | directory
  | file
  deriving DecidableEq

class Host (m : Type → Type) where
  /-- what stands at a path, if anything can be reached there -/
  kind? : FilePath → m (Option Kind)
  /-- is there a link at the path itself? -/
  isLink : FilePath → m Bool
  /-- where relative paths start -/
  workingDirectory : m FilePath
  read : FilePath → m (Except Fault Bytes)
  write : FilePath → Bytes → m (Except Fault Unit)
  makeDirectory : FilePath → m (Except Fault Unit)
  list : FilePath → m (Except Fault (List (Text × Kind)))
  /-- gives a file another path -/
  rename : FilePath → FilePath → m (Except Fault Unit)
  /-- the absolute path, without `.` and `..`, of something that exists -/
  resolve : FilePath → m (Except Fault FilePath)
  report : Event → m Unit

namespace Host

variable {m : Type → Type} [Monad m] [Host m]

def exists? (p : FilePath) : m Bool := return (← kind? p).isSome

def isFile (p : FilePath) : m Bool := return (← kind? p) = some .file

def isDirectory (p : FilePath) : m Bool := return (← kind? p) = some .directory

/-- Reads a file that has to be text. -/
def readText (p : FilePath) : m (Except Fault Text) := do
  match ← read p with
  | .error fault => return .error fault
  | .ok bytes =>
    match Utf8.decode? bytes with
    | some text => return .ok text
    | none => return .error .notText

def writeText (p : FilePath) (text : Text) : m (Except Fault Unit) := write p (Utf8.encode text)

/-- The outcome of making a directory, which is fine where there is one already. -/
def settle (p : FilePath) : Except Fault Unit → m (Except Fault Unit)
  | .ok () => return .ok ()
  | .error fault => return if ← isDirectory p then .ok () else .error fault

/-- Makes a directory, and those above it where they are missing. -/
def makeWithin : (above : List FilePath) → FilePath → m (Except Fault Unit)
  | [], p => do settle p (← makeDirectory p)
  | parent :: above, p => do
    match ← makeDirectory p with
    | .error .notFound =>
      match ← makeWithin above parent with
      | .error fault => return .error fault
      | .ok () => settle p (← makeDirectory p)
    | outcome => settle p outcome

/-- Makes a directory with all that leads to it. The empty path asks for nothing. -/
def makeDirectories (p : FilePath) : m (Except Fault Unit) :=
  if p.text = [] then return .ok () else makeWithin p.above p

/-- Runs an operation on files, and says what its failure means. -/
def orFail {ε α : Type} (operation : m (Except Fault α)) (meaning : Fault → ε) : ExceptT ε m α :=
  ExceptT.mk do return (← operation).mapError meaning

end Host
end RoutePages
