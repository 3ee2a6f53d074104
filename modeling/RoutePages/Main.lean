import RoutePages.Command.Run

/-!
# The command on a machine

Runs the commands on the files of the machine. Reports go to the standard output,
as far as the variable `ROUTE_SCAFFOLD_LOG` lets them through.
-/
namespace RoutePages

/-- The fault that a code of the machine stands for. Codes may come with a minus sign. -/
def faultOfCode? (code : UInt32) : Option Fault :=
  let code := min code (0 - code)
  if code = 2 then some .notFound
  else if code = 17 then some .alreadyExists
  else if code = 20 then some .notDirectory
  else if code = 21 then some .isDirectory
  else if code = 36 then some .nameTooLong
  else if code = 40 then some .manyLinks
  else none

/-- The fault that an error of the machine is. -/
def faultOfError (e : IO.Error) : Fault :=
  let code : UInt32 := match e with
    | .alreadyExists _ code _ | .noFileOrDirectory _ code _ | .invalidArgument _ code _
    | .inappropriateType _ code _ | .noSuchThing _ code _ | .resourceExhausted _ code _ => code
    | .otherError code _ => code
    | _ => 0
  (faultOfCode? code).getD (.other (toString e).toList)

/-- Commands on a machine, and what they may log. -/
abbrev Machine := ReaderT LogFilter IO

namespace Machine

/-- An operation of the machine, with its faults. -/
def attempt {α : Type} (operation : IO α) : Machine (Except Fault α) := do
  match ← operation.toBaseIO with
  | .ok a => return .ok a
  | .error e => return .error (faultOfError e)

def name (p : FilePath) : String := String.ofList p.text

/-- What stands at a path. An empty path leads nowhere. -/
def kindAt (p : FilePath) : IO (Option Kind) := do
  if p.text.isEmpty then return none
  match ← ((← IO.currentDir) / name p).metadata.toBaseIO with
  | .ok found => return some (if found.type == .dir then .directory else .file)
  | .error _ => return none

/-- What stands at a path itself, be it a link. -/
def typeAt (p : FilePath) : IO (Option IO.FS.FileType) := do
  if p.text.isEmpty then return none
  match ← ((← IO.currentDir) / name p).symlinkMetadata.toBaseIO with
  | .ok found => return some found.type
  | .error _ => return none

def isLinkAt (p : FilePath) : IO Bool := do
  let type ← typeAt p
  return type == some .symlink

def listAt (p : FilePath) : IO (List (Text × Kind)) := do
  let found ← ((← IO.currentDir) / name p).readDir
  found.toList.mapM fun entry => do
    let type ← typeAt (p.join entry.fileName)
    return (entry.fileName.toList, if type == some .dir then .directory else .file)

instance : Host Machine where
  kind? p := liftM (kindAt p)
  isLink p := liftM (isLinkAt p)
  workingDirectory := liftM do return ⟨(← IO.currentDir).toString.toList⟩
  read p := attempt do return (← IO.FS.readBinFile (name p)).toList
  write p content := attempt (IO.FS.writeBinFile (name p) ⟨content.toArray⟩)
  makeDirectory p := attempt (IO.FS.createDir (name p))
  list p := attempt (listAt p)
  rename p q := attempt (IO.FS.rename (name p) (name q))
  resolve p := attempt do return ⟨(← IO.FS.realPath (name p)).toString.toList⟩
  report event := do
    if (← read).admits event then IO.println (String.ofList event.line)

end Machine
end RoutePages

/-- Reads the command line and carries it out. -/
def main (words : List String) : IO UInt32 := do
  let filter := RoutePages.LogFilter.ofText ((← IO.getEnv "ROUTE_SCAFFOLD_LOG").getD "info").toList
  let o ← (RoutePages.Command.execute RoutePages.Command.usageText
    (words.map String.toList) : RoutePages.Machine RoutePages.Command.Outcome).run filter
  IO.print (String.ofList o.output)
  IO.eprint (String.ofList o.complaint)
  return o.exitCode.toUInt32
