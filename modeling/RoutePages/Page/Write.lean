import RoutePages.Host.DiskError
import RoutePages.Page.Template
import RoutePages.Project.Config

/-!
# Writing pages

The files of planned pages, in the order of the plans. A file that exists is
written again only if its plan says so. A plan that says nothing must not meet an
existing file.
-/
namespace RoutePages

/-- What became of a file of a page. -/
inductive FileOutcome where
  | written (path : FilePath)
  /-- the file was there before and stays as it is -/
  | skipped (path : FilePath)
  deriving DecidableEq

namespace FileOutcome

def written? : FileOutcome → Option FilePath
  | written path => some path
  | skipped _ => none

def skipped? : FileOutcome → Option FilePath
  | written _ => none
  | skipped path => some path

end FileOutcome

structure WriteReport where
  outcomes : List FileOutcome
  deriving DecidableEq

namespace WriteReport

def written (r : WriteReport) : List FilePath := r.outcomes.filterMap FileOutcome.written?

def skipped (r : WriteReport) : List FilePath := r.outcomes.filterMap FileOutcome.skipped?

end WriteReport

variable {m : Type → Type} [Monad m] [Host m]

/-- The templates in a directory, all of which have to be there. -/
def Templates.load (dir : FilePath) : ExceptT ConfigError m Templates := do
  let read (name : Text) : ExceptT ConfigError m Text :=
    Host.orFail (Host.readText (dir.join name)) (.templateUnreadable (dir.join name))
  let blank ← read PageFile.component.name
  let table ← read "table.tsx"
  let service ← read PageFile.service.name
  return ⟨blank, table, service⟩

/-- The templates of a project, or the bundled ones. -/
def Templates.ofDirectory : Option FilePath → ExceptT ConfigError m Templates
  | some dir => load dir
  | none => return bundled

/-- The first of some files that exists. -/
def firstExisting : List FilePath → m (Option FilePath)
  | [] => return none
  | path :: rest => do
    if ← Host.exists? path then return some path
    firstExisting rest

/-- Refuses a file of an undecided page that exists already. -/
def checkOverwrites (pagesRoot : FilePath) : List PagePlan → ExceptT ConfigError m Unit
  | [] => return ()
  | plan :: rest => do
    if plan.cover.isNone then
      match ← firstExisting (m := m) (plan.files.map (·.path plan pagesRoot)) with
      | some path => throw (.undecided plan.page path)
      | none => checkOverwrites pagesRoot rest
    else checkOverwrites pagesRoot rest

def PageFile.label (f : PageFile) (plan : PagePlan) : Text := plan.componentName ++ '/' :: f.name

/-- Writes a file of a page, or leaves the one that is there. -/
def writePageFile (pagesRoot : FilePath) (t : Templates) (plan : PagePlan) (f : PageFile) :
    ExceptT DiskError m FileOutcome := do
  let path := f.path plan pagesRoot
  if (← Host.exists? (m := m) path) && plan.cover != some true then
    Host.report (m := m) (.info (f.name ++ " は既に存在するためスキップします")
      [("page", plan.page.display)])
    return .skipped path
  else
    Host.report (m := m) (.info (f.label plan ++ " 作成中. . .") [])
    Host.orFail (Host.writeText path (f.text t plan)) (⟨.writeFile, path, ·⟩)
    Host.report (m := m) (.info (f.label plan ++ " 作成完了") [])
    return .written path

def writePage (pagesRoot : FilePath) (t : Templates) (plan : PagePlan) :
    ExceptT DiskError m (List FileOutcome) := do
  let dir := plan.page.directory pagesRoot
  Host.orFail (Host.makeDirectories dir) (⟨.makeDirectory, dir, ·⟩)
  plan.files.mapM (writePageFile pagesRoot t plan)

/-- Writes the files of all pages. The first failure ends it. -/
def writePages (pagesRoot : FilePath) (t : Templates) (plans : List PagePlan) :
    ExceptT DiskError m WriteReport := do
  return ⟨(← plans.mapM (writePage pagesRoot t)).flatten⟩

end RoutePages
