import RoutePages.Edit.Rewrite
import RoutePages.Page.Write
import RoutePages.Route.Events

/-!
# Generating pages

Reads the route file of a project, writes the pages it asks for, and rewrites it.
Everything that can be refused is refused before the first change. The route file
changes last.
-/
namespace RoutePages

inductive GenerateError where
  | config (cause : ConfigError)
  | parse (path : FilePath) (cause : TableError)
  | edit (cause : EditError)
  | disk (cause : DiskError)

namespace GenerateError

def message : GenerateError → Text
  | config cause => cause.message
  | parse path cause => path.quoted ++ " の解析に失敗しました: " ++ cause.message
  | edit cause => cause.message
  | disk cause => cause.message

/-- The exit code tells the stage that failed. -/
def exitCode : GenerateError → Nat
  | config _ => 2
  | parse _ _ => 3
  | disk _ => 4
  | edit _ => 5

end GenerateError

structure GenerateReport where
  files : WriteReport
  importsAdded : List Text
  /-- was the route file written? -/
  routesUpdated : Bool

def GenerateReport.isNoop (r : GenerateReport) : Bool :=
  r.files.written.isEmpty && !r.routesUpdated

/-- All that is settled before the first change. -/
structure Preparation where
  templates : Templates
  plans : List PagePlan
  rewritten : Rewrite

variable {m : Type → Type} [Monad m] [Host m]

/-- Carries an outcome that needs no host. -/
def decided {ε ε' α : Type} (meaning : ε → ε') (outcome : Except ε α) : ExceptT ε' m α :=
  ExceptT.mk (return outcome.mapError meaning)

/-- Reads and checks everything. -/
def prepare (c : ProjectConfig) : ExceptT GenerateError m Preparation := do
  if !(← Host.isFile (m := m) c.routesFile) then throw (.config (.routesMissing c.routesFile))
  let templates ← ExceptT.adapt .config (Templates.ofDirectory c.templateDirectory)
  let source ← Host.orFail (Host.readText c.routesFile)
    fun fault => .config (.routesUnreadable c.routesFile fault)
  let table ← ExceptT.adapt (.parse c.routesFile)
    (ExceptT.mk (Host.readTable (.ofFile c.routesFile) source))
  let plans ← decided (fun e => .config (.badPlan e))
    (planPages table (.ofTable table c.pagesAlias) c.pagesAlias)
  let rewritten ← decided .edit (rewrite source table plans c.pagesAlias)
  ExceptT.adapt .config (checkOverwrites c.pagesRoot plans)
  return { templates, plans, rewritten }

/-- Writes the route file if it changes. -/
def updateRoutes (c : ProjectConfig) (r : Rewrite) : ExceptT DiskError m Unit := do
  if r.changed then
    Host.report (m := m) (.info (c.routesDisplay ++ " 更新中. . .") [])
    Host.orFail (Host.writeText c.routesFile r.text) (⟨.writeRoutes, c.routesFile, ·⟩)
    Host.report (m := m) (.info (c.routesDisplay ++ " 更新完了") [])

/-- Writes what has been prepared. -/
def commit (c : ProjectConfig) (p : Preparation) : ExceptT DiskError m GenerateReport := do
  let files ← writePages c.pagesRoot p.templates p.plans
  updateRoutes c p.rewritten
  return { files, importsAdded := p.rewritten.importsAdded, routesUpdated := p.rewritten.changed }

def generate (c : ProjectConfig) : ExceptT GenerateError m GenerateReport := do
  let p ← prepare c
  ExceptT.adapt .disk (commit c p)

/-- Reads the settings of a project and generates its pages. -/
def generateAt (root : FilePath) (o : Overrides) : ExceptT GenerateError m GenerateReport := do
  let config ← ExceptT.adapt .config (ProjectConfig.load root o)
  generate config

end RoutePages
