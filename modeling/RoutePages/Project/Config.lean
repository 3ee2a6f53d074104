import RoutePages.Host.Basic
import RoutePages.Page.Plan
import RoutePages.Project.Manifest
import RoutePages.Proofs.Disk.Paths

/-!
# Project settings

Where a project keeps its routes, its templates and its pages. The manifest of the
project may name the first two, and a command may overrule it. All paths are
relative to the project, even where they begin with a slash.
-/
namespace RoutePages

inductive ConfigError where
  | manifestUnreadable (path : FilePath) (fault : Fault)
  | badManifest (path : FilePath) (cause : Json.Error)
  | routesMissing (path : FilePath)
  | routesUnreadable (path : FilePath) (fault : Fault)
  | templateUnreadable (path : FilePath) (fault : Fault)
  | badPlan (cause : PlanError)
  /-- a file exists, and its page does not say whether to overwrite it -/
  | undecided (page : PagePath) (path : FilePath)

namespace ConfigError

def message : ConfigError → Text
  | manifestUnreadable path fault => path.quoted ++ " を読み込めません: " ++ fault.message
  | badManifest path cause => path.quoted ++ " の JSON が不正です: " ++ cause.message
  | routesMissing path => "ルートファイル " ++ path.quoted ++ " が存在しません"
  | routesUnreadable path fault =>
    "ルートファイル " ++ path.quoted ++ " を読み込めません: " ++ fault.message
  | templateUnreadable path fault =>
    "テンプレート " ++ path.quoted ++ " を読み込めません: " ++ fault.message
  | badPlan cause => cause.message
  | undecided page path =>
    path.quoted ++ " は既に存在します。ページ " ++ page.display ++
      " に `cover: true` (上書き) か `cover: false` (残す) を指定してください"

/-- What lies behind the error. -/
def causes : ConfigError → List Text
  | manifestUnreadable _ fault | routesUnreadable _ fault | templateUnreadable _ fault =>
    [fault.message]
  | badManifest _ cause => [cause.message]
  | _ => []

end ConfigError

structure Overrides where
  routes : Option Text
  template : Option Text
  deriving DecidableEq

/-- The settings of a project. Its paths are absolute and clean. -/
structure ProjectConfig where
  routesFile : FilePath
  /-- the route file as the settings name it -/
  routesDisplay : Text
  /-- the directory of the project's own templates -/
  templateDirectory : Option FilePath
  pagesRoot : FilePath
  pagesAlias : Text
  routes_clean : routesFile.IsClean
  template_clean : ∀ dir ∈ templateDirectory, dir.IsClean
  pages_clean : pagesRoot.IsClean
  deriving DecidableEq

namespace ProjectConfig

def defaultRoutes : Text := "/src/routes/index.tsx"

/-- The directory of the pages. -/
def pagesPlace : Text := "src/pages"

def defaultAlias : Text := "@/pages"

/-- The settings that follow from the manifest of the project at an absolute path. -/
def ofManifest (root : FilePath) (manifest : Manifest) (o : Overrides) : ProjectConfig :=
  let routes := (o.routes.or manifest.routes).getD defaultRoutes
  { routesFile := root.below routes
    routesDisplay := routes
    templateDirectory := (o.template.or manifest.template).map root.below
    pagesRoot := root.below pagesPlace
    pagesAlias := defaultAlias
    routes_clean := FilePath.isClean_clean _
    template_clean := fun dir found => by
      obtain ⟨_, -, rfl⟩ := Option.map_eq_some_iff.1 found
      exact FilePath.isClean_clean _
    pages_clean := FilePath.isClean_clean _ }

def event (c : ProjectConfig) : Event :=
  let template : Text := match c.templateDirectory with
    | none => "None"
    | some path => "Some(" ++ path.quoted ++ ")"
  .debug "プロジェクト設定を読み込みました" [("routes", c.routesFile.text), ("template", template)]

section

variable {m : Type → Type} [Monad m] [Host m]

/-- Reads the manifest of a project. A project without one gets the defaults. -/
def readManifest (path : FilePath) : ExceptT ConfigError m Manifest := do
  match ← Host.readText (m := m) path with
  | .error .notFound =>
    Host.report (m := m) (.debug "package.json がないため既定値を使います" [("path", path.text)])
    return .empty
  | .error fault => throw (.manifestUnreadable path fault)
  | .ok text =>
    match Manifest.read text with
    | .ok manifest => return manifest
    | .error cause => throw (.badManifest path cause)

/-- The settings of the project below `root`. A relative root starts from the working directory,
which a host always knows. -/
def load (root : FilePath) (o : Overrides) : ExceptT ConfigError m ProjectConfig := do
  let manifest ← readManifest (root.join "package.json")
  let here ← Host.workingDirectory (m := m)
  let config := ofManifest (here.join root.text) manifest o
  Host.report (m := m) config.event
  return config

end

end ProjectConfig
end RoutePages
