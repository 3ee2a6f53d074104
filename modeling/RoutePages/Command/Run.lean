import RoutePages.Command.Arguments
import RoutePages.Project.Generate
import RoutePages.Project.Starter
import RoutePages.Route.Inspect

/-!
# Carrying out commands

What a command prints, what it complains of, and its exit code.
-/
namespace RoutePages.Command

structure Outcome where
  exitCode : Nat
  output : Text
  complaint : Text
  deriving DecidableEq

namespace Outcome

/-- The command did what was asked and prints a line. -/
def printed (line : Text) : Outcome := ⟨0, line ++ ['\n'], []⟩

/-- Lines indented by four places. -/
def indented (text : Text) : Text :=
  "    " ++ text.flatMap fun c => if c = '\n' then "\n    " else [c]

/-- A numbered cause, its further lines indented as far as the first. -/
def numbered (index : Nat) (text : Text) : Text :=
  let number := Text.ofNat index
  List.replicate (5 - number.length) ' ' ++ number ++ ": " ++
    text.flatMap fun c => if c = '\n' then "\n       " else [c]

/-- The causes of an error, numbered where there are several. -/
def listed (causes : List Text) : Text :=
  match causes with
  | [cause] => '\n' :: indented cause
  | _ => causes.zipIdx.flatMap fun (cause, index) => '\n' :: numbered index cause

/-- What lies behind an error, if anything does. -/
def behind (causes : List Text) : Text :=
  if causes.isEmpty then [] else "\n\nCaused by:" ++ listed causes

/-- A complaint with what lies behind it. -/
def failed (exitCode : Nat) (message : Text) (causes : List Text) : Outcome where
  exitCode := exitCode
  output := []
  complaint := "Error: " ++ message ++ behind causes ++ "\n"

end Outcome

def generatedLine (r : GenerateReport) : Text :=
  if r.isNoop then "No need to update."
  else
    "ルート生成完了: " ++ Text.ofNat r.files.written.length ++ " ファイル作成, " ++
      Text.ofNat r.files.skipped.length ++ " ファイルスキップ, import " ++
      Text.ofNat r.importsAdded.length ++ " 件追加"

def startedLine (target : FilePath) (files : List FilePath) : Text :=
  "プロジェクト作成完了: " ++ target.quoted ++ " (" ++ Text.ofNat files.length ++ " ファイル)"

/-- There is nothing at the root of the project. -/
def rootMissing (root : FilePath) : Text :=
  "プロジェクトルート " ++ root.quoted ++ " が見つかりません"

variable {m : Type → Type} [Monad m] [Host m]

def runRouter (root : FilePath) (o : Overrides) : m Outcome := do
  match ← (generateAt root o).run with
  | .error e => return .failed e.exitCode e.message []
  | .ok report => return .printed (generatedLine report)

/-- Starts a project in a directory of its name. -/
def runInit (root : FilePath) (name : Text) (title : Option Text) (template : FilePath)
    (force : Bool) : m Outcome := do
  let target := root.join name
  match ← (startProject template target (title.getD name) force).run with
  | .error e => return .failed 1 e.message e.causes
  | .ok files => return .printed (startedLine target files)

def runInspect (root : FilePath) (routes : Option Text) : m Outcome := do
  match ← (ProjectConfig.load root ⟨routes, none⟩).run with
  | .error e => return .failed 1 e.message e.causes
  | .ok config =>
    match ← Host.readText config.routesFile with
    | .error fault =>
      return .failed 1 (config.routesFile.quoted ++ " を読み込めません") [fault.message]
    | .ok source =>
      match ← Host.readTable (.ofFile config.routesFile) source with
      | .error e => return .failed 1 e.message []
      | .ok t => return .printed t.toJson.pretty

/-- Carries out a task. The root of the project has to exist. -/
def run (i : Invocation) : m Outcome := do
  match ← Host.resolve i.projectRoot with
  | .error fault =>
    return .failed 1 (rootMissing i.projectRoot) [fault.message]
  | .ok root =>
    match i.task with
    | .router o => runRouter root o
    | .init name title template force => runInit root name title template force
    | .inspect routes => runInspect root routes

def versionLine : Text := "route-scaffold 0.1.0"

/-- How the command is used. -/
def usageText : Text := Text.lines [
  "ルート定義ファイルからページの雛形を生成し、ルート定義を書き換える CLI ツール",
  "",
  "Usage: route-scaffold [OPTIONS] <COMMAND>",
  "",
  "Commands:",
  "  router [--routes <FILE>] [--template <DIR>]",
  "  init --template <DIR> [--title <TITLE>] [--force] <NAME>",
  "  inspect [--routes <FILE>]",
  "  help [COMMAND]",
  "",
  "Options:",
  "  -r, --project-root <DIR>",
  "  -h, --help",
  "  -V, --version"]

/-- Reads and carries out a command line. Where it is misused, `usage` says how it is meant. -/
def execute (usage : Text) (words : List Text) : m Outcome :=
  match readInvocation words with
  | .ok i => run i
  | .error .version => return .printed versionLine
  | .error .help => return ⟨0, usage, []⟩
  | .error .misuse => return ⟨2, [], usage⟩

end RoutePages.Command
