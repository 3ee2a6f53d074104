import RoutePages.Host.Basic

/-!
# Failed changes of files
-/
namespace RoutePages

/-- What was to be done to a file. -/
inductive DiskAction where
  | makeDirectory
  | readTemplate
  | writeFile
  | writeRoutes
  | rename
  deriving DecidableEq

def DiskAction.message : DiskAction → Text
  | makeDirectory => "ディレクトリを作成できません"
  | readTemplate => "テンプレートを読み込めません"
  | writeFile => "ファイルを書き込めません"
  | writeRoutes => "ルートファイルを書き込めません"
  | rename => "リネームできません"

/-- An action on a path that failed. What was done before it stays done. -/
structure DiskError where
  action : DiskAction
  path : FilePath
  fault : Fault
  deriving DecidableEq

def DiskError.message (e : DiskError) : Text :=
  e.action.message ++ " " ++ e.path.quoted ++ ": " ++ e.fault.message

end RoutePages
