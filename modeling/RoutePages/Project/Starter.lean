import RoutePages.Host.DiskError
import RoutePages.Order.Sort

/-!
# Starting a project

Copies the tree of a project template. `PROJECTNAME` in a text file stands for the
display name of the project. The file `.ignore` at the top becomes `.gitignore`.
-/
namespace RoutePages

inductive InitError where
  | templateMissing (path : FilePath)
  | targetExists (path : FilePath)
  /-- a directory of the template cannot be listed -/
  | walk (path : FilePath) (fault : Fault)
  | disk (cause : DiskError)
  deriving DecidableEq

namespace InitError

def walkMessage (path : FilePath) (fault : Fault) : Text :=
  "IO error for operation on " ++ path.text ++ ": " ++ fault.message

def message : InitError → Text
  | templateMissing path => "テンプレートディレクトリ " ++ path.quoted ++ " が存在しません"
  | targetExists path =>
    path.quoted ++ " は既に存在します (上書きする場合は --force を指定してください)"
  | walk path fault => "テンプレートの走査に失敗しました: " ++ walkMessage path fault
  | disk cause => cause.message

/-- What lies behind the error, the nearest cause first. -/
def causes : InitError → List Text
  | templateMissing _ | targetExists _ => []
  | walk path fault => [walkMessage path fault, fault.message]
  | disk cause => [cause.fault.message]

end InitError

/-- The name that a project template holds in place of the project's. -/
def projectName : Text := "PROJECTNAME"

/-- The content of a copy. What is no text is copied as it is. -/
def fillIn (title : Text) (content : Bytes) : Bytes :=
  match Utf8.decode? content with
  | some text => Utf8.encode (text.replace projectName title)
  | none => content

/-- Something met on the way through a tree: its path, and the names that lead to it from the
top of the tree. -/
structure Met where
  path : FilePath
  names : List Text
  kind : Kind

/-- What is met in a directory, under a name. -/
def Met.child (dir : Met) (name : Text) (kind : Kind) : Met :=
  ⟨dir.path.join name, dir.names ++ [name], kind⟩

section

variable {m : Type → Type} [Monad m] [Host m]

/-- Copies a file, and gives the path of the copy. -/
def copyFile (target : FilePath) (title : Text) (file : Met) :
    ExceptT InitError m (List FilePath) := do
  let copy := target.join (Text.join "/" file.names)
  let content ← Host.orFail (Host.read file.path)
    fun fault => .disk ⟨.readTemplate, file.path, fault⟩
  Host.orFail (Host.write copy (fillIn title content)) fun fault => .disk ⟨.writeFile, copy, fault⟩
  Host.report (m := m) (.debug "コピーしました" [("file", copy.text)])
  return [copy]

/-- Copies what is met, and all below it in the order of names. A directory is listed before
its copy is made. `room` bounds the depth; names take room in a path, which is bounded. -/
def copyTree (target : FilePath) (title : Text) :
    (room : Nat) → Met → ExceptT InitError m (List FilePath)
  | 0, met => throw (.walk met.path .nameTooLong)
  | room + 1, met =>
    match met.kind with
    | .file => copyFile target title met
    | .directory => do
      let listed ← Host.list (m := m) met.path
      let copy := target.join (Text.join "/" met.names)
      Host.orFail (Host.makeDirectories copy) fun fault => .disk ⟨.makeDirectory, copy, fault⟩
      match listed with
      | .error fault => throw (.walk met.path fault)
      | .ok entries =>
        let children := sortBy (fun a b => Text.precedes a.1 b.1) entries
        let copies ← children.mapM fun (name, kind) =>
          copyTree target title room (met.child name kind)
        return copies.flatten

/-- The depth that no path reaches. -/
def deepest : Nat := 4096

/-- Gives the file `.ignore` of a project its proper name, also among the copies. -/
def unhide (target : FilePath) (copies : List FilePath) : ExceptT InitError m (List FilePath) := do
  let ignore := target.join ".ignore"
  let proper := target.join ".gitignore"
  if ← Host.isFile (m := m) ignore then
    Host.orFail (Host.rename ignore proper) fun fault => .disk ⟨.rename, ignore, fault⟩
    return copies.map fun copy => if copy.sameParts ignore then proper else copy
  else return copies

/-- Starts a project at `target`, and gives the paths of its files. An existing target has to
be asked for by `force`. -/
def startProject (template target : FilePath) (title : Text) (force : Bool) :
    ExceptT InitError m (List FilePath) := do
  if !(← Host.isDirectory (m := m) template) then throw (.templateMissing template)
  if (← Host.exists? (m := m) target) && !force then throw (.targetExists target)
  -- a link to a directory is not walked through, but copied as if it were a file
  let kind := if ← Host.isLink (m := m) template then .file else .directory
  let copies ← copyTree target title deepest ⟨template, [], kind⟩
  unhide target copies

end
end RoutePages
