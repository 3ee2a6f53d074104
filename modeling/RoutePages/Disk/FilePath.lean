import RoutePages.Text.Quoted

/-!
# File paths

A path is kept as it was written. Its parts are the names between the slashes;
empty names and `.` are no parts.
-/
namespace RoutePages

structure FilePath where
  text : Text
  deriving DecidableEq

namespace FilePath

def isAbsolute (p : FilePath) : Bool := p.text.head? = some '/'

/-- The names between the slashes of a path, `.` and `..` among them. -/
def names (p : FilePath) : List Text := (Text.splitOn '/' p.text).filter (· ≠ [])

/-- The names to follow for a path, from the root. A relative path starts from `base`. -/
def steps (base : List Text) (p : FilePath) : List Text :=
  (if p.isAbsolute then [] else base) ++ p.names

/-- What follows the names of a path whose last slash asks for a directory. -/
def closing (p : FilePath) : List Text := if p.text.getLast? = some '/' then [['.']] else []

/-- The names of a path but for `.`. -/
def parts (p : FilePath) : List Text := p.names.filter (· ≠ ".")

def ofRoute (absolute : Bool) (names : List Text) : FilePath :=
  ⟨(if absolute then "/" else "") ++ Text.join "/" names⟩

/-- The paths above one that ends in these names, last name first. -/
def aboveRoute (absolute : Bool) : (names : List Text) → List FilePath
  | [] => []
  | [_] => if absolute then [ofRoute absolute []] else []
  | _ :: name :: names =>
    ofRoute absolute (name :: names).reverse :: aboveRoute absolute (name :: names)

/-- The directories that lead to a path, the nearest first. -/
def above (p : FilePath) : List FilePath := aboveRoute p.isAbsolute p.parts.reverse

/-- The path of `name` below a directory. An absolute `name` replaces the directory. -/
def join (dir : FilePath) (name : Text) : FilePath :=
  match name with
  | '/' :: _ => ⟨name⟩
  | _ =>
    match dir.text.getLast? with
    | none | some '/' => ⟨dir.text ++ name⟩
    | some _ => ⟨dir.text ++ '/' :: name⟩

/-- The last part, unless it leads to a parent. -/
def fileName? (p : FilePath) : Option Text :=
  match p.parts.getLast? with
  | some name => if name = ".." then none else some name
  | none => none

/-- What follows the last point of the file name, if something stands before it. -/
def extension? (p : FilePath) : Option Text := do
  let name ← p.fileName?
  let back := name.reverse.takeWhile (· ≠ '.')
  if back.length + 1 < name.length then some back.reverse else none

/-- Goes through names, a `..` leading back by one. -/
def resolveParts : (done : List Text) → List Text → List Text
  | done, [] => done
  | done, name :: names =>
    if name = ".." then resolveParts done.dropLast names else resolveParts (done ++ [name]) names

def ofParts (names : List Text) : FilePath :=
  if names.isEmpty then ⟨"/"⟩ else ⟨names.flatMap ('/' :: ·)⟩

/-- An absolute path without `.`, `..` and repeated slashes, found without looking at a
disk. -/
def clean (p : FilePath) : FilePath := ofParts (resolveParts [] p.parts)

/-- An absolute path each of whose names leads down. -/
structure IsClean (p : FilePath) : Prop where
  absolute : p.isAbsolute = true
  plain : ∀ name ∈ p.names, name ≠ "." ∧ name ≠ ".."

instance (p : FilePath) : Decidable p.IsClean :=
  decidable_of_iff (p.isAbsolute = true ∧ ∀ name ∈ p.names, name ≠ "." ∧ name ≠ "..")
    ⟨fun h => ⟨h.1, h.2⟩, fun h => ⟨h.1, h.2⟩⟩

/-- A path written relative to a project, even where it begins with a slash. -/
def below (root : FilePath) (relative : Text) : FilePath :=
  (root.join (relative.dropWhile fun c => c = '/' || c = '\\')).clean

/-- Do two paths lead through the same names? -/
def sameParts (p q : FilePath) : Bool := p.isAbsolute = q.isAbsolute && p.parts = q.parts

def quoted (p : FilePath) : Text := p.text.quoted

end FilePath
end RoutePages
