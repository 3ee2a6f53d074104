import RoutePages.Disk.FilePath
import RoutePages.Text.Trim

/-!
# Page paths

A page path leads from the page root to a page. Its segments are nonempty and
trimmed, hold no slash, and are neither `.` nor `..`; the root has none.
-/
namespace RoutePages

/-- Why a text is no page path, or gives no name. -/
inductive PathFault where
  | noIdentifier
  | notIdentifier
  | leavesRoot
  | empty
  deriving DecidableEq

structure InvalidPath where
  path : Text
  fault : PathFault
  deriving DecidableEq

def PathFault.message : PathFault → Text
  | noIdentifier => "空のパスからは識別子を作れません"
  | notIdentifier =>
    "JavaScript の識別子にならないパスです (英数字・`_`・`$` のみ、先頭は数字以外)"
  | leavesRoot => "`..` でページディレクトリの外を指すことはできません"
  | empty => "空のパスです"

def InvalidPath.message (e : InvalidPath) : Text :=
  "無効なコンポーネントパス " ++ e.path.quoted ++ ": " ++ e.fault.message

/-- Can the text be one step from a page directory to the next? -/
def IsSegment (s : Text) : Prop :=
  s ≠ [] ∧ '/' ∉ s ∧ Text.trim s = s ∧ s ≠ "." ∧ s ≠ ".."

/-- The way from the page root to a page. -/
structure PagePath where
  segments : List Text
  valid : ∀ s ∈ segments, IsSegment s
  deriving DecidableEq

namespace PagePath

def root : PagePath := ⟨[], by simp⟩

/-- The trimmed texts between the slashes. -/
def pieces (raw : Text) : List Text := (Text.splitOn '/' raw).map Text.trim

/-- Is the piece a step, and not just a repeated slash or a `.`? -/
def isStep (s : Text) : Bool := s ≠ [] && s ≠ "."

theorem isSegment_of_mem_pieces {raw s : Text} (h : s ∈ pieces raw) (step : isStep s)
    (up : s ≠ "..") : IsSegment s := by
  obtain ⟨part, hpart, rfl⟩ := List.mem_map.1 h
  simp only [isStep, Bool.and_eq_true, decide_eq_true_eq] at step
  exact ⟨step.1, fun hs => Text.not_mem_of_mem_splitOn _ _ _ hpart (Text.trim_subset _ _ hs),
    Text.trim_trim _, step.2, up⟩

/-- Reads a page path. It must have a segment, and none may be `..`. -/
def parse (raw : Text) : Except InvalidPath PagePath :=
  if up : (".." : Text) ∈ pieces raw then .error ⟨raw, .leavesRoot⟩
  else
    let page : PagePath := ⟨(pieces raw).filter isStep, fun s h => by
      obtain ⟨hs, step⟩ := List.mem_filter.1 h
      exact isSegment_of_mem_pieces hs step fun e => up (e ▸ hs)⟩
    if page.segments = [] then .error ⟨raw, .empty⟩ else .ok page

/-- The page that `child` leads to from this one. -/
def join (base child : PagePath) : PagePath :=
  ⟨base.segments ++ child.segments, fun s h =>
    (List.mem_append.1 h).elim (base.valid s) (child.valid s)⟩

/-- The path as text: a slash before each segment. -/
def toText (p : PagePath) : Text := p.segments.flatMap ('/' :: ·)

/-- The path as shown in messages. -/
def display (p : PagePath) : Text := if p.segments.isEmpty then "/" else p.toText

def last? (p : PagePath) : Option Text := p.segments.getLast?

def directory (p : PagePath) (pagesRoot : FilePath) : FilePath :=
  p.segments.foldl FilePath.join pagesRoot

/-- An alias without the slashes at its end. -/
def trimAlias (pagesAlias : Text) : Text := pagesAlias.dropEndWhile (· = '/')

def importSource (p : PagePath) (pagesAlias : Text) : Text := trimAlias pagesAlias ++ p.toText

end PagePath
end RoutePages
