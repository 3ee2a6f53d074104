import RoutePages.Disk.FilePath
import RoutePages.Route.Extract
import RoutePages.Script.Module
import RoutePages.Text.Position

/-!
# Reading a route file

A byte order mark at the start is dropped before offsets are counted, although the
offsets are later used on the source with the mark.
-/
namespace RoutePages

open Script

/-- The language of a route file: with or without markup. -/
inductive Dialect where
  | ts
  | tsx
  deriving DecidableEq

def Dialect.hasMarkup : Dialect → Bool
  | ts => false
  | tsx => true

/-- The language that the extension of a file tells. -/
def Dialect.ofFile (file : FilePath) : Dialect :=
  match file.extension? with
  | some ext => if ext = "tsx" ∨ ext = "jsx" then tsx else ts
  | none => ts

inductive TableError where
  | missingArray
  | badSyntax (position : Position)
  | invalidField (field : Text) (position : Position) (fault : FieldFault)
  /-- an offset does not lie between two characters of the source -/
  | offBoundary (offset : Nat)

def FieldFault.message : FieldFault → Text
  | notBoolean kind => "真偽値リテラルが必要ですが " ++ kind ++ " でした"
  | notData construct => construct ++ " は評価できません"
  | nameNotText => "component を生成する場合、name は文字列リテラルである必要があります"

/-- A position before a message, and its line after it. -/
def Position.around (p : Position) (message : Text) : Text :=
  Text.ofNat p.line ++ ":" ++ Text.ofNat p.column ++ " " ++ message ++ "\n    | " ++ p.snippet

def TableError.message : TableError → Text
  | missingArray => "ルート配列 (`const routes: RouteProps[] = [...]`) が見つかりません"
  | badSyntax position => position.around "構文エラー: ..."
  | invalidField field position fault =>
    position.around ("フィールド `" ++ field ++ "` が不正です: " ++ fault.message)
  | offBoundary offset => "byte " ++ Text.ofNat offset ++ " is not a char boundary"

/-- The source without a byte order mark. -/
def withoutMark (source : Text) : Text :=
  match source with
  | c :: rest => if c.toNat = 0xFEFF then rest else source
  | [] => []

def locate (source : Text) (offset : Nat) : Except TableError Position :=
  match source.position? offset with
  | some position => .ok position
  | none => .error (.offBoundary offset)

/-- The end of the line on which the offset lies, before the characters that end the line. -/
def lineEnd (source : Text) (offset : Nat) : Except TableError Nat :=
  match source.drop? offset with
  | none => .error (.offBoundary offset)
  | some rest =>
    let stop := offset + Text.size (Text.beforeBreak rest)
    match (source.take? stop).bind List.getLast? with
    | some '\r' => .ok (stop - 1)
    | _ => .ok stop

/-- The place for further imports: the end of the line of the last one. -/
def importAnchor (source : Text) (imports : List Import) : Except TableError (Option Nat) :=
  match imports.getLast? with
  | none => .ok none
  | some last => (lineEnd source last.span.stop).map some

/-- The items of the module that a route file is. -/
def readModule (dialect : Dialect) (source : Text) : Except TableError (List Part) :=
  match parseModule dialect.hasMarkup (withoutMark source) with
  | .ok parts => .ok parts
  | .error offset => (locate source offset).bind fun position => .error (.badSyntax position)

def readEntries (source : Text) (elements : List Element) : Except TableError (List Entry) :=
  match entriesOf elements with
  | .ok entries => .ok entries
  | .error e =>
    (locate source e.offset).bind fun position => .error (.invalidField e.field position e.fault)

/-- The route table in the items of a module. -/
def tableOf (source : Text) (parts : List Part) : Except TableError RouteTable := do
  match Part.firstArray? parts with
  | none => .error .missingArray
  | some array =>
    let entries ← readEntries source array.elements
    let imports := Part.allImports parts
    let anchor ← importAnchor source imports
    return {
      binding := array.binding
      arraySpan := array.span
      entries
      imports
      importAnchor := anchor }

/-- Reads a route file. -/
def parseTable (dialect : Dialect) (source : Text) : Except TableError RouteTable :=
  (readModule dialect source).bind (tableOf source)

end RoutePages
