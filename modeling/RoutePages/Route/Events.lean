import RoutePages.Host.Basic
import RoutePages.Route.Parse

/-!
# What is reported while a route file is read

The array that was found, the elements and children that are passed over, and how
much was read. Nothing is reported behind a field that cannot be used.
-/
namespace RoutePages

open Script

/-- An element that is no entry. -/
def skippedElement (e : Expr) : Event :=
  .debug "オブジェクト以外のルート要素をスキップします" [("offset", Text.ofNat e.start)]

/-- Children that are no array. -/
def ignoredChildren (key : Text) : Event := .debug "配列以外の子ルートは無視します" [("key", key)]

/-- Can the element be read? -/
def isReadable (element : Element) : Bool :=
  match entryOf? element with
  | .ok _ => true
  | .error _ => false

/-- Is a list of entries read from these elements? -/
def areReadable (elements : List Element) : Bool :=
  match entriesOf elements with
  | .ok _ => true
  | .error _ => false

/-- Can the property be used, if it is a directive? -/
def isUsable (key : Text) (value : Expr) : Bool :=
  match Directive.ofKey? key with
  | none => true
  | some directive =>
    match directive.flag value with
    | .ok _ => true
    | .error _ => false

mutual

def elementEvents : Element → List Event
  | .hole => []
  | .item (.object props _) => propertyEvents props
  | .item e => [skippedElement e]
  | .spread e => [skippedElement e]

def arrayEvents : List Element → List Event
  | [] => []
  | element :: rest =>
    elementEvents element ++ if isReadable element then arrayEvents rest else []

def propertyEvents : List Property → List Event
  | [] => []
  | .field key (.array elements span) :: rest =>
    match key.text? with
    | none => propertyEvents rest
    | some name =>
      if holdsChildren name then
        arrayEvents elements ++ if areReadable elements then propertyEvents rest else []
      else if isUsable name (.array elements span) then propertyEvents rest
      else []
  | .field key value :: rest =>
    match key.text? with
    | none => propertyEvents rest
    | some name =>
      if holdsChildren name then ignoredChildren name :: propertyEvents rest
      else if isUsable name value then propertyEvents rest
      else []
  | _ :: rest => propertyEvents rest

end

/-- What is reported of the items of a module. -/
def tableEvents (source : Text) (parts : List Part) : List Event :=
  match Part.firstArray? parts with
  | none => []
  | some array =>
    let found : Event := .debug "ルート配列を発見"
      [("binding", array.binding), ("elements", Text.ofNat array.elements.length)]
    let finished : List Event := match tableOf source parts with
      | .error _ => []
      | .ok t => [.debug "ルートファイル解析完了" [("binding", t.binding),
          ("entries", Text.ofNat t.entries.length), ("imports", Text.ofNat t.imports.length)]]
    found :: arrayEvents array.elements ++ finished

namespace Host

variable {m : Type → Type} [Monad m] [Host m]

def reportAll : List Event → m Unit
  | [] => return ()
  | event :: rest => do report event; reportAll rest

/-- Reads a route file, with reports. -/
def readTable (dialect : Dialect) (source : Text) : m (Except TableError RouteTable) :=
  match readModule dialect source with
  | .error e => return .error e
  | .ok parts => do
    reportAll (tableEvents source parts)
    return tableOf source parts

end Host
end RoutePages
