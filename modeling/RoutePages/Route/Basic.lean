import RoutePages.Script.Span

/-!
# Route tables

What is read from a route file: the entries of its route array, with the spans
that a rewrite edits, and its imports. Offsets are bytes of the source that was
read.
-/
namespace RoutePages

/-- A property of an entry that is meant for the generator and not for the application. -/
inductive Directive where
  /-- use the page template with a table -/
  | table
  /-- write a service file too -/
  | service
  /-- may an existing file be overwritten? -/
  | cover
  deriving DecidableEq

namespace Directive

def all : List Directive := [table, service, cover]

def key : Directive → Text
  | table => "table"
  | service => "service"
  | cover => "cover"

def ofKey? (key : Text) : Option Directive := all.find? (·.key == key)

end Directive

/-- A directive with the span of its `key: value`. -/
structure DirectiveSpan where
  directive : Directive
  span : Span
  deriving DecidableEq

/-- The value of a `component` property. -/
inductive Component where
  /-- a path: the page is still to be generated -/
  | path (value : Text) (span : Span)
  | bound (name : Text) (span : Span)
  /-- any other expression -/
  | inline
  deriving DecidableEq

structure Entry where
  name : Option Text
  path : Option Text
  component : Option Component
  table : Bool
  service : Bool
  cover : Option Bool
  children : List Entry
  span : Span
  directives : List DirectiveSpan

/-- The title and component path of an entry for which a page is generated. -/
def Entry.generatable? (e : Entry) : Option (Text × Text) :=
  match e.name, e.component with
  | some name, some (.path value _) => some (name, value)
  | _, _ => none

/-- An import declaration: the names it binds and where they come from. -/
structure Import where
  locals : List Text
  source : Text
  span : Span
  deriving DecidableEq

structure RouteTable where
  /-- the name of the route array -/
  binding : Text
  arraySpan : Span
  entries : List Entry
  imports : List Import
  /-- the end of the line on which the last import ends -/
  importAnchor : Option Nat

/-- The first import that binds a name. -/
def RouteTable.importOf? (t : RouteTable) (name : Text) : Option Import :=
  t.imports.find? (·.locals.contains name)

end RoutePages
