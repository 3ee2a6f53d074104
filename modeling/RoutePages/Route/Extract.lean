import RoutePages.Route.Basic
import RoutePages.Script.Literal

/-!
# From the tree of a script to a route table

Finds the route array and the imports, and reads the elements of the array as
entries. The array is the first declarator outside every function and class that
annotates a plain name with an array type and gives it an array literal.
-/
namespace RoutePages

open Script

/-- Why a field of an entry cannot be used. -/
inductive FieldFault where
  /-- a directive is data, but no boolean -/
  | notBoolean (kind : Text)
  /-- a directive is no data -/
  | notData (construct : Text)
  /-- a page is to be generated, and its name is no text -/
  | nameNotText
  deriving DecidableEq

/-- A field that cannot be used, and the offset of its value. -/
structure FieldError where
  field : Text
  offset : Nat
  fault : FieldFault

/-- The component that a value stands for. -/
def Component.ofExpr (value : Expr) : Component :=
  match value.evaluate with
  | .ok (.text page) => .path page value.span
  | .ok (.ident name) => .bound name value.span
  | _ => .inline

def Directive.flag (d : Directive) (value : Expr) : Except FieldError Bool :=
  match value.evaluate with
  | .ok (.bool flag) => .ok flag
  | .ok other => .error ⟨d.key, value.start, .notBoolean other.kind⟩
  | .error rejection => .error ⟨d.key, rejection.span.start, .notData rejection.construct⟩

/-- An entry that is being read, and the offset of its last name that is no text. -/
structure Draft where
  entry : Entry
  opaqueName : Option Nat

namespace Draft

def empty (span : Span) : Draft :=
  { opaqueName := none
    entry := {
      name := none, path := none, component := none, table := false, service := false,
      cover := none, children := [], span, directives := [] } }

def setDirective (d : Draft) (directive : Directive) (flag : Bool) (span : Span) : Draft :=
  let e := d.entry
  let e := match directive with
    | .table => { e with table := flag }
    | .service => { e with service := flag }
    | .cover => { e with cover := some flag }
  { d with entry := { e with directives := e.directives ++ [⟨directive, span⟩] } }

def setName (d : Draft) (value : Expr) : Draft :=
  match value.evaluate with
  | .ok (.text name) => { d with entry := { d.entry with name := some name } }
  | _ => { d with opaqueName := some value.start }

def setPath (d : Draft) (value : Expr) : Draft :=
  match value.evaluate with
  | .ok (.text path) => { d with entry := { d.entry with path := some path } }
  | _ => d

def setComponent (d : Draft) (component : Component) : Draft :=
  { d with entry := { d.entry with component := some component } }

def addChildren (d : Draft) (children : List Entry) : Draft :=
  { d with entry := { d.entry with children := d.entry.children ++ children } }

/-- Reads a property whose value holds no entries. -/
def set (d : Draft) (key : Key) (name : Text) (value : Expr) : Except FieldError Draft :=
  if name == "name" then .ok (d.setName value)
  else if name == "path" then .ok (d.setPath value)
  else if name == "component" then .ok (d.setComponent (.ofExpr value))
  else match Directive.ofKey? name with
    | some directive => do
      let flag ← directive.flag value
      return d.setDirective directive flag ⟨key.span.start, value.stop⟩
    | none => .ok d

/-- The finished entry. Where a page is to be generated its name has to be a text. -/
def finish (d : Draft) : Except FieldError Entry :=
  match d.opaqueName, d.entry.component with
  | some offset, some (.path _ _) => .error ⟨"name", offset, .nameNotText⟩
  | _, _ => .ok d.entry

end Draft

/-- Does a property of this name hold the children of an entry? -/
def holdsChildren (name : Text) : Bool := name == "children" || name == "routes"

mutual

/-- The entry that an element of an array is, if it is an object literal. -/
def entryOf? : Element → Except FieldError (Option Entry)
  | .item (.object props span) => do
    let draft ← draftOf props (.empty span)
    let entry ← draft.finish
    return some entry
  | _ => .ok none

/-- The entries of an array: its elements that are object literals. -/
def entriesOf : List Element → Except FieldError (List Entry)
  | [] => .ok []
  | element :: rest => do
    let entry ← entryOf? element
    let more ← entriesOf rest
    return entry.toList ++ more

/-- Reads the properties of an entry. -/
def draftOf : List Property → Draft → Except FieldError Draft
  | [], d => .ok d
  | .field key (.array elements span) :: rest, d =>
    match key.text? with
    | none => draftOf rest d
    | some name =>
      if holdsChildren name then do
        let children ← entriesOf elements
        draftOf rest (d.addChildren children)
      else do
        let d ← d.set key name (.array elements span)
        draftOf rest d
  | .field key value :: rest, d =>
    match key.text? with
    | none => draftOf rest d
    | some name =>
      if holdsChildren name then draftOf rest d
      else do
        let d ← d.set key name value
        draftOf rest d
  | .shorthand name span :: rest, d =>
    draftOf rest (if name == "component" then d.setComponent (.bound name span) else d)
  | _ :: rest, d => draftOf rest d

end

/-- A route array: the name it is bound to, its elements and its span. -/
structure RouteArray where
  binding : Text
  elements : List Element
  span : Span

/-- The route array that a declarator declares. -/
def Script.Declarator.routeArray? : Declarator → Option RouteArray
  | .mk (some name) true _ (some (.array elements span)) => some ⟨name, elements, span⟩
  | _ => none

mutual

/-- The first route array below an expression. -/
def Script.Expr.routeArray? : Expr → Option RouteArray
  | .template _ holes _ => Expr.firstArray? holes
  | .paren inner _ => inner.routeArray?
  | .asType inner _ => inner.routeArray?
  | .asConst inner _ => inner.routeArray?
  | .minus operand _ => operand.routeArray?
  | .array elements _ => Element.firstArray? elements
  | .object props _ => Property.firstArray? props
  | .compound _ parts _ => Part.firstArray? parts
  | _ => none

def Script.Expr.firstArray? : List Expr → Option RouteArray
  | [] => none
  | e :: rest => e.routeArray?.or (Expr.firstArray? rest)

def Script.Element.firstArray? : List Element → Option RouteArray
  | [] => none
  | .hole :: rest => Element.firstArray? rest
  | .item e :: rest => e.routeArray?.or (Element.firstArray? rest)
  | .spread e :: rest => e.routeArray?.or (Element.firstArray? rest)

def Script.Property.firstArray? : List Property → Option RouteArray
  | [] => none
  | .field key value :: rest =>
    (key.routeArray?.or value.routeArray?).or (Property.firstArray? rest)
  | .shorthand _ _ :: rest => Property.firstArray? rest
  | .spread value :: rest => value.routeArray?.or (Property.firstArray? rest)
  | .default _ value _ :: rest => value.routeArray?.or (Property.firstArray? rest)
  | .method parts _ :: rest => (Part.firstArray? parts).or (Property.firstArray? rest)

def Script.Key.routeArray? : Key → Option RouteArray
  | .computed parts _ => Part.firstArray? parts
  | _ => none

/-- The first route array among parts. What stands in a scope of its own is not looked at.
The declarators of one declaration come before what is nested in them. -/
def Script.Part.firstArray? : List Part → Option RouteArray
  | [] => none
  | .expr e :: rest => e.routeArray?.or (Part.firstArray? rest)
  | .declaration declarators :: rest =>
    ((declarators.findSome? Declarator.routeArray?).or (Declarator.firstArray? declarators)).or
      (Part.firstArray? rest)
  | .imports _ _ _ :: rest => Part.firstArray? rest
  | .scope _ :: rest => Part.firstArray? rest

def Script.Declarator.firstArray? : List Declarator → Option RouteArray
  | [] => none
  | .mk _ _ inPattern none :: rest =>
    (Part.firstArray? inPattern).or (Declarator.firstArray? rest)
  | .mk _ _ inPattern (some e) :: rest =>
    ((Part.firstArray? inPattern).or e.routeArray?).or (Declarator.firstArray? rest)

end

mutual

/-- The imports below an expression, in source order. -/
def Script.Expr.imports : Expr → List Import
  | .template _ holes _ => Expr.allImports holes
  | .paren inner _ => inner.imports
  | .asType inner _ => inner.imports
  | .asConst inner _ => inner.imports
  | .minus operand _ => operand.imports
  | .array elements _ => Element.allImports elements
  | .object props _ => Property.allImports props
  | .compound _ parts _ => Part.allImports parts
  | _ => []

def Script.Expr.allImports : List Expr → List Import
  | [] => []
  | e :: rest => e.imports ++ Expr.allImports rest

def Script.Element.allImports : List Element → List Import
  | [] => []
  | .hole :: rest => Element.allImports rest
  | .item e :: rest => e.imports ++ Element.allImports rest
  | .spread e :: rest => e.imports ++ Element.allImports rest

def Script.Property.allImports : List Property → List Import
  | [] => []
  | .field key value :: rest => key.imports ++ value.imports ++ Property.allImports rest
  | .shorthand _ _ :: rest => Property.allImports rest
  | .spread value :: rest => value.imports ++ Property.allImports rest
  | .default _ value _ :: rest => value.imports ++ Property.allImports rest
  | .method parts _ :: rest => Part.allImports parts ++ Property.allImports rest

def Script.Key.imports : Key → List Import
  | .computed parts _ => Part.allImports parts
  | _ => []

/-- The imports among parts, those in scopes of their own included. -/
def Script.Part.allImports : List Part → List Import
  | [] => []
  | .expr e :: rest => e.imports ++ Part.allImports rest
  | .declaration declarators :: rest =>
    Declarator.allImports declarators ++ Part.allImports rest
  | .imports locals source span :: rest => ⟨locals, source, span⟩ :: Part.allImports rest
  | .scope parts :: rest => Part.allImports parts ++ Part.allImports rest

def Script.Declarator.allImports : List Declarator → List Import
  | [] => []
  | .mk _ _ inPattern none :: rest =>
    Part.allImports inPattern ++ Declarator.allImports rest
  | .mk _ _ inPattern (some e) :: rest =>
    Part.allImports inPattern ++ e.imports ++ Declarator.allImports rest

end

end RoutePages
