import RoutePages.Json.Tree
import RoutePages.Route.Basic

/-!
# Route tables as JSON
-/
namespace RoutePages

/-- An object with these fields. -/
def Json.record (fields : List (String × Json)) : Json :=
  .object (fields.map fun (key, value) => (key.toList, value))

def Span.toJson (s : Span) : Json := .record [("start", .nat s.start), ("end", .nat s.stop)]

def Component.toJson : Component → Json
  | path value span =>
    .record [("kind", .string "path"), ("value", .string value), ("span", span.toJson)]
  | bound name span =>
    .record [("kind", .string "bound"), ("ident", .string name), ("span", span.toJson)]
  | inline => .record [("kind", .string "inline")]

def DirectiveSpan.toJson (d : DirectiveSpan) : Json :=
  .record [("directive", .string d.directive.key), ("span", d.span.toJson)]

mutual

def Entry.toJson : Entry → Json
  | .mk name path component table service cover children span directives => .record [
      ("name", .ofOption .string name), ("path", .ofOption .string path),
      ("component", .ofOption Component.toJson component), ("table", .bool table),
      ("service", .bool service), ("cover", .ofOption .bool cover),
      ("children", .list (Entry.allToJson children)), ("span", span.toJson),
      ("directives", .list (directives.map DirectiveSpan.toJson))]

def Entry.allToJson : List Entry → List Json
  | [] => []
  | e :: rest => e.toJson :: Entry.allToJson rest

end

def Import.toJson (i : Import) : Json :=
  .record [("locals", .list (i.locals.map .string)), ("source", .string i.source),
    ("span", i.span.toJson)]

def RouteTable.toJson (t : RouteTable) : Json :=
  .record [("binding", .string t.binding), ("array_span", t.arraySpan.toJson),
    ("entries", .list (Entry.allToJson t.entries)),
    ("imports", .list (t.imports.map Import.toJson)),
    ("import_anchor", .ofOption .nat t.importAnchor)]

end RoutePages
