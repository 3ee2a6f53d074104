import RoutePages.Page.Path
import RoutePages.Route.Basic

/-!
# Imported pages

Names that a route file imports from below the page alias, with the pages they
stand for. Of several imports of a name the last counts.
-/
namespace RoutePages

/-- Imported names with their pages, the last import first. -/
structure Bindings where
  pages : List (Text × PagePath)

namespace Bindings

def empty : Bindings := ⟨[]⟩

def get? (b : Bindings) (name : Text) : Option PagePath := b.pages.lookup name

/-- The page that an import source below the alias names. -/
def pageOf? (source pagesAlias : Text) : Option PagePath :=
  match Text.after? (PagePath.trimAlias pagesAlias) source with
  | none => none
  | some rest =>
    if rest = [] ∨ rest.head? = some '/' then (PagePath.parse rest).toOption else none

def ofImport (i : Import) (pagesAlias : Text) : List (Text × PagePath) :=
  match pageOf? i.source pagesAlias with
  | some page => i.locals.map (·, page)
  | none => []

def ofImports (imports : List Import) (pagesAlias : Text) : Bindings :=
  ⟨(imports.flatMap (ofImport · pagesAlias)).reverse⟩

/-- The pages that a route file imports. -/
def ofTable (t : RouteTable) (pagesAlias : Text) : Bindings := ofImports t.imports pagesAlias

end Bindings
end RoutePages
