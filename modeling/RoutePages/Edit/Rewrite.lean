import RoutePages.Edit.Removal
import RoutePages.Page.Plan

/-!
# Rewriting a route file

Puts an identifier where the route file names a page, removes all directives, and
adds the imports that are missing after the last import. All other bytes stay.
-/
namespace RoutePages

structure Rewrite where
  text : Text
  /-- the import declarations added, in order -/
  importsAdded : List Text
  changed : Bool
  deriving DecidableEq

namespace Rewrite

/-- Does a text begin and end with the same quote? -/
def isBetweenQuotes : Text → Bool
  | [] => false
  | [_] => false
  | c :: rest => (c = '\'' || c = '"' || c = '`') && rest.getLast? == some c

/-- Puts the identifier of a plan in place of the page path. -/
def componentEdit (source : Text) (plan : PagePlan) : Except EditError Edit :=
  let span := plan.componentSpan
  let found := (source.slice? span.start span.stop).getD []
  if isBetweenQuotes found then .ok ⟨span, plan.identifier⟩
  else .error (.noComponent span.start found)

mutual

/-- The directives of an entry, before those of each entry below it. -/
def ownDirectives : Entry → List (List DirectiveSpan)
  | .mk _ _ _ _ _ _ children _ directives => directives :: directivesOf children

/-- The directives of each entry, children after their parent. -/
def directivesOf : List Entry → List (List DirectiveSpan)
  | [] => []
  | e :: rest => ownDirectives e ++ directivesOf rest

end

def importLine (pagesAlias : Text) (plan : PagePlan) : Text :=
  "import " ++ plan.identifier ++ " from '" ++ plan.page.importSource pagesAlias ++ "'"

/-- The declarations for identifiers that are neither imported nor in `queued`. -/
def missingImports (t : RouteTable) (pagesAlias : Text) :
    (queued : List Text) → List PagePlan → List Text
  | _, [] => []
  | queued, plan :: rest =>
    if (t.importOf? plan.identifier).isSome || queued.contains plan.identifier then
      missingImports t pagesAlias queued rest
    else importLine pagesAlias plan :: missingImports t pagesAlias (plan.identifier :: queued) rest

/-- What ends the lines of a source. -/
def lineBreak (source : Text) : Text := if Text.occursIn "\r\n" source then "\r\n" else "\n"

/-- Adds lines after the last import, or before everything else. -/
def importEdits (source : Text) (anchor : Option Nat) (lines : List Text) : List Edit :=
  let stop := lineBreak source
  if lines.isEmpty then []
  else match anchor with
    | some pos => [⟨⟨pos, pos⟩, lines.flatMap (stop ++ ·)⟩]
    | none => [⟨⟨0, 0⟩, lines.flatMap (· ++ stop)⟩]

end Rewrite

/-- Rewrites a route file for the pages that are generated from it. -/
def rewrite (source : Text) (t : RouteTable) (plans : List PagePlan) (pagesAlias : Text) :
    Except EditError Rewrite := do
  let components ← plans.mapM (Rewrite.componentEdit source)
  let removals ← (Rewrite.directivesOf t.entries).mapM (Removal.edits source)
  let lines := Rewrite.missingImports t pagesAlias [] plans
  let edits := components ++ removals.flatten ++ Rewrite.importEdits source t.importAnchor lines
  let text ← Edit.applyAll source edits
  return { text, importsAdded := lines, changed := !edits.isEmpty }

end RoutePages
