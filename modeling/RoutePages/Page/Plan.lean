import RoutePages.Page.Bindings
import RoutePages.Page.Identifier

/-!
# Planning pages

Goes through the entries of a route table, depth first, and plans a page for each
that asks for one. A child is placed below the page of the nearest ancestor that
has one. Pages and the identifiers they are imported under have to correspond one
to one.
-/
namespace RoutePages

structure PagePlan where
  name : Text
  page : PagePath
  /-- the name under which the page is imported -/
  identifier : Text
  /-- the name that stands in the page's own file -/
  componentName : Text
  /-- where the route file names the page -/
  componentSpan : Span
  table : Bool
  service : Bool
  cover : Option Bool
  deriving DecidableEq

/-- Where an entry's page lies, if it asks for one, and where its children start. -/
structure Resolved where
  page : Option PagePath
  childBase : PagePath

inductive PlanError where
  /-- a page and an earlier page or import claim the same identifier -/
  | collision (identifier first second : Text)
  | invalidPath (e : InvalidPath)

def PlanError.message : PlanError → Text
  | collision identifier first second =>
    "識別子 `" ++ identifier ++ "` が衝突しています: " ++ first ++ " と " ++ second
  | invalidPath e => e.message

/-- The page of an entry, and the base for its children. -/
def Entry.resolve (e : Entry) (base : PagePath) (b : Bindings) : Except InvalidPath Resolved :=
  match e.generatable? with
  | some (_, path) => do
    let page := base.join (← PagePath.parse path)
    return ⟨some page, page⟩
  | none =>
    match e.component with
    | some (.bound name _) => .ok ⟨none, (b.get? name).getD base⟩
    | _ => .ok ⟨none, base⟩

def Entry.plan (e : Entry) (name : Text) (span : Span) (page : PagePath) :
    Except InvalidPath PagePlan := do
  let identifier ← deriveBinding page.toText
  let componentName ← deriveBinding (page.last?.getD [])
  return {
    name, page, identifier, componentName
    componentSpan := span
    table := e.table
    service := e.service
    cover := e.cover }

def Entry.ownPlans (e : Entry) (r : Resolved) : Except InvalidPath (List PagePlan) :=
  match r.page, e.name, e.component with
  | some page, some name, some (.path _ span) => return [← e.plan name span page]
  | _, _, _ => .ok []

mutual

def Entry.plans (b : Bindings) (base : PagePath) : Entry → Except InvalidPath (List PagePlan)
  | .mk name path component table service cover children span directives => do
    let e := Entry.mk name path component table service cover [] span directives
    let resolved ← e.resolve base b
    let own ← e.ownPlans resolved
    let below ← Entry.allPlans b resolved.childBase children
    return own ++ below

/-- The plans of entries with a common base. -/
def Entry.allPlans (b : Bindings) (base : PagePath) :
    List Entry → Except InvalidPath (List PagePlan)
  | [] => .ok []
  | e :: rest => do
    let first ← e.plans b base
    let more ← Entry.allPlans b base rest
    return first ++ more

end

/-- Refuses an identifier that an import from elsewhere binds. -/
def checkImport (t : RouteTable) (pagesAlias : Text) (plan : PagePlan) : Except PlanError Unit :=
  match t.importOf? plan.identifier with
  | some existing =>
    if existing.source ≠ plan.page.importSource pagesAlias then
      .error (.collision plan.identifier existing.source plan.page.display)
    else .ok ()
  | none => .ok ()

def checkSeen (seen : List (Text × PagePath)) (plan : PagePlan) : Except PlanError Unit :=
  match seen.lookup plan.identifier with
  | some first =>
    if first ≠ plan.page then
      .error (.collision plan.identifier first.display plan.page.display)
    else .ok ()
  | none => .ok ()

/-- Refuses plans that share an identifier with a page in `seen` or with an import from
elsewhere. -/
def checkPlans (t : RouteTable) (pagesAlias : Text) :
    (seen : List (Text × PagePath)) → List PagePlan → Except PlanError Unit
  | _, [] => .ok ()
  | seen, plan :: rest => do
    checkSeen seen plan
    checkImport t pagesAlias plan
    checkPlans t pagesAlias ((plan.identifier, plan.page) :: seen) rest

/-- The pages that a route table asks for, in the order of its entries. -/
def planPages (t : RouteTable) (b : Bindings) (pagesAlias : Text) :
    Except PlanError (List PagePlan) :=
  match Entry.allPlans b .root t.entries with
  | .error e => .error (.invalidPath e)
  | .ok plans => (checkPlans t pagesAlias [] plans).map fun _ => plans

end RoutePages
