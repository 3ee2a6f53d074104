import RoutePages.Proofs.Route.Marks
import RoutePages.Proofs.Script.Bare

/-!
# Reading a rewritten array

A rewrite settles the entries of a route array: planned pages become identifiers and
directives go. Done on the tree of the array, this is what the reader then sees, and
nothing else: every name, path, child and other component is read as before.
-/
namespace RoutePages

open Script

/-- The identifier that stands for the page planned at a span. -/
abbrev PageNames := Span → Option Text

/-- The identifiers of plans. -/
def PageNames.ofPlans (plans : List PagePlan) : PageNames := fun span =>
  (plans.find? (·.componentSpan = span)).map PagePlan.identifier

variable (names : PageNames)

/-- A planned page is bound to its identifier. -/
def Component.settle : Component → Component
  | .path value span =>
    match names span with
    | some name => .bound name span
    | none => .path value span
  | other => other

mutual

/-- The entry that is left of one by a rewrite. -/
def Entry.settle : Entry → Entry
  | .mk name path component _ _ _ children span _ =>
    .mk name path (component.map (Component.settle names)) false false none
      (Entry.settleAll children) span []

def Entry.settleAll : List Entry → List Entry
  | [] => []
  | e :: rest => e.settle :: Entry.settleAll rest

end

/-- The value of a component is replaced where a page is planned. -/
def Script.Expr.settle (value : Expr) : Expr :=
  match Component.ofExpr value with
  | .path _ span =>
    match names span with
    | some name => .ident name span
    | none => value
  | _ => value

/-- The field that is left of one that holds no children: none, if it is a directive. -/
def Script.Property.settleField (key : Key) (name : Text) (value : Expr) : List Property :=
  if (Directive.ofKey? name).isSome then []
  else [.field key (if name == "component" then value.settle names else value)]

mutual

/-- The element that is left of one by a rewrite. -/
def Script.Element.settle : Element → Element
  | .item (.object props span) => .item (.object (Property.settleAll props) span)
  | other => other

def Script.Element.settleAll : List Element → List Element
  | [] => []
  | e :: rest => e.settle :: Element.settleAll rest

/-- The properties that are left, also in the elements below. -/
def Script.Property.settleAll : List Property → List Property
  | [] => []
  | .field key (.array elements span) :: rest =>
    match key.text? with
    | none => .field key (.array elements span) :: Property.settleAll rest
    | some name =>
      if holdsChildren name then
        .field key (.array (Element.settleAll elements) span) :: Property.settleAll rest
      else Property.settleField names key name (.array elements span) ++ Property.settleAll rest
  | .field key value :: rest =>
    match key.text? with
    | none => .field key value :: Property.settleAll rest
    | some name => Property.settleField names key name value ++ Property.settleAll rest
  | other :: rest => other :: Property.settleAll rest

end

def Draft.settle (d : Draft) : Draft := { d with entry := d.entry.settle names }

/-- Only what is a path already stays one. -/
theorem Component.path_of_settle {names : PageNames} {component : Component} {value : Text}
    {span : Span} (h : component.settle names = .path value span) : component = .path value span := by
  unfold settle at h
  split at h
  · split at h
    · cases h
    · exact h
  · exact h

namespace Entry

variable {names}

theorem settleAll_append (first more : List Entry) :
    settleAll names (first ++ more) = settleAll names first ++ settleAll names more := by
  induction first with
  | nil => rfl
  | cons e first ih => rw [List.cons_append, settleAll, settleAll, ih, List.cons_append]

theorem settle_eq (e : Entry) : e.settle names =
    { e with component := e.component.map (Component.settle names), table := false
             service := false, cover := none, children := settleAll names e.children
             directives := [] } := by
  cases e
  rw [settle]

end Entry

namespace Draft

variable {names} {d d' : Draft}

/-- Reading a directive leaves no trace in the settled entry. -/
theorem settle_setDirective (directive : Directive) (flag : Bool) (span : Span) :
    (d.setDirective directive flag span).settle names = d.settle names := by
  unfold settle
  rw [Entry.settle_eq, Entry.settle_eq]
  cases directive <;> rfl

theorem settle_setName (value : Expr) :
    (d.setName value).settle names = (d.settle names).setName value := by
  unfold settle setName
  split <;> simp only [Entry.settle_eq]

theorem settle_setPath (value : Expr) :
    (d.setPath value).settle names = (d.settle names).setPath value := by
  unfold settle setPath
  split <;> simp only [Entry.settle_eq]

theorem settle_setComponent (component : Component) :
    (d.setComponent component).settle names =
      (d.settle names).setComponent (component.settle names) := by
  unfold settle setComponent
  simp only [Entry.settle_eq, Option.map_some]

theorem settle_addChildren (children : List Entry) :
    (d.addChildren children).settle names =
      (d.settle names).addChildren (Entry.settleAll names children) := by
  unfold settle addChildren
  simp only [Entry.settle_eq, Entry.settleAll_append]

theorem settle_empty (span : Span) : (empty span).settle names = empty span := by
  unfold settle
  rw [Entry.settle_eq]
  rfl

theorem finish_settle {e : Entry} (h : d.finish = .ok e) :
    (d.settle names).finish = .ok (e.settle names) := by
  obtain ⟨rfl, hplain⟩ := finish_eq_ok.1 h
  refine finish_eq_ok.2 ⟨rfl, hplain.imp id fun hcomponent value span hpath => ?_⟩
  rw [settle, Entry.settle_eq] at hpath
  obtain ⟨component, hc, hsettled⟩ := Option.map_eq_some_iff.1 hpath
  rw [Component.path_of_settle hsettled] at hc
  exact hcomponent value span hc

end Draft

variable {names}

theorem ofExpr_settle (value : Expr) :
    Component.ofExpr (value.settle names) = (Component.ofExpr value).settle names := by
  unfold Script.Expr.settle
  cases hc : Component.ofExpr value with
  | path page span =>
    cases hn : names span with
    | none => simp only [Component.settle, hn, hc]
    | some name => simp only [Component.settle, hn]; rfl
  | bound name span => simp only [Component.settle, hc]
  | inline => simp only [Component.settle, hc]

/-- A field that is read is read again from what is left of it. -/
theorem draftOf_settleField {d e : Draft} {key : Key} {name : Text} {value : Expr}
    (rest : List Property) (hkey : key.text? = some name) (hname : holdsChildren name = false)
    (h : d.set key name value = .ok e) :
    draftOf (Property.settleField names key name value ++ rest) (d.settle names) =
      draftOf rest (e.settle names) := by
  have hplain : ∀ v, (d.settle names).set key name v = .ok (e.settle names) →
      draftOf (.field key v :: rest) (d.settle names) = draftOf rest (e.settle names) := by
    intro v hv
    rw [draftOf_field hkey hname, hv]
    rfl
  unfold Property.settleField
  cases Draft.set_eq_ok.1 h with
  | name => exact hplain value (congrArg _ (Draft.settle_setName value).symm)
  | path => exact hplain value (congrArg _ (Draft.settle_setPath value).symm)
  | component =>
    refine hplain (value.settle names) ?_
    rw [Draft.settle_setComponent, ← ofExpr_settle]
    rfl
  | directive directive flag hflag =>
    have hsome : (Directive.ofKey? directive.key).isSome = true := by
      rw [Directive.ofKey?_eq_some.2 rfl, Option.isSome_some]
    rw [if_pos hsome, Draft.settle_setDirective]
    rfl
  | other _ htitle hpath hcomponent hdirective =>
    simp only [hdirective, beq_iff_eq, hcomponent, if_false]
    exact hplain value (Draft.set_eq_ok.2 (.other name htitle hpath hcomponent hdirective))

/-- What nothing is read from is left as it is. -/
theorem settleAll_skipped {prop : Property} (h : prop.IsSkipped) (rest : List Property) :
    Property.settleAll names (prop :: rest) = prop :: Property.settleAll names rest := by
  cases h with
  | computed key value hkey =>
    obtain ⟨elements, span, rfl⟩ | harray := exists_array value
    · rw [Property.settleAll, hkey]
    · rw [Property.settleAll, hkey]
      exact harray
  | noArray key name value hkey hname harray =>
    have hkept : Property.settleField names key name value = [.field key value] := by
      -- `children` and `routes` are neither directives nor components
      unfold holdsChildren at hname
      rcases Bool.or_eq_true_iff.1 hname with h | h <;> cases eq_of_beq h <;> rfl
    rw [Property.settleAll, hkey]
    · dsimp only
      rw [hkept, List.singleton_append]
    · exact harray
  | spread value => rfl
  | default name value span => rfl
  | method parts span => rfl

theorem settleAll_field {key : Key} {name : Text} (value : Expr) (rest : List Property)
    (hkey : key.text? = some name) (hname : holdsChildren name = false) :
    Property.settleAll names (.field key value :: rest) =
      Property.settleField names key name value ++ Property.settleAll names rest := by
  obtain ⟨elements, span, rfl⟩ | harray := exists_array value
  · rw [Property.settleAll, hkey]
    simp only [hname]
    rfl
  · rw [Property.settleAll, hkey]
    exact harray

/-- The settled elements are read as the settled entries. -/
theorem entries_settle (names : PageNames) :
    (∀ element entry, entryOf? element = .ok entry →
      entryOf? (element.settle names) = .ok (entry.map (Entry.settle names))) ∧
    (∀ props d d', draftOf props d = .ok d' →
      draftOf (Property.settleAll names props) (d.settle names) = .ok (d'.settle names)) ∧
    (∀ elements entries, entriesOf elements = .ok entries →
      entriesOf (Element.settleAll names elements) = .ok (Entry.settleAll names entries)) := by
  apply entries_induction
  case object =>
    intro props span d e ih hfinish
    rw [Draft.settle_empty] at ih
    rw [Element.settle, entryOf?]
    exact bind_eq_ok.2 ⟨_, ih, bind_eq_ok.2 ⟨_, Draft.finish_settle hfinish, rfl⟩⟩
  case other =>
    intro element hno
    rw [Element.settle, entryOf?]
    · rfl
    · exact hno
    · exact hno
  case nil => rfl
  case cons =>
    intro element rest entry more ihFirst ihRest
    rw [Element.settleAll, entriesOf]
    refine bind_eq_ok.2 ⟨_, ihFirst, bind_eq_ok.2 ⟨_, ihRest, ?_⟩⟩
    rw [Entry.settleAll_append]
    cases entry <;> rfl
  case done =>
    intro d
    rfl
  case children =>
    intro key name elements span rest d d' entries hkey hname ihElements ihRest
    simp only [Property.settleAll, hkey, hname, if_true]
    rw [draftOf_children hkey hname, ihElements]
    rw [Draft.settle_addChildren] at ihRest
    exact ihRest
  case field =>
    intro key name value rest d e d' hkey hname hset ih
    rw [settleAll_field value rest hkey hname]
    exact (draftOf_settleField _ hkey hname hset).trans ih
  case shorthand =>
    intro name span rest d d' ih
    rw [Property.settleAll, draftOf]
    · split at ih
      · rename_i hname
        rw [Draft.settle_setComponent] at ih
        rw [if_pos hname]
        exact ih
      · rename_i hname
        rw [if_neg hname]
        exact ih
    all_goals
      intros
      contradiction
  case skipped =>
    intro prop rest d d' hskipped ih
    rw [settleAll_skipped hskipped, draftOf_skipped hskipped]
    exact ih

end RoutePages
