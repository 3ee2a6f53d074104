import RoutePages.Proofs.Route.Read
import RoutePages.Proofs.Script.Bare

/-!
# Entries without their spans

Arrays that are the same but for their spans are read as entries that are the same but
for their spans.
-/
namespace RoutePages

open Script

def Component.bare : Component → Component
  | .path value _ => .path value nowhere
  | .bound name _ => .bound name nowhere
  | .inline => .inline

def DirectiveSpan.bare (d : DirectiveSpan) : DirectiveSpan := { d with span := nowhere }

mutual

def Entry.bare : Entry → Entry
  | .mk name path component table service cover children _ directives =>
    .mk name path (component.map Component.bare) table service cover (Entry.allBare children)
      nowhere (directives.map DirectiveSpan.bare)

def Entry.allBare : List Entry → List Entry
  | [] => []
  | e :: rest => e.bare :: Entry.allBare rest

end

namespace Entry

theorem allBare_append (first more : List Entry) :
    allBare (first ++ more) = allBare first ++ allBare more := by
  induction first with
  | nil => rfl
  | cons e first ih => rw [List.cons_append, allBare, allBare, ih, List.cons_append]

theorem bare_eq (e : Entry) : e.bare =
    { e with component := e.component.map Component.bare, children := allBare e.children
             span := nowhere, directives := e.directives.map DirectiveSpan.bare } := by
  cases e
  rw [bare]

end Entry

/-- Without its spans an expression evaluates to the same, or is still rejected. -/
theorem Script.Expr.bare_evaluates (value : Expr) :
    (∃ l, value.evaluate = .ok l ∧ value.bare.evaluate = .ok l) ∨
    ∃ e e', value.evaluate = .error e ∧ value.bare.evaluate = .error e' := by
  have h := Expr.evaluate_bare value
  cases hvalue : value.evaluate <;> cases hbare : value.bare.evaluate <;> rw [hvalue, hbare] at h
  · exact .inr ⟨_, _, rfl, rfl⟩
  · cases h
  · cases h
  · cases h
    exact .inl ⟨_, rfl, rfl⟩

theorem Component.ofExpr_bare (value : Expr) :
    Component.ofExpr value.bare = (Component.ofExpr value).bare := by
  unfold Component.ofExpr
  rw [Expr.bare_span]
  obtain ⟨l, hvalue, hbare⟩ | ⟨e, e', hvalue, hbare⟩ := Expr.bare_evaluates value
  · rw [hvalue, hbare]
    cases l <;> rfl
  · rw [hvalue, hbare]
    rfl

def Draft.bare (d : Draft) : Draft :=
  ⟨d.entry.bare, d.opaqueName.map fun _ => 0⟩

namespace Draft

variable {d d' : Draft}

theorem bare_setDirective (directive : Directive) (flag : Bool) (span : Span) :
    (d.setDirective directive flag span).bare = d.bare.setDirective directive flag nowhere := by
  unfold bare setDirective
  rw [Entry.bare_eq, Entry.bare_eq]
  cases directive <;> simp [DirectiveSpan.bare]

theorem bare_setComponent (component : Component) :
    (d.setComponent component).bare = d.bare.setComponent component.bare := by
  unfold bare setComponent
  simp only [Entry.bare_eq, Option.map_some]

theorem bare_addChildren (children : List Entry) :
    (d.addChildren children).bare = d.bare.addChildren (Entry.allBare children) := by
  unfold bare addChildren
  simp only [Entry.bare_eq, Entry.allBare_append]

theorem bare_setName (value : Expr) : (d.setName value).bare = d.bare.setName value.bare := by
  have hstart : value.bare.start = 0 := by rw [Expr.start, Expr.bare_span, nowhere]
  unfold bare setName
  rw [hstart]
  obtain ⟨l, hvalue, hbare⟩ | ⟨e, e', hvalue, hbare⟩ := Expr.bare_evaluates value
  · rw [hvalue, hbare]
    cases l <;> simp only [Entry.bare_eq, Option.map_some]
  · rw [hvalue, hbare]
    rfl

theorem bare_setPath (value : Expr) : (d.setPath value).bare = d.bare.setPath value.bare := by
  unfold bare setPath
  obtain ⟨l, hvalue, hbare⟩ | ⟨e, e', hvalue, hbare⟩ := Expr.bare_evaluates value
  · rw [hvalue, hbare]
    cases l <;> simp only [Entry.bare_eq]
  · rw [hvalue, hbare]

theorem flag_bare {directive : Directive} {value : Expr} {flag : Bool}
    (h : directive.flag value = .ok flag) : directive.flag value.bare = .ok flag := by
  unfold Directive.flag at h ⊢
  obtain ⟨l, hvalue, hbare⟩ | ⟨e, e', hvalue, hbare⟩ := Expr.bare_evaluates value
  · rw [hvalue] at h
    rw [hbare]
    cases l <;> first | exact h | cases h
  · rw [hvalue] at h
    cases h

theorem flag_of_bare {directive : Directive} {value : Expr} {flag : Bool}
    (h : directive.flag value.bare = .ok flag) : directive.flag value = .ok flag := by
  unfold Directive.flag at h ⊢
  obtain ⟨l, hvalue, hbare⟩ | ⟨e, e', hvalue, hbare⟩ := Expr.bare_evaluates value
  · rw [hbare] at h
    rw [hvalue]
    cases l <;> first | exact h | cases h
  · rw [hbare] at h
    cases h

theorem bare_empty (span : Span) : (empty span).bare = empty nowhere := by
  unfold bare
  rw [Entry.bare_eq]
  rfl

/-- A property that is read is read without its spans. -/
theorem set_bare {key : Key} {name : Text} {value : Expr} (h : d.set key name value = .ok d') :
    d.bare.set key.bare name value.bare = .ok d'.bare := by
  rw [set_eq_ok] at h ⊢
  cases h with
  | name =>
    rw [bare_setName]
    exact .name
  | path =>
    rw [bare_setPath]
    exact .path
  | component =>
    rw [bare_setComponent, ← Component.ofExpr_bare]
    exact .component
  | directive directive flag hflag =>
    have hspan : (⟨key.bare.span.start, value.bare.stop⟩ : Span) = nowhere := by
      rw [Key.bare_span, Expr.stop, Expr.bare_span, nowhere]
    rw [bare_setDirective, ← hspan]
    exact .directive directive flag (flag_bare hflag)
  | other _ hname hpath hcomponent hdirective =>
    exact .other name hname hpath hcomponent hdirective

theorem finish_bare {e : Entry} (h : d.finish = .ok e) : d.bare.finish = .ok e.bare := by
  obtain ⟨rfl, hplain⟩ := finish_eq_ok.1 h
  refine finish_eq_ok.2 ⟨rfl, hplain.imp (fun hname => ?_) fun hcomponent value span hpath => ?_⟩
  · rw [bare, hname, Option.map_none]
  · rw [bare, Entry.bare_eq] at hpath
    obtain ⟨component, hc, hbare⟩ := Option.map_eq_some_iff.1 hpath
    cases component with
    | path page span => exact hcomponent page span hc
    | bound name span => cases hbare
    | inline => cases hbare

/-- A property that is read without its spans is read. -/
theorem set_of_bare {key : Key} {name : Text} {value : Expr}
    (h : d.bare.set key.bare name value.bare = .ok d') : ∃ e, d.set key name value = .ok e := by
  rw [set_eq_ok] at h
  cases h with
  | name => exact ⟨_, set_eq_ok.2 .name⟩
  | path => exact ⟨_, set_eq_ok.2 .path⟩
  | component => exact ⟨_, set_eq_ok.2 .component⟩
  | directive directive flag hflag =>
    exact ⟨_, set_eq_ok.2 (.directive directive flag (flag_of_bare hflag))⟩
  | other _ hname hpath hcomponent hdirective =>
    exact ⟨_, set_eq_ok.2 (.other name hname hpath hcomponent hdirective)⟩

theorem finish_of_bare {e : Entry} (h : d.bare.finish = .ok e) : ∃ e, d.finish = .ok e := by
  obtain ⟨-, hplain⟩ := finish_eq_ok.1 h
  refine ⟨d.entry, finish_eq_ok.2 ⟨rfl, hplain.imp Option.map_eq_none_iff.1 ?_⟩⟩
  intro hcomponent value span hpath
  apply hcomponent value nowhere
  rw [bare, Entry.bare_eq, hpath]
  rfl

end Draft

theorem isSkipped_bare {prop : Property} (h : prop.IsSkipped) : prop.bare.IsSkipped := by
  cases h with
  | computed key value hkey => exact .computed key.bare value.bare (key.bare_text?.trans hkey)
  | noArray key name value hkey hname harray =>
    refine .noArray key.bare name value.bare (key.bare_text?.trans hkey) hname ?_
    intro elements span heq
    cases value <;> first | exact harray _ _ rfl | cases heq
  | spread value => exact .spread value.bare
  | default name value span => exact .default name value.bare nowhere
  | method parts span => exact .method (Part.allBare parts) nowhere

/-- Elements that are read are read as the same entries without their spans. -/
theorem entries_bare :
    (∀ element entry, entryOf? element = .ok entry →
      entryOf? element.bare = .ok (entry.map Entry.bare)) ∧
    (∀ props d d', draftOf props d = .ok d' →
      draftOf (Property.allBare props) d.bare = .ok d'.bare) ∧
    (∀ elements entries, entriesOf elements = .ok entries →
      entriesOf (Element.allBare elements) = .ok (Entry.allBare entries)) := by
  apply entries_induction
  case object =>
    intro props span d e ih hfinish
    rw [Draft.bare_empty] at ih
    rw [Element.bare, Expr.bare, entryOf?]
    exact bind_eq_ok.2 ⟨_, ih, bind_eq_ok.2 ⟨_, Draft.finish_bare hfinish, rfl⟩⟩
  case other =>
    intro element hno
    rw [entryOf?]
    · rfl
    · intro props span heq
      cases element with
      | item e => cases e <;> first | exact hno _ _ rfl | cases heq
      | _ => cases heq
  case nil => rfl
  case cons =>
    intro element rest entry more ihFirst ihRest
    rw [Element.allBare, entriesOf]
    refine bind_eq_ok.2 ⟨_, ihFirst, bind_eq_ok.2 ⟨_, ihRest, ?_⟩⟩
    rw [Entry.allBare_append]
    cases entry <;> rfl
  case done =>
    intro d
    rfl
  case children =>
    intro key name elements span rest d d' entries hkey hname ihElements ihRest
    rw [Property.allBare, Property.bare, Expr.bare,
      draftOf_children (key.bare_text?.trans hkey) hname, ihElements]
    rw [Draft.bare_addChildren] at ihRest
    exact ihRest
  case field =>
    intro key name value rest d e d' hkey hname hset ih
    rw [Property.allBare, Property.bare, draftOf_field (key.bare_text?.trans hkey) hname]
    exact bind_eq_ok.2 ⟨_, Draft.set_bare hset, ih⟩
  case shorthand =>
    intro name span rest d d' ih
    rw [Property.allBare, Property.bare, draftOf]
    split at ih
    · rename_i hname
      rw [Draft.bare_setComponent] at ih
      rw [if_pos hname]
      exact ih
    · rename_i hname
      rw [if_neg hname]
      exact ih
  case skipped =>
    intro prop rest d d' hskipped ih
    rw [Property.allBare, draftOf_skipped (isSkipped_bare hskipped)]
    exact ih

/-- Elements that are read without their spans are read. -/
theorem entries_of_bare :
    (∀ element, (∃ entry, entryOf? element.bare = .ok entry) →
      ∃ entry, entryOf? element = .ok entry) ∧
    (∀ props d, (∃ d', draftOf (Property.allBare props) d.bare = .ok d') →
      ∃ d', draftOf props d = .ok d') ∧
    (∀ elements, (∃ entries, entriesOf (Element.allBare elements) = .ok entries) →
      ∃ entries, entriesOf elements = .ok entries) := by
  apply reading_induction
  case object =>
    intro props span ih hbare
    obtain ⟨entry, h⟩ := hbare
    rw [Element.bare, Expr.bare, entryOf?, ← Draft.bare_empty span] at h
    obtain ⟨d', hd', h⟩ := bind_eq_ok.1 h
    obtain ⟨e, hfinish, -⟩ := bind_eq_ok.1 h
    obtain ⟨d, hd⟩ := ih ⟨d', hd'⟩
    cases hd'.symm.trans (entries_bare.2.1 _ _ _ hd)
    obtain ⟨e, hfinish⟩ := Draft.finish_of_bare hfinish
    exact ⟨some e, bind_eq_ok.2 ⟨d, hd, bind_eq_ok.2 ⟨e, hfinish, rfl⟩⟩⟩
  case other =>
    intro element hno _
    exact ⟨none, entryOf?_other hno⟩
  case nil =>
    intro _
    exact ⟨[], rfl⟩
  case cons =>
    intro element rest ihFirst ihRest hbare
    obtain ⟨entries, h⟩ := hbare
    rw [Element.allBare, entriesOf] at h
    obtain ⟨entry', hentry', h⟩ := bind_eq_ok.1 h
    obtain ⟨more', hmore', -⟩ := bind_eq_ok.1 h
    obtain ⟨entry, hentry⟩ := ihFirst ⟨entry', hentry'⟩
    obtain ⟨more, hmore⟩ := ihRest ⟨more', hmore'⟩
    exact ⟨entry.toList ++ more, bind_eq_ok.2 ⟨entry, hentry, bind_eq_ok.2 ⟨more, hmore, rfl⟩⟩⟩
  case done =>
    intro d _
    exact ⟨d, rfl⟩
  case children =>
    intro key name elements span rest d hkey hname ihElements ihRest hbare
    obtain ⟨d', h⟩ := hbare
    rw [Property.allBare, Property.bare, Expr.bare,
      draftOf_children (key.bare_text?.trans hkey) hname] at h
    obtain ⟨entries', hentries', h⟩ := bind_eq_ok.1 h
    obtain ⟨entries, hentries⟩ := ihElements ⟨entries', hentries'⟩
    cases hentries'.symm.trans (entries_bare.2.2 _ _ hentries)
    rw [← Draft.bare_addChildren] at h
    obtain ⟨e, he⟩ := ihRest entries ⟨d', h⟩
    refine ⟨e, ?_⟩
    rw [draftOf_children hkey hname]
    exact bind_eq_ok.2 ⟨entries, hentries, he⟩
  case field =>
    intro key name value rest d hkey hname ih hbare
    obtain ⟨d', h⟩ := hbare
    rw [Property.allBare, Property.bare, draftOf_field (key.bare_text?.trans hkey) hname] at h
    obtain ⟨e', he', h⟩ := bind_eq_ok.1 h
    obtain ⟨e, he⟩ := Draft.set_of_bare he'
    cases he'.symm.trans (Draft.set_bare he)
    obtain ⟨f, hf⟩ := ih e ⟨d', h⟩
    refine ⟨f, ?_⟩
    rw [draftOf_field hkey hname]
    exact bind_eq_ok.2 ⟨e, he, hf⟩
  case shorthand =>
    intro name span rest d ih hbare
    obtain ⟨d', h⟩ := hbare
    apply ih
    refine ⟨d', ?_⟩
    rw [Property.allBare, Property.bare, draftOf] at h
    split at h
    · rename_i hname
      rw [if_pos hname, Draft.bare_setComponent]
      exact h
    · rename_i hname
      rw [if_neg hname]
      exact h
  case skipped =>
    intro prop rest d hskipped ih hbare
    rw [Property.allBare, draftOf_skipped (isSkipped_bare hskipped)] at hbare
    obtain ⟨d', hd'⟩ := ih hbare
    exact ⟨d', (draftOf_skipped hskipped).trans hd'⟩

end RoutePages
