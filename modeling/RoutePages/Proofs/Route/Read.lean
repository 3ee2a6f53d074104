import RoutePages.Proofs.Succeeds
import RoutePages.Route.Extract

/-!
# How the properties of an entry are read

A property is read by its name. Whatever is proved of entries that are read has these
cases.
-/
namespace RoutePages

open Script

theorem Directive.ofKey?_eq_some {name : Text} {directive : Directive} :
    Directive.ofKey? name = some directive ↔ name = directive.key := by
  constructor
  · intro h
    have hkey := List.find?_some (p := fun d : Directive => d.key == name) h
    exact (eq_of_beq hkey).symm
  · rintro rfl
    cases directive <;> rfl

theorem Directive.ofKey?_eq_none {name : Text} :
    Directive.ofKey? name = none ↔ ∀ directive : Directive, name ≠ directive.key := by
  rw [Option.eq_none_iff_forall_ne_some]
  exact forall_congr' fun _ => not_congr Directive.ofKey?_eq_some

namespace Draft

/-- What is read from a property that holds no children. -/
inductive Sets (d : Draft) (key : Key) (value : Expr) : Text → Draft → Prop
  | name : Sets d key value "name" (d.setName value)
  | path : Sets d key value "path" (d.setPath value)
  | component : Sets d key value "component" (d.setComponent (.ofExpr value))
  | directive (directive : Directive) (flag : Bool) (hflag : directive.flag value = .ok flag) :
    Sets d key value directive.key
      (d.setDirective directive flag ⟨key.span.start, value.stop⟩)
  | other (name : Text) (hname : name ≠ "name") (hpath : name ≠ "path")
    (hcomponent : name ≠ "component") (hdirective : Directive.ofKey? name = none) :
    Sets d key value name d

/-- A directive is read once its value is found to be a boolean. -/
theorem set_directive (d : Draft) (key : Key) (directive : Directive) (value : Expr) :
    d.set key directive.key value = directive.flag value >>= fun flag =>
      .ok (d.setDirective directive flag ⟨key.span.start, value.stop⟩) := by
  cases directive <;> rfl

theorem set_eq_ok {d d' : Draft} {key : Key} {name : Text} {value : Expr} :
    d.set key name value = .ok d' ↔ Sets d key value name d' := by
  constructor
  · intro h
    unfold set at h
    split at h
    · rename_i hname
      cases eq_of_beq hname
      cases h
      exact .name
    split at h
    · rename_i hpath
      cases eq_of_beq hpath
      cases h
      exact .path
    split at h
    · rename_i hcomponent
      cases eq_of_beq hcomponent
      cases h
      exact .component
    rename_i hname hpath hcomponent
    split at h
    · rename_i directive hdirective
      obtain ⟨flag, hflag, h⟩ := bind_eq_ok.1 h
      cases Directive.ofKey?_eq_some.1 hdirective
      cases h
      exact .directive directive flag hflag
    · rename_i hdirective
      cases h
      exact .other name (by simpa using hname) (by simpa using hpath) (by simpa using hcomponent)
        hdirective
  · intro h
    cases h with
    | name => rfl
    | path => rfl
    | component => rfl
    | directive directive flag hflag =>
      rw [set_directive]
      exact bind_eq_ok.2 ⟨flag, hflag, rfl⟩
    | other _ hname hpath hcomponent hdirective =>
      simp only [set, beq_iff_eq, hname, hpath, hcomponent, if_false, hdirective]

theorem finish_eq_ok {d : Draft} {e : Entry} :
    d.finish = .ok e ↔ e = d.entry ∧
      (d.opaqueName = none ∨ ∀ value span, d.entry.component ≠ some (.path value span)) := by
  unfold finish
  split
  · rename_i offset value span hname hcomponent
    refine ⟨nofun, fun h => ?_⟩
    rcases h.2 with h | h
    · cases hname.symm.trans h
    · exact absurd hcomponent (h value span)
  · rename_i hno
    constructor
    · intro h
      cases h
      refine ⟨rfl, ?_⟩
      cases hname : d.opaqueName with
      | none => exact .inl rfl
      | some offset => exact .inr fun value span hc => hno offset value span hname hc
    · intro h
      rw [h.1]

end Draft

/-- A property that nothing is read from. -/
inductive Script.Property.IsSkipped : Property → Prop
  | computed (key : Key) (value : Expr) (hkey : key.text? = none) : IsSkipped (.field key value)
  | noArray (key : Key) (name : Text) (value : Expr) (hkey : key.text? = some name)
    (hname : holdsChildren name = true) (harray : ∀ elements span, value ≠ .array elements span) :
    IsSkipped (.field key value)
  | spread (value : Expr) : IsSkipped (.spread value)
  | default (name : Text) (value : Expr) (span : Span) : IsSkipped (.default name value span)
  | method (parts : List Part) (span : Span) : IsSkipped (.method parts span)

variable {key : Key} {name : Text} {value : Expr} {rest : List Property} {d : Draft}

/-- The value of a field is either an array or none. -/
theorem exists_array (value : Expr) : (∃ elements span, value = .array elements span) ∨
    ∀ elements span, value ≠ .array elements span := by
  cases value with
  | array elements span => exact .inl ⟨elements, span, rfl⟩
  | _ => exact .inr fun _ _ h => by cases h

/-- What is no object is no entry. -/
theorem entryOf?_other {element : Element}
    (h : ∀ props span, element ≠ .item (.object props span)) : entryOf? element = .ok none := by
  rw [entryOf?]
  exact h

theorem draftOf_skipped {prop : Property} (h : prop.IsSkipped) :
    draftOf (prop :: rest) d = draftOf rest d := by
  cases h with
  | computed key value hkey =>
    obtain ⟨elements, span, rfl⟩ | harray := exists_array value
    · rw [draftOf, hkey]
    · rw [draftOf, hkey]
      exact harray
  | noArray key name value hkey hname harray =>
    rw [draftOf, hkey]
    · simp only [hname, if_true]
    · exact harray
  | spread value => rfl
  | default name value span => rfl
  | method parts span => rfl

/-- A field that holds no children is read by itself. -/
theorem draftOf_field (hkey : key.text? = some name) (hname : holdsChildren name = false) :
    draftOf (.field key value :: rest) d = d.set key name value >>= draftOf rest := by
  obtain ⟨elements, span, rfl⟩ | harray := exists_array value
  · rw [draftOf, hkey]
    simp only [hname]
    rfl
  · rw [draftOf, hkey]
    · simp only [hname]
      rfl
    · exact harray

theorem draftOf_children {elements : List Element} {span : Span} (hkey : key.text? = some name)
    (hname : holdsChildren name = true) :
    draftOf (.field key (.array elements span) :: rest) d =
      entriesOf elements >>= fun children => draftOf rest (d.addChildren children) := by
  rw [draftOf, hkey]
  simp only [hname, if_true]

/-- What is kept by each way of reading holds of all elements and properties. -/
theorem reading_induction {P : Element → Prop} {Q : List Property → Draft → Prop}
    {R : List Element → Prop}
    (object : ∀ props span, Q props (.empty span) → P (.item (.object props span)))
    (other : ∀ element, (∀ props span, element ≠ .item (.object props span)) → P element)
    (nil : R [])
    (cons : ∀ element rest, P element → R rest → R (element :: rest))
    (done : ∀ d, Q [] d)
    (children : ∀ key name elements span rest d, key.text? = some name →
      holdsChildren name = true → R elements → (∀ entries, Q rest (d.addChildren entries)) →
      Q (.field key (.array elements span) :: rest) d)
    (field : ∀ key name value rest d, key.text? = some name → holdsChildren name = false →
      (∀ e, Q rest e) → Q (.field key value :: rest) d)
    (shorthand : ∀ (name : Text) span rest d,
      Q rest (if name == "component" then d.setComponent (.bound name span) else d) →
      Q (.shorthand name span :: rest) d)
    (skipped : ∀ prop rest d, prop.IsSkipped → Q rest d → Q (prop :: rest) d) :
    (∀ element, P element) ∧ (∀ props d, Q props d) ∧ (∀ elements, R elements) := by
  apply entryOf?.mutual_induct P Q R object other nil cons done
  · intro key elements span rest d hkey ih
    exact skipped _ rest d (.computed key _ hkey) ih
  · intro key elements span rest d name hkey hname ihElements ihRest
    exact children key name elements span rest d hkey hname ihElements ihRest
  · intro key elements span rest d name hkey hname ih
    exact field key name _ rest d hkey (Bool.eq_false_iff.2 hname) ih
  · intro key value rest d harray hkey ih
    exact skipped _ rest d (.computed key value hkey) ih
  · intro key value rest d harray name hkey hname ih
    exact skipped _ rest d (.noArray key name value hkey hname harray) ih
  · intro key value rest d harray name hkey hname ih
    exact field key name value rest d hkey (Bool.eq_false_iff.2 hname) ih
  · exact shorthand
  · intro prop rest d harray hfield hshorthand ih
    refine skipped prop rest d ?_ ih
    cases prop with
    | field key value => exact absurd rfl (hfield key value)
    | shorthand name span => exact absurd rfl (hshorthand name span)
    | spread value => exact .spread value
    | default name value span => exact .default name value span
    | method parts span => exact .method parts span

/-- Properties are read one after the other. -/
theorem draftOf_append (props more : List Property) (d : Draft) :
    draftOf (props ++ more) d = draftOf props d >>= draftOf more := by
  have hall : (∀ element : Element, True) ∧
      (∀ props d, draftOf (props ++ more) d = draftOf props d >>= draftOf more) ∧
      ∀ elements : List Element, True := by
    apply reading_induction
    · exact fun _ _ _ => trivial
    · exact fun _ _ => trivial
    · trivial
    · exact fun _ _ _ _ => trivial
    · exact fun d => rfl
    · intro key name elements span rest d hkey hname _ ih
      rw [List.cons_append, draftOf_children hkey hname, draftOf_children hkey hname, bind_assoc]
      exact congrArg (entriesOf elements >>= ·) (funext ih)
    · intro key name value rest d hkey hname ih
      rw [List.cons_append, draftOf_field hkey hname, draftOf_field hkey hname, bind_assoc]
      exact congrArg (d.set key name value >>= ·) (funext ih)
    · intro name span rest d ih
      exact ih
    · intro prop rest d hskipped ih
      rw [List.cons_append, draftOf_skipped hskipped, draftOf_skipped hskipped]
      exact ih
  exact hall.2.1 props d

/-- What is kept by each way of reading holds of all that is read. -/
theorem entries_induction {P : Element → Option Entry → Prop}
    {Q : List Property → Draft → Draft → Prop} {R : List Element → List Entry → Prop}
    (object : ∀ props span d e, Q props (.empty span) d → d.finish = .ok e →
      P (.item (.object props span)) (some e))
    (other : ∀ element, (∀ props span, element ≠ .item (.object props span)) → P element none)
    (nil : R [] [])
    (cons : ∀ element rest entry more, P element entry → R rest more →
      R (element :: rest) (entry.toList ++ more))
    (done : ∀ d, Q [] d d)
    (children : ∀ key name elements span rest d d' entries, key.text? = some name →
      holdsChildren name = true → R elements entries → Q rest (d.addChildren entries) d' →
      Q (.field key (.array elements span) :: rest) d d')
    (field : ∀ key name value rest d e d', key.text? = some name → holdsChildren name = false →
      d.set key name value = .ok e → Q rest e d' → Q (.field key value :: rest) d d')
    (shorthand : ∀ (name : Text) span rest d d',
      Q rest (if name == "component" then d.setComponent (.bound name span) else d) d' →
      Q (.shorthand name span :: rest) d d')
    (skipped : ∀ prop rest d d', prop.IsSkipped → Q rest d d' → Q (prop :: rest) d d') :
    (∀ element entry, entryOf? element = .ok entry → P element entry) ∧
    (∀ props d d', draftOf props d = .ok d' → Q props d d') ∧
    (∀ elements entries, entriesOf elements = .ok entries → R elements entries) := by
  apply reading_induction
  · intro props span ih entry h
    obtain ⟨d, hd, h⟩ := bind_eq_ok.1 h
    obtain ⟨e, hfinish, h⟩ := bind_eq_ok.1 h
    cases h
    exact object props span d e (ih d hd) hfinish
  · intro element hno entry h
    rw [entryOf?_other hno] at h
    cases h
    exact other element hno
  · intro entries h
    cases h
    exact nil
  · intro element rest ihFirst ihRest entries h
    obtain ⟨entry, hentry, h⟩ := bind_eq_ok.1 h
    obtain ⟨more, hmore, h⟩ := bind_eq_ok.1 h
    cases h
    exact cons element rest entry more (ihFirst entry hentry) (ihRest more hmore)
  · intro d d' h
    cases h
    exact done d
  · intro key name elements span rest d hkey hname ihElements ihRest d' h
    rw [draftOf_children hkey hname] at h
    obtain ⟨entries, hentries, h⟩ := bind_eq_ok.1 h
    exact children key name elements span rest d d' entries hkey hname
      (ihElements entries hentries) (ihRest entries d' h)
  · intro key name value rest d hkey hname ih d' h
    rw [draftOf_field hkey hname] at h
    obtain ⟨e, hset, h⟩ := bind_eq_ok.1 h
    exact field key name value rest d e d' hkey hname hset (ih e d' h)
  · intro name span rest d ih d' h
    exact shorthand name span rest d d' (ih d' h)
  · intro prop rest d hskipped ih d' h
    rw [draftOf_skipped hskipped] at h
    exact skipped prop rest d d' hskipped (ih d' h)

end RoutePages
