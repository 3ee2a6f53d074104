import RoutePages.Proofs.Route.Bare
import RoutePages.Proofs.Route.PassedOver

/-!
# Entries and values

The entries of a route array are read from its syntax. They are those of the value of the array,
without what is passed over.
-/
namespace RoutePages

open Script

/-! ## Reading fields -/

namespace Draft

/-- Reading fields leads from one draft to another, but for their spans. -/
structure Reads (d : Draft) (fields : List (Text × Literal)) (d' : Draft) : Prop where
  name : d'.entry.name = (lastOf? Literal.text? "name" fields).or d.entry.name := by rfl
  path : d'.entry.path = (lastOf? Literal.text? "path" fields).or d.entry.path := by rfl
  component : d'.entry.component.map Component.bare =
    (componentOf fields).or (d.entry.component.map Component.bare) := by rfl
  table : d'.entry.table = (lastOf? Literal.flag? "table" fields).getD d.entry.table := by rfl
  service : d'.entry.service =
    (lastOf? Literal.flag? "service" fields).getD d.entry.service := by rfl
  cover : d'.entry.cover = (lastOf? Literal.flag? "cover" fields).or d.entry.cover := by rfl
  children : Entry.allBare d'.entry.children =
    Entry.allBare d.entry.children ++ Literal.childEntries fields := by
      exact (List.append_nil _).symm
  directives : d'.entry.directives.map DirectiveSpan.bare =
    d.entry.directives.map DirectiveSpan.bare ++ directivesOf fields := by
      exact (List.append_nil _).symm
  opaqueName : d'.opaqueName.isSome = true ↔
    HasOpaqueName fields ∨ d.opaqueName.isSome = true

variable {d d₁ d' : Draft} {name : Text} {value : Expr} {l : Literal}

theorem Reads.nil (d : Draft) : d.Reads [] d where
  opaqueName := by
    refine (or_iff_right ?_).symm
    rintro ⟨_, hfield, -⟩
    cases hfield

theorem Reads.trans {l₁ l₂ : List (Text × Literal)} (h₁ : d.Reads l₁ d₁) (h₂ : d₁.Reads l₂ d') :
    d.Reads (l₁ ++ l₂) d' where
  name := by rw [h₂.name, h₁.name, lastOf?_append, Option.or_assoc]
  path := by rw [h₂.path, h₁.path, lastOf?_append, Option.or_assoc]
  component := by
    rw [h₂.component, h₁.component, componentOf, componentOf, componentOf, lastOf?_append,
      Option.or_assoc]
  table := by rw [h₂.table, h₁.table, lastOf?_append, Option.getD_or]
  service := by rw [h₂.service, h₁.service, lastOf?_append, Option.getD_or]
  cover := by rw [h₂.cover, h₁.cover, lastOf?_append, Option.or_assoc]
  children := by rw [h₂.children, h₁.children, Literal.childEntries_append, List.append_assoc]
  directives := by
    rw [h₂.directives, h₁.directives, directivesOf, directivesOf, directivesOf,
      List.filterMap_append, List.append_assoc]
  opaqueName := by
    rw [h₂.opaqueName, h₁.opaqueName, hasOpaqueName_append, or_assoc]
    exact or_left_comm

/-- The computation reads the fields, unless one of them cannot be read. -/
def Gives (d : Draft) (fields : List (Text × Literal)) (x : Except FieldError Draft) : Prop :=
  Decides (∀ field ∈ fields, IsSoundField field) (d.Reads fields) x

theorem gives_nil (d : Draft) : d.Gives [] (.ok d) :=
  .ok (List.forall_mem_nil _) (.nil d)

theorem Gives.bind {l₁ l₂ : List (Text × Literal)} {x : Except FieldError Draft}
    {f : Draft → Except FieldError Draft} (hx : d.Gives l₁ x)
    (hf : ∀ d₁, x = .ok d₁ → d₁.Gives l₂ (f d₁)) : d.Gives (l₁ ++ l₂) (x >>= f) := by
  have hall := Decides.bind hx fun d₁ hd₁ (h₁ : d.Reads l₁ d₁) =>
    (hf d₁ hd₁).imp Iff.rfl fun _ h₂ => h₁.trans h₂
  exact hall.imp List.forall_mem_append.symm fun _ h => h

/-- A field that can be read is read by itself. -/
theorem gives_singleton {field : Text × Literal} {x : Except FieldError Draft}
    (h : Decides (IsSoundField field) (d.Reads [field]) x) : d.Gives [field] x :=
  h.imp List.forall_mem_singleton.symm fun _ h => h

theorem reads_setName (hvalue : value.evaluate = .ok l) :
    d.Reads [("name", l)] (d.setName value) := by
  unfold setName
  rw [hvalue]
  cases l <;> exact { opaqueName := by simp [hasOpaqueName_singleton, Literal.text?] }

theorem reads_setPath (hvalue : value.evaluate = .ok l) :
    d.Reads [("path", l)] (d.setPath value) := by
  have hopaque := not_hasOpaqueName_singleton l (show ("path" : Text) ≠ "name" by decide)
  unfold setPath
  rw [hvalue]
  cases l <;> exact { opaqueName := (or_iff_right hopaque).symm }

theorem reads_setComponent {component : Component} (hcomponent : component.bare = .ofLiteral l) :
    d.Reads [("component", l)] (d.setComponent component) where
  component := congrArg some hcomponent
  children := by
    rw [Literal.childEntries_of_not_holdsChildren l (by decide), List.append_nil]
    rfl
  opaqueName := (or_iff_right (not_hasOpaqueName_singleton l (by decide))).symm

theorem reads_setDirective (directive : Directive) (flag : Bool) (span : Span) :
    d.Reads [(directive.key, .bool flag)] (d.setDirective directive flag span) := by
  have hopaque := not_hasOpaqueName_singleton (.bool flag)
    (show directive.key ≠ "name" by cases directive <;> decide)
  unfold setDirective
  cases directive <;> exact {
    directives := List.map_append
    opaqueName := (or_iff_right hopaque).symm }

theorem reads_addChildren {items : List Literal} {entries : List Entry}
    (hname : holdsChildren name = true) (hentries : Entry.allBare entries = Literal.entries items) :
    d.Reads [(name, .array items)] (d.addChildren entries) := by
  have hchildren : Entry.allBare (d.entry.children ++ entries) =
      Entry.allBare d.entry.children ++ (Literal.entries items ++ []) := by
    rw [Entry.allBare_append, hentries, List.append_nil]
  rcases Bool.or_eq_true_iff.1 hname with hkey | hkey <;> cases eq_of_beq hkey <;> exact {
    children := hchildren
    opaqueName := (or_iff_right (not_hasOpaqueName_singleton _ (by decide))).symm }

/-- A field that is not asked for changes nothing. -/
theorem reads_other (hname : name ≠ "name") (hpath : name ≠ "path")
    (hcomponent : name ≠ "component") (hdirective : Directive.ofKey? name = none)
    (hchildren : Literal.childEntries [(name, l)] = []) : d.Reads [(name, l)] d := by
  have htable : name ≠ "table" := Directive.ofKey?_eq_none.1 hdirective .table
  have hservice : name ≠ "service" := Directive.ofKey?_eq_none.1 hdirective .service
  have hcover : name ≠ "cover" := Directive.ofKey?_eq_none.1 hdirective .cover
  have hdirectives : directivesOf [(name, l)] = [] := by
    rw [directivesOf, List.filterMap_cons, hdirective]
    rfl
  constructor
  · rw [lastOf?_singleton, if_neg hname, Option.none_or]
  · rw [lastOf?_singleton, if_neg hpath, Option.none_or]
  · rw [componentOf, lastOf?_singleton, if_neg hcomponent, Option.none_or]
  · rw [lastOf?_singleton, if_neg htable, Option.getD_none]
  · rw [lastOf?_singleton, if_neg hservice, Option.getD_none]
  · rw [lastOf?_singleton, if_neg hcover, Option.none_or]
  · rw [hchildren, List.append_nil]
  · rw [hdirectives, List.append_nil]
  · exact (or_iff_right (not_hasOpaqueName_singleton l hname)).symm

/-- A field that is no directive and holds no children can be read. -/
theorem isSoundField_of_ofKey?_eq_none (hdirective : Directive.ofKey? name = none)
    (hchildren : holdsChildren name = false ∨ ∀ items, l ≠ .array items) :
    IsSoundField (name, l) := by
  constructor
  · rintro ⟨⟨directive, hkey⟩, -⟩
    exact Directive.ofKey?_eq_none.1 hdirective directive hkey
  · intro items harray hholds
    rcases hchildren with hname | hno
    · cases hname.symm.trans hholds
    · exact absurd harray (hno items)

/-- A directive with a value is read if that is a boolean. -/
theorem flag_decides (directive : Directive) (hvalue : value.evaluate = .ok l) :
    Decides (IsSoundField (directive.key, l)) (fun flag => l = .bool flag)
      (directive.flag value) := by
  have hbad (hflag : l.flag? = none) : ¬ IsSoundField (directive.key, l) :=
    fun hsound => hsound.1 ⟨⟨directive, rfl⟩, hflag⟩
  unfold Directive.flag
  rw [hvalue]
  cases l with
  | bool flag =>
    refine .ok ⟨?_, nofun⟩ rfl
    rintro ⟨-, ⟨⟩⟩
  | _ => exact .error (hbad rfl)

/-- A field is read by itself unless it is a directive that is no boolean. -/
theorem set_decides (d : Draft) (key : Key) (hvalue : value.evaluate = .ok l)
    (hname : holdsChildren name = false) :
    Decides (IsSoundField (name, l)) (d.Reads [(name, l)]) (d.set key name value) := by
  have hplain (hdirective : Directive.ofKey? name = none) : IsSoundField (name, l) :=
    isSoundField_of_ofKey?_eq_none hdirective (.inl hname)
  by_cases hn : name = "name"
  · subst hn
    exact .ok (hplain rfl) (reads_setName hvalue)
  by_cases hp : name = "path"
  · subst hp
    exact .ok (hplain rfl) (reads_setPath hvalue)
  by_cases hc : name = "component"
  · subst hc
    refine .ok (hplain rfl) (reads_setComponent ?_)
    unfold Component.ofExpr
    rw [hvalue]
    cases l <;> rfl
  cases hdirective : Directive.ofKey? name with
  | none =>
    have hset : d.set key name value = .ok d := set_eq_ok.2 (.other name hn hp hc hdirective)
    rw [hset]
    exact .ok (hplain hdirective) (reads_other hn hp hc hdirective
      (Literal.childEntries_of_not_holdsChildren l hname))
  | some directive =>
    cases Directive.ofKey?_eq_some.1 hdirective
    rw [set_directive, ← and_true (IsSoundField _)]
    apply (flag_decides directive hvalue).bind
    intro flag _ hflag
    cases hflag
    exact .ok trivial (reads_setDirective directive flag _)

theorem ofKey?_of_holdsChildren (hname : holdsChildren name = true) :
    Directive.ofKey? name = none := by
  rcases Bool.or_eq_true_iff.1 hname with hkey | hkey <;> cases eq_of_beq hkey <;> rfl

/-- A field for children can be read if they can. -/
theorem isSoundField_children {items : List Literal} (hname : holdsChildren name = true) :
    IsSoundField (name, .array items) ↔ IsSound items := by
  constructor
  · intro h
    exact h.2 items rfl hname
  · intro h
    constructor
    · rintro ⟨⟨directive, hkey⟩, -⟩
      exact Directive.ofKey?_eq_none.1 (ofKey?_of_holdsChildren hname) directive hkey
    · rintro _ ⟨⟩ -
      exact h

/-- A field for children that holds no array is passed over. -/
theorem gives_noArray (d : Draft) (hname : holdsChildren name = true)
    (hno : ∀ items, l ≠ .array items) : d.Gives [(name, l)] (.ok d) := by
  have hchildren : Literal.childEntries [(name, l)] = [] := by
    cases l with
    | array items => exact absurd rfl (hno items)
    | _ => rfl
  rcases Bool.or_eq_true_iff.1 hname with hkey | hkey <;> cases eq_of_beq hkey <;>
    exact gives_singleton (.ok (isSoundField_of_ofKey?_eq_none rfl (.inr hno))
      (reads_other (by decide) (by decide) (by decide) rfl hchildren))

/-- The finished entry is the one that its fields are. -/
theorem finish_decides {span : Span} {fields : List (Text × Literal)}
    (h : (empty span).Reads fields d) :
    Decides (¬ IsUntitled fields) (fun e => some e.bare = (Literal.object fields).entryOf?)
      d.finish := by
  have hcomponent : d.entry.component.map Component.bare = componentOf fields :=
    h.component.trans Option.or_none
  have hopaque : d.opaqueName.isSome = true ↔ HasOpaqueName fields :=
    h.opaqueName.trans (or_iff_left Bool.false_ne_true)
  cases hfinish : d.finish with
  | error e =>
    unfold finish at hfinish
    split at hfinish
    · rename_i offset page span hname hpath
      rw [hpath] at hcomponent
      rw [hname] at hopaque
      exact .error (not_not_intro ⟨⟨page, hcomponent.symm⟩, hopaque.1 rfl⟩)
    · cases hfinish
  | ok e =>
    obtain ⟨rfl, hplain⟩ := finish_eq_ok.1 hfinish
    refine .ok ?_ ?_
    · rintro ⟨⟨page, hpage⟩, hname⟩
      rcases hplain with hnone | hno
      · have hsome := hopaque.2 hname
        rw [hnone] at hsome
        cases hsome
      · rw [hpage] at hcomponent
        obtain ⟨component, hpath, hbare⟩ := Option.map_eq_some_iff.1 hcomponent
        cases component with
        | path value span => exact hno value span hpath
        | bound name span => cases hbare
        | inline => cases hbare
    · rw [Entry.bare_eq, Literal.entryOf?, hcomponent, h.name, h.path, h.table, h.service, h.cover,
        h.children, h.directives]
      simp only [empty, Option.or_none]
      rfl

end Draft

/-! ## Reading entries -/

open Draft

variable {whole : Span} {first : List (Text × Literal)} {d : Draft}

/-- A property that nothing is read from changes nothing. -/
theorem Script.Property.IsSkipped.gives {prop : Property} (hskipped : prop.IsSkipped)
    (h : Property.evaluateAll whole prop.read = .ok first) : d.Gives first (.ok d) := by
  cases hskipped with
  | computed key value hkey =>
    rw [Property.read_field (by rw [hkey]; rfl)] at h
    obtain ⟨_, ⟨hname, -⟩, -⟩ := Property.evaluateAll_singleton.1 h
    cases hkey.symm.trans hname
  | noArray key name value hkey hname harray =>
    rw [Property.read, hkey, Option.any_some, hname, Bool.true_and] at h
    · by_cases hwrapped : value.unwrapped.isArray = true
      · rw [if_pos hwrapped] at h
        cases h
        exact gives_nil d
      · rw [if_neg hwrapped] at h
        obtain ⟨_, ⟨hname', hvalue⟩, rfl⟩ := Property.evaluateAll_singleton.1 h
        cases hkey.symm.trans hname'
        have hno := (Expr.evaluate_unwrapped hvalue).2 (Bool.eq_false_iff.2 hwrapped)
        exact gives_noArray d hname hno
    · exact harray
  | spread value => cases h
  | default name value span => cases h
  | method parts span => cases h

theorem Script.Property.gives_field {key : Key} {name : Text} {value : Expr}
    (hkey : key.text? = some name) (hname : holdsChildren name = false)
    (h : Property.evaluateAll whole (Property.field key value).read = .ok first) :
    d.Gives first (d.set key name value) := by
  rw [Property.read_field (by rw [hkey]; exact hname)] at h
  obtain ⟨_, ⟨hname', hvalue⟩, rfl⟩ := Property.evaluateAll_singleton.1 h
  cases hkey.symm.trans hname'
  exact gives_singleton (set_decides d key hvalue hname)

/-- Of the shorthand fields that are not passed over, only the one for the component is read: the
others hold no text. -/
theorem Script.Property.gives_shorthand {name : Text} {span : Span}
    (h : Property.evaluateAll whole (Property.shorthand name span).read = .ok first) :
    d.Gives first (.ok (if name == "component" then d.setComponent (.bound name span) else d)) := by
  rw [Property.read] at h
  by_cases hunread : isUnread name = true
  · rw [if_pos hunread] at h
    cases h
    have hcomponent : name ≠ "component" := by
      rintro rfl
      cases hunread
    rw [if_neg (mt eq_of_beq hcomponent)]
    exact gives_nil d
  · rw [if_neg hunread] at h
    obtain ⟨_, ⟨⟩, rfl⟩ := Property.evaluateAll_singleton.1 h
    obtain ⟨hname, hdirective⟩ := Bool.or_eq_false_iff.1 (Bool.eq_false_iff.2 hunread)
    have hname : name ≠ "name" := beq_eq_false_iff_ne.1 hname
    have hdirective : Directive.ofKey? name = none :=
      Option.isNone_iff_eq_none.1 (Option.isSome_eq_false_iff.1 hdirective)
    have hno : ∀ items, Literal.ident name ≠ .array items := by
      intro items h
      cases h
    have hsound : IsSoundField (name, .ident name) :=
      isSoundField_of_ofKey?_eq_none hdirective (.inr hno)
    apply gives_singleton
    apply Decides.ok hsound
    by_cases hcomponent : name = "component"
    · subst hcomponent
      exact reads_setComponent rfl
    rw [if_neg (mt eq_of_beq hcomponent)]
    by_cases hpath : name = "path"
    · subst hpath
      have hvalue : (Expr.ident "path" span).evaluate = .ok (.ident "path") := rfl
      exact reads_setPath hvalue
    exact reads_other hname hpath hcomponent hdirective rfl

theorem Script.Property.gives_children {key : Key} {name : Text} {elements : List Element}
    {span : Span} (hkey : key.text? = some name) (hname : holdsChildren name = true)
    (hread : ∀ items, Element.evaluateAll span (Element.allRead elements) = .ok items →
      Decides (IsSound items) (fun entries => Entry.allBare entries = Literal.entries items)
        (entriesOf elements))
    (h : Property.evaluateAll whole (Property.field key (.array elements span)).read = .ok first) :
    d.Gives first (entriesOf elements >>= fun children => .ok (d.addChildren children)) := by
  rw [Property.read, if_pos (by rw [hkey]; exact hname)] at h
  obtain ⟨_, ⟨hname', hvalue⟩, rfl⟩ := Property.evaluateAll_singleton.1 h
  cases hkey.symm.trans hname'
  obtain ⟨items, hitems, rfl⟩ := map_eq_ok.1 hvalue
  have hall := (hread items hitems).bind fun entries _ hentries =>
    Decides.ok trivial (reads_addChildren (d := d) hname hentries)
  rw [and_true, ← isSoundField_children hname] at hall
  exact gives_singleton hall

/-- Properties are read one after the other. -/
theorem Draft.gives_cons {prop : Property} {rest : List Property} {x : Except FieldError Draft}
    {seen : List (Text × Literal)} (hx : draftOf (prop :: rest) d = x >>= draftOf rest)
    (hprop : ∀ first, Property.evaluateAll whole prop.read = .ok first → d.Gives first x)
    (hrest : ∀ d₁, x = .ok d₁ → ∀ more,
      Property.evaluateAll whole (Property.allRead rest) = .ok more →
        d₁.Gives more (draftOf rest d₁))
    (h : Property.evaluateAll whole (Property.allRead (prop :: rest)) = .ok seen) :
    d.Gives seen (draftOf (prop :: rest) d) := by
  obtain ⟨first, more, hfirst, hmore, rfl⟩ := Property.evaluateAll_append.1 h
  rw [hx]
  exact (hprop first hfirst).bind fun d₁ hd₁ => hrest d₁ hd₁ more hmore

/-- An element that is no object is none as a value, unless it is passed over. -/
theorem Script.Element.entries_other {element : Element} {seen : List Literal}
    (hno : ∀ props span, element ≠ .item (.object props span))
    (h : Element.evaluateAll whole element.read = .ok seen) :
    IsSound seen ∧ Literal.entries seen = [] := by
  cases element with
  | hole => cases h
  | spread value => cases h
  | item value =>
    rw [Element.read] at h
    · by_cases hwrapped : value.unwrapped.isObject = true
      · rw [if_pos hwrapped] at h
        cases h
        exact ⟨List.forall_mem_nil _, rfl⟩
      · rw [if_neg hwrapped] at h
        obtain ⟨l, ⟨hvalue⟩, rfl⟩ := Element.evaluateAll_singleton.1 h
        have hnone := (Expr.evaluate_unwrapped hvalue).1 (Bool.eq_false_iff.2 hwrapped)
        have hentries : Literal.entries [l] = [] := by
          rw [Literal.entries, hnone]
          rfl
        exact ⟨isSound_of_entryOf?_eq_none hnone, hentries⟩
    · intro props span hvalue
      exact hno props span (congrArg Element.item hvalue)

/-- An object is read as the entry that its fields are. -/
theorem Script.Element.object_decides {props : List Property} {span : Span}
    {fields : List (Text × Literal)}
    (hdraft : (empty span).Gives fields (draftOf props (.empty span))) :
    Decides (IsSound [.object fields])
      (fun entry => Entry.allBare entry.toList = Literal.entries [.object fields])
      (entryOf? (.item (.object props span))) := by
  rw [entryOf?, isSound_object]
  apply Decides.bind hdraft
  intro d _ hreads
  rw [← and_true (¬ IsUntitled fields)]
  apply (finish_decides hreads).bind
  intro e _ he
  apply Decides.ok trivial
  show [e.bare] = _
  rw [Literal.entries, ← he]
  rfl

/-- The reader agrees with the evaluator on what it does not pass over. -/
theorem allRead_decides :
    (∀ element whole seen, Element.evaluateAll whole element.read = .ok seen →
      Decides (IsSound seen) (fun entry => Entry.allBare entry.toList = Literal.entries seen)
        (entryOf? element)) ∧
    (∀ props (d : Draft) whole seen,
      Property.evaluateAll whole (Property.allRead props) = .ok seen →
      d.Gives seen (draftOf props d)) ∧
    (∀ elements whole seen, Element.evaluateAll whole (Element.allRead elements) = .ok seen →
      Decides (IsSound seen) (fun entries => Entry.allBare entries = Literal.entries seen)
        (entriesOf elements)) := by
  apply reading_induction
  · intro props span ih whole seen h
    rw [Element.read] at h
    obtain ⟨_, ⟨hvalue⟩, rfl⟩ := Element.evaluateAll_singleton.1 h
    obtain ⟨fields, hfields, rfl⟩ := map_eq_ok.1 hvalue
    exact Element.object_decides (ih span fields hfields)
  · intro element hno whole seen h
    obtain ⟨hsound, hentries⟩ := Element.entries_other hno h
    rw [entryOf?_other hno]
    exact .ok hsound hentries.symm
  · intro whole seen h
    cases h
    exact .ok (List.forall_mem_nil _) rfl
  · intro element rest ih ihRest whole seen h
    obtain ⟨first, more, hfirst, hmore, rfl⟩ := Element.evaluateAll_append.1 h
    rw [entriesOf, isSound_append]
    apply (ih whole first hfirst).bind
    intro entry _ hentry
    rw [← and_true (IsSound more)]
    apply (ihRest whole more hmore).bind
    intro entries _ hentries
    apply Decides.ok trivial
    rw [Entry.allBare_append, Literal.entries_append, hentry, hentries]
  · intro d whole seen h
    cases h
    exact gives_nil d
  · intro key name elements span rest d hkey hname ihElements ihRest whole seen h
    have hx : draftOf (.field key (.array elements span) :: rest) d =
        (entriesOf elements >>= fun children => .ok (d.addChildren children)) >>= draftOf rest := by
      rw [draftOf_children hkey hname, bind_assoc]
      rfl
    apply gives_cons hx (fun first => Property.gives_children hkey hname (ihElements span)) ?_ h
    intro d₁ hd₁
    obtain ⟨children, -, hchildren⟩ := bind_eq_ok.1 hd₁
    cases hchildren
    exact ihRest children whole
  · intro key name value rest d hkey hname ih whole seen h
    exact gives_cons (draftOf_field hkey hname) (fun first => Property.gives_field hkey hname)
      (fun d₁ _ => ih d₁ whole) h
  · intro name span rest d ih whole seen h
    have hx : draftOf (.shorthand name span :: rest) d =
        .ok (if name == "component" then d.setComponent (.bound name span) else d) >>=
          draftOf rest := by
      rw [draftOf]
      rfl
    apply gives_cons hx (fun first => Property.gives_shorthand) ?_ h
    intro d₁ hd₁
    cases hd₁
    exact ih whole
  · intro prop rest d hskipped ih whole seen h
    have hx : draftOf (prop :: rest) d = .ok d >>= draftOf rest := draftOf_skipped hskipped
    apply gives_cons hx (fun first => hskipped.gives) ?_ h
    intro d₁ hd₁
    cases hd₁
    exact ih whole

/-- A route array that is data is read as its value says, but for what the reader passes over: the
entries are those of the value of what is left. Nothing is passed over where nothing that is read
is wrapped or a shorthand. -/
theorem entriesOf_decides {elements : List Element} {span : Span} {items : List Literal}
    (h : (Expr.array elements span).evaluate = .ok (.array items)) :
    ∃ seen, (Expr.array (Element.allRead elements) span).evaluate = .ok (.array seen) ∧
      (Element.allRead elements = elements → seen = items) ∧
      (IsSound seen → ∃ entries, entriesOf elements = .ok entries ∧
        Entry.allBare entries = Literal.entries seen) ∧
      (¬ IsSound seen → ∃ e, entriesOf elements = .error e) := by
  obtain ⟨_, hitems, hsame⟩ := map_eq_ok.1 h
  cases hsame
  obtain ⟨-, -, -, hread⟩ := allRead_evaluates
  obtain ⟨seen, hseen⟩ := hread elements span items hitems
  refine ⟨seen, map_eq_ok.2 ⟨seen, hseen, rfl⟩, fun hall => ?_, fun hsound => ?_, fun hbad => ?_⟩
  · rw [hall, hitems] at hseen
    exact (Except.ok.inj hseen).symm
  · exact (allRead_decides.2.2 elements span seen hseen).exists_ok hsound
  · exact (allRead_decides.2.2 elements span seen hseen).exists_error hbad

/-- The last name and the last flag count, and a component is looked for inside parentheses. The
second array fails, since the directive of a child is no boolean. -/
theorem entriesOf_decides_nested :
    let here : Span := ⟨0, 0⟩
    let field (name : Text) (value : Expr) : Property := .field (.name name here) value
    let text (value : Text) : Expr := .string value here
    let elements (last : Expr) : List Element := [.item (.null here), .item (.object [
      field "name" (text "x"), field "name" (text "a"), field "component" (.paren (text "/a") here),
      field "routes" (.array [.item (.object [field "table" (.bool true here),
        field "path" (text "b"), field "table" last] here)] here)] here)]
    let read (e : Entry) : Option Text × Option Component × List (Option Text × Bool) :=
      (e.name, e.component, e.children.map fun child => (child.path, child.table))
    (∃ entries, entriesOf (elements (.asType (.bool false here) here)) = .ok entries ∧
      (Entry.allBare entries).map read =
        [(some ("a" : Text), some (.path "/a" nowhere), [(some ("b" : Text), false)])]) ∧
    ∃ e, entriesOf (elements (text "no")) = .error e := by
  intro here field text elements read
  constructor
  · obtain ⟨seen, -, hsame, hsound, hbad⟩ :=
      @entriesOf_decides (elements (.asType (.bool false here) here)) here _ rfl
    cases hsame rfl
    obtain ⟨entries, hentries, hbare⟩ := hsound (by
      refine Classical.not_not.1 fun hno => ?_
      obtain ⟨e, he⟩ := hbad hno
      cases he)
    refine ⟨entries, hentries, ?_⟩
    rw [hbare]
    rfl
  · obtain ⟨seen, -, hsame, -, hbad⟩ := @entriesOf_decides (elements (text "no")) here _ rfl
    cases hsame rfl
    -- the second field of the array is an object, and the fourth of that one holds the child
    refine hbad fun hsound => ?_
    have hchild := hsound _ (.tail _ (.head _)) _ (.inside (.tail _ (.tail _ (.tail _ (.head _))))
      (by decide) (.head _) (.self _))
    exact hchild.1 _ (.tail _ (.tail _ (.head _))) ⟨⟨.table, rfl⟩, rfl⟩

/-- Wrapped entries and children are passed over, and so is a shorthand directive. -/
theorem entriesOf_passes_over :
    let here : Span := ⟨0, 0⟩
    let entry (props : List Property) : Expr := .object props here
    let page : Expr := entry [.field (.name "name" here) (.string "a" here),
      .field (.name "component" here) (.string "/a" here)]
    let holds (value : Expr) : Expr := entry [.field (.name "children" here) value]
    (let elements : List Element := [.item (.paren page here)]
      ∃ items, (Expr.array elements here).evaluate = .ok (.array items) ∧
        (Literal.entries items).length = 1 ∧ entriesOf elements = .ok []) ∧
    (let elements : List Element := [.item (holds (.asConst (.array [.item page] here) here))]
      ∃ items entries, (Expr.array elements here).evaluate = .ok (.array items) ∧
        (Literal.entries items).map (·.children.length) = [1] ∧
        entriesOf elements = .ok entries ∧ entries.map (·.children.length) = [0]) ∧
    (let elements : List Element := [.item (entry [.shorthand "table" here])]
      ∃ items entries, (Expr.array elements here).evaluate = .ok (.array items) ∧
        ¬ IsSound items ∧ entriesOf elements = .ok entries) := by
  intro here entry page holds
  refine ⟨⟨_, rfl, rfl, rfl⟩, ⟨_, _, rfl, rfl, rfl, rfl⟩, ⟨_, _, rfl, fun hsound => ?_, rfl⟩⟩
  obtain ⟨hfields, -⟩ := isSound_object.1 hsound
  exact (hfields _ List.mem_cons_self).1 ⟨⟨.table, rfl⟩, rfl⟩

end RoutePages
