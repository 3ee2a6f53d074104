import RoutePages.Proofs.Edit.Cuts
import RoutePages.Proofs.Edit.FixedPoint
import RoutePages.Proofs.Page.Agree
import RoutePages.Proofs.Page.Lineage

/-!
# What a layout does to its entries

The edits of a layout are those that a rewrite makes: for each entry that is read the ranges of its
directives are removed, and its component is replaced where a page is planned.
-/
namespace RoutePages

open Script

variable {source : Text} {names : PageNames}

/-! ## What nothing is done to -/

theorem Entry.nodes_eq (e : Entry) : e.nodes = e :: Entry.allNodes e.children := by
  cases e
  rfl

theorem Entry.allNodes_append (first more : List Entry) :
    Entry.allNodes (first ++ more) = Entry.allNodes first ++ Entry.allNodes more := by
  induction first with
  | nil => rfl
  | cons e first ih =>
    rw [List.cons_append, Entry.allNodes, Entry.allNodes, ih, List.append_assoc]

/-- The ranges that are removed from an entry, its directives taken in their order. -/
def Entry.removedRanges (source : Text) (e : Entry) : List Span :=
  (Removal.runs source (e.directives.map DirectiveSpan.span)).map (Removal.range source)

/-- The edits are what is done to entries: their directives are removed, and the pages that are
named are replaced. -/
structure Covers (source : Text) (names : PageNames) (nodes : List Entry) (edits : List Edit) :
    Prop where
  removed : ∀ node ∈ nodes, ∀ s ∈ node.removedRanges source, ⟨s, []⟩ ∈ edits
  replaced : ∀ node ∈ nodes, ∀ value span identifier, node.component = some (.path value span) →
    names span = some identifier → ⟨span, identifier⟩ ∈ edits
  origin : ∀ e ∈ edits, (e.replacement = [] ∧ ∃ node ∈ nodes, e.span ∈ node.removedRanges source) ∨
    names e.span = some e.replacement

theorem Covers.append {nodes more : List Entry} {edits later : List Edit}
    (h : Covers source names nodes edits) (h' : Covers source names more later) :
    Covers source names (nodes ++ more) (edits ++ later) where
  removed := List.forall_mem_append.2
    ⟨fun node hnode s hs => List.mem_append_left _ (h.removed node hnode s hs),
      fun node hnode s hs => List.mem_append_right _ (h'.removed node hnode s hs)⟩
  replaced := List.forall_mem_append.2
    ⟨fun node hnode value span identifier hc hn =>
        List.mem_append_left _ (h.replaced node hnode value span identifier hc hn),
      fun node hnode value span identifier hc hn =>
        List.mem_append_right _ (h'.replaced node hnode value span identifier hc hn)⟩
  origin := by
    refine List.forall_mem_append.2 ⟨fun e he => ?_, fun e he => ?_⟩
    · refine (h.origin e he).imp (fun ⟨hcut, node, hnode, hs⟩ => ?_) id
      exact ⟨hcut, node, List.mem_append_left _ hnode, hs⟩
    · refine (h'.origin e he).imp (fun ⟨hcut, node, hnode, hs⟩ => ?_) id
      exact ⟨hcut, node, List.mem_append_right _ hnode, hs⟩

/-- Nothing is done to entries that are settled. -/
theorem covers_of_settled {nodes : List Entry} (h : nodes.map (Entry.settle names) = nodes) :
    Covers source names nodes [] := by
  have hkept : ∀ node ∈ nodes, node.settle names = node :=
    List.map_inj_left.1 (h.trans (List.map_id nodes).symm)
  refine ⟨fun node hnode s hs => ?_, fun node hnode value span identifier hc hn => ?_, nofun⟩
  · have hdirectives : node.directives = [] := by
      rw [← hkept node hnode, Entry.settle_eq]
    rw [Entry.removedRanges, hdirectives] at hs
    cases hs
  · have hsettled := congrArg Entry.component (hkept node hnode)
    rw [Entry.settle_eq, hc] at hsettled
    simp only [Option.map_some, Component.settle, hn] at hsettled
    cases hsettled

theorem covers_element {element : Element} {entry : Option Entry}
    (h : entryOf? element = .ok entry) (hkept : element.settle names = element) :
    Covers source names (Entry.allNodes entry.toList) [] := by
  have hsettled := (entries_settle names).1 element entry h
  rw [hkept, h] at hsettled
  apply covers_of_settled
  rw [← Entry.allNodes_settle]
  cases entry with
  | none => rfl
  | some e =>
    have hsame : e = e.settle names := Option.some.inj (Except.ok.inj hsettled)
    exact congrArg (fun e => Entry.allNodes [e]) hsame.symm

theorem covers_elements {elements : List Element} {entries : List Entry}
    (h : entriesOf elements = .ok entries)
    (hkept : Element.settleAll names elements = elements) :
    Covers source names (Entry.allNodes entries) [] := by
  have hsettled := (entries_settle names).2.2 elements entries h
  rw [hkept, h] at hsettled
  apply covers_of_settled
  rw [← Entry.allNodes_settle]
  exact congrArg Entry.allNodes (Except.ok.inj hsettled).symm

/-! ## What is done to an entry that is being read -/

/-- Reading on from a draft adds entries below and cuts of its own, and the edits are those of the
cuts, of the component and of the entries below. -/
structure Draft.Adds (source : Text) (names : PageNames) (d : Draft) (below : List Entry)
    (cuts : List Span) (edits : List Edit) (d' : Draft) : Prop where
  children : d'.entry.children = d.entry.children ++ below
  component : d'.entry.component = d.entry.component ∨ ∀ value span identifier,
    d'.entry.component = some (.path value span) → names span = some identifier →
      ⟨span, identifier⟩ ∈ edits
  cut : ∀ s ∈ cuts, ⟨s, []⟩ ∈ edits
  removed : ∀ node ∈ Entry.allNodes below, ∀ s ∈ node.removedRanges source, ⟨s, []⟩ ∈ edits
  replaced : ∀ node ∈ Entry.allNodes below, ∀ value span identifier,
    node.component = some (.path value span) → names span = some identifier →
      ⟨span, identifier⟩ ∈ edits
  origin : ∀ e ∈ edits, (e.replacement = [] ∧ (e.span ∈ cuts ∨
    ∃ node ∈ Entry.allNodes below, e.span ∈ node.removedRanges source)) ∨
      names e.span = some e.replacement

namespace Draft

variable {d e d' : Draft} {below more : List Entry} {cuts later : List Span}
  {edits further : List Edit}

theorem Adds.trans (h : d.Adds source names below cuts edits e)
    (h' : e.Adds source names more later further d') :
    d.Adds source names (below ++ more) (cuts ++ later) (edits ++ further) d' where
  children := by rw [h'.children, h.children, List.append_assoc]
  component := by
    rcases h'.component with hsame | hnew
    · refine h.component.imp hsame.trans fun hpage value span identifier hc hn => ?_
      exact List.mem_append_left _ (hpage value span identifier (hsame ▸ hc) hn)
    · exact .inr fun value span identifier hc hn =>
        List.mem_append_right _ (hnew value span identifier hc hn)
  cut := List.forall_mem_append.2 ⟨fun s hs => List.mem_append_left _ (h.cut s hs),
    fun s hs => List.mem_append_right _ (h'.cut s hs)⟩
  removed := by
    rw [Entry.allNodes_append]
    exact List.forall_mem_append.2
      ⟨fun node hnode s hs => List.mem_append_left _ (h.removed node hnode s hs),
        fun node hnode s hs => List.mem_append_right _ (h'.removed node hnode s hs)⟩
  replaced := by
    rw [Entry.allNodes_append]
    exact List.forall_mem_append.2
      ⟨fun node hnode value span identifier hc hn =>
          List.mem_append_left _ (h.replaced node hnode value span identifier hc hn),
        fun node hnode value span identifier hc hn =>
          List.mem_append_right _ (h'.replaced node hnode value span identifier hc hn)⟩
  origin := by
    rw [Entry.allNodes_append]
    refine List.forall_mem_append.2 ⟨fun edit hedit => ?_, fun edit hedit => ?_⟩
    · refine (h.origin edit hedit).imp (fun ⟨hcut, hspan⟩ => ⟨hcut, ?_⟩) id
      refine hspan.imp (List.mem_append_left _) fun ⟨node, hnode, hs⟩ => ?_
      exact ⟨node, List.mem_append_left _ hnode, hs⟩
    · refine (h'.origin edit hedit).imp (fun ⟨hcut, hspan⟩ => ⟨hcut, ?_⟩) id
      refine hspan.imp (List.mem_append_right _) fun ⟨node, hnode, hs⟩ => ?_
      exact ⟨node, List.mem_append_right _ hnode, hs⟩

/-- Nothing is done where no entries are added and the component is none that is replaced. -/
theorem Adds.keep (hchildren : d'.entry.children = d.entry.children)
    (hcomponent : d'.entry.component = d.entry.component ∨ ∀ value span,
      d'.entry.component = some (.path value span) → names span = none) :
    d.Adds source names [] [] [] d' where
  children := by rw [hchildren, List.append_nil]
  component := hcomponent.imp id fun hnone value span identifier hc hn => by
    cases (hnone value span hc).symm.trans hn
  cut := nofun
  removed := nofun
  replaced := nofun
  origin := nofun

theorem Adds.refl : d.Adds source names [] [] [] d := .keep rfl (.inl rfl)

/-- The entries below are added with what is done to them. -/
theorem Adds.addChildren (h : Covers source names (Entry.allNodes below) edits) :
    d.Adds source names below [] edits (d.addChildren below) where
  children := rfl
  component := .inl rfl
  cut := nofun
  removed := h.removed
  replaced := h.replaced
  origin := fun edit hedit =>
    (h.origin edit hedit).imp (fun ⟨hcut, hspan⟩ => ⟨hcut, .inr hspan⟩) id

/-- A page that is named is replaced. -/
theorem Adds.setComponent {value : Text} {span : Span} {identifier : Text}
    (hname : names span = some identifier) :
    d.Adds source names [] [] [⟨span, identifier⟩] (d.setComponent (.path value span)) where
  children := (List.append_nil _).symm
  component := .inr fun page place name hc hn => by
    cases hc
    cases hname.symm.trans hn
    exact List.mem_singleton_self _
  cut := nofun
  removed := nofun
  replaced := nofun
  origin := List.forall_mem_singleton.2 (.inr hname)

/-- Directives change nothing but the marks of an entry. -/
theorem Adds.directives {span : Span} (hchildren : d'.entry.children = d.entry.children)
    (hcomponent : d'.entry.component = d.entry.component) :
    d.Adds source names [] [span] [⟨span, []⟩] d' where
  children := by rw [hchildren, List.append_nil]
  component := .inl hcomponent
  cut := List.forall_mem_singleton.2 (List.mem_singleton_self _)
  removed := nofun
  replaced := nofun
  origin := List.forall_mem_singleton.2 (.inl ⟨rfl, .inl (List.mem_singleton_self _)⟩)

/-- With the cuts of its own an entry is covered with those below it. -/
theorem Adds.covers {span : Span} {entry : Entry}
    (h : (Draft.empty span).Adds source names below cuts edits d) (hfinish : d.finish = .ok entry)
    (hcuts : entry.removedRanges source = cuts) : Covers source names entry.nodes edits := by
  obtain ⟨rfl, -⟩ := finish_eq_ok.1 hfinish
  have hchildren : d.entry.children = below := h.children
  rw [Entry.nodes_eq, hchildren]
  constructor
  · rw [← hcuts] at h
    exact List.forall_mem_cons.2 ⟨h.cut, h.removed⟩
  · refine List.forall_mem_cons.2 ⟨fun value place identifier hc hn => ?_, h.replaced⟩
    rcases h.component with hsame | hpage
    · cases hc.symm.trans hsame
    · exact hpage value place identifier hc hn
  · intro edit hedit
    refine (h.origin edit hedit).imp (fun ⟨hcut, hspan⟩ => ⟨hcut, ?_⟩) id
    rcases hspan with hs | ⟨node, hnode, hs⟩
    · exact ⟨d.entry, List.mem_cons_self, hcuts ▸ hs⟩
    · exact ⟨node, List.mem_cons_of_mem _ hnode, hs⟩

end Draft

/-! ## How the properties of a layout are read -/

section Read

variable {d d' : Draft} {p : Property} {key : Key} {name : Text} {value : Expr}

/-- The directives of an entry are those of its properties, in their order. -/
theorem directives_of_draftOf {props : List Property} (h : draftOf props d = .ok d') :
    d'.entry.directives = d.entry.directives ++ props.filterMap Property.directive? := by
  have hall : (∀ element entry, entryOf? element = .ok entry → True) ∧
      (∀ props d d', draftOf props d = .ok d' →
        d'.entry.directives = d.entry.directives ++ props.filterMap Property.directive?) ∧
      ∀ elements entries, entriesOf elements = .ok entries → True := by
    apply entries_induction
    · exact fun _ _ _ _ _ _ => trivial
    · exact fun _ _ => trivial
    · trivial
    · exact fun _ _ _ _ _ _ => trivial
    · exact fun d => (List.append_nil _).symm
    · intro key name elements span rest d d' entries hkey hname _ ih
      rw [List.filterMap_cons_none (Layout.directive?_children hkey hname _)]
      exact ih
    · intro key name value rest d e d' hkey hname hset ih
      have hplain : Directive.ofKey? name = none →
          e.entry.directives = d.entry.directives →
          d'.entry.directives =
            d.entry.directives ++ (.field key value :: rest).filterMap Property.directive? := by
        intro hnone hsame
        rw [List.filterMap_cons_none (Layout.directive?_of_key hkey hnone value), ih, hsame]
      cases Draft.set_eq_ok.1 hset with
      | name =>
        refine hplain (by decide) ?_
        unfold Draft.setName
        split <;> rfl
      | path =>
        refine hplain (by decide) ?_
        unfold Draft.setPath
        split <;> rfl
      | component => exact hplain (by decide) rfl
      | directive directive flag _ =>
        have hfound : (Property.field key value).directive? =
            some ⟨directive, ⟨key.span.start, value.stop⟩⟩ := by
          rw [Property.directive?, hkey, Option.bind_some, Directive.ofKey?_eq_some.2 rfl]
          rfl
        have hadded : (d.setDirective directive flag ⟨key.span.start, value.stop⟩).entry.directives =
            d.entry.directives ++ [⟨directive, ⟨key.span.start, value.stop⟩⟩] := by
          cases directive <;> rfl
        rw [List.filterMap_cons_some hfound, ih, hadded, List.append_assoc]
        rfl
      | other _ _ _ _ hnone => exact hplain hnone rfl
    · intro name span rest d d' ih
      rw [ih, List.filterMap_cons_none rfl]
      split <;> rfl
    · intro prop rest d d' hskipped ih
      have hnone : prop.directive? = none := by
        cases hskipped with
        | computed key value hkey =>
          rw [Property.directive?, hkey]
          rfl
        | noArray key name value hkey hname _ => exact Layout.directive?_children hkey hname value
        | spread value => rfl
        | default name value span => rfl
        | method parts span => rfl
      rw [List.filterMap_cons_none hnone, ih]
  exact hall.2.1 props d d' h

/-- Directives leave the component and the entries below as they are. -/
theorem draftOf_run {props : List Property} (hall : ∀ p ∈ props, p.directive?.isSome = true)
    (h : draftOf props d = .ok d') :
    d'.entry.children = d.entry.children ∧ d'.entry.component = d.entry.component := by
  induction props generalizing d with
  | nil =>
    cases h
    exact ⟨rfl, rfl⟩
  | cons p props ih =>
    obtain ⟨hp, hmore⟩ := List.forall_mem_cons.1 hall
    cases p with
    | field key value =>
      rw [Property.directive?, Option.isSome_map] at hp
      obtain ⟨directive, hdirective⟩ := Option.isSome_iff_exists.1 hp
      obtain ⟨name, hkey, hname⟩ := Option.bind_eq_some_iff.1 hdirective
      cases Directive.ofKey?_eq_some.1 hname
      rw [draftOf_field hkey (by cases directive <;> decide), Draft.set_directive] at h
      obtain ⟨e, he, h⟩ := bind_eq_ok.1 h
      obtain ⟨flag, -, he⟩ := bind_eq_ok.1 he
      cases he
      obtain ⟨hchildren, hcomponent⟩ := ih hmore h
      rw [hchildren, hcomponent]
      cases directive <;> exact ⟨rfl, rfl⟩
    | shorthand name span => cases hp
    | spread value => cases hp
    | default name value span => cases hp
    | method parts span => cases hp

/-- Nothing is done for a property that is kept. -/
theorem draftOf_kept (hkept : Property.settleAll names [p] = [p]) (h : draftOf [p] d = .ok d') :
    ∃ below, d.Adds source names below [] [] d' := by
  have hskipped : p.IsSkipped → ∃ below, d.Adds source names below [] [] d' := by
    intro hskipped
    rw [draftOf_skipped hskipped] at h
    cases h
    exact ⟨[], .refl⟩
  cases p with
  | shorthand name span =>
    have hd' : d' = if name == "component" then d.setComponent (.bound name span) else d :=
      (Except.ok.inj h).symm
    rw [hd']
    split
    · exact ⟨[], .keep rfl (.inr nofun)⟩
    · exact ⟨[], .refl⟩
  | spread value => exact hskipped (.spread value)
  | default name value span => exact hskipped (.default name value span)
  | method parts span => exact hskipped (.method parts span)
  | field key value =>
    cases hkey : key.text? with
    | none => exact hskipped (.computed key value hkey)
    | some name =>
      cases hname : holdsChildren name with
      | true =>
        obtain ⟨elements, span, rfl⟩ | harray := exists_array value
        · rw [draftOf_children hkey hname] at h
          obtain ⟨below, hbelow, h⟩ := bind_eq_ok.1 h
          cases h
          rw [Layout.settleAll_children names hkey hname] at hkept
          injection hkept with hfield _
          injection hfield with _ hvalue
          injection hvalue with hsame _
          exact ⟨below, .addChildren (covers_elements hbelow hsame)⟩
        · exact hskipped (.noArray key name value hkey hname harray)
      | false =>
        rw [draftOf_field hkey hname] at h
        obtain ⟨e, hset, h⟩ := bind_eq_ok.1 h
        cases h
        refine ⟨[], ?_⟩
        cases Draft.set_eq_ok.1 hset with
        | name =>
          unfold Draft.setName
          split <;> exact .keep rfl (.inl rfl)
        | path =>
          unfold Draft.setPath
          split <;> exact .keep rfl (.inl rfl)
        | component =>
          rw [settleAll_field value [] hkey hname, Property.settleField, if_neg (by decide),
            if_pos (by decide)] at hkept
          injection hkept with hfield _
          injection hfield with _ hvalue
          refine .keep rfl (.inr fun page span hpath => ?_)
          have hsettled := @ofExpr_settle names value
          rw [hvalue, Option.some.inj hpath] at hsettled
          cases hn : names span with
          | none => rfl
          | some identifier =>
            simp only [Component.settle, hn] at hsettled
            cases hsettled
        | directive directive flag _ =>
          rw [settleAll_field value [] hkey hname, Property.settleField, if_pos (by
            rw [Directive.ofKey?_eq_some.2 rfl]; rfl)] at hkept
          cases hkept
        | other => exact .refl

end Read

/-! ## What a layout does -/

namespace Layout

theorem brackets_text {opening closing : Char} {α : Type} {pieces : List (Piece α)}
    {before more after : Text}
    (h : source = before ++ (Piece.bracketed opening closing pieces ++ more ++ after)) :
    source = before ++ [opening] ++ (Piece.allText pieces ++ closing :: (more ++ after)) := by
  rw [h, Piece.bracketed]
  simp only [List.append_assoc, List.cons_append, List.nil_append]

mutual

/-- The edits of a layout are what is done to the entries that are read. -/
theorem Entries.covers : (entries : Entries) → (before after : Text) → (read : List Entry) →
    source = before ++ (Piece.allText entries.pieces ++ after) → entries.isApart = true →
    entries.AreExtents before after → entries.Settles names (Text.size before) →
    entriesOf (Piece.values (Text.size before) entries.pieces) = .ok read →
    Covers source names (Entry.allNodes read) (entries.edits (Text.size before))
  | .done, _, _, _, _, _, _, _, hread => by
    cases hread
    exact covers_of_settled rfl
  | .space text rest, before, after, read, hsource, happart, hextents, h, hread => by
    have hrest := Entries.covers rest (before ++ text) after read (behind_text hsource) happart
      hextents
    rw [Text.size_append] at hrest
    exact hrest h hread
  | .comma rest, before, after, read, hsource, happart, hextents, h, hread => by
    have hrest := Entries.covers rest (before ++ ",") after read (behind_text hsource) happart
      hextents
    rw [Text.size_append] at hrest
    exact hrest h hread
  | .entry fields rest, before, after, read, hsource, happart, hextents, h, hread => by
    obtain ⟨hfields, hlater⟩ := Bool.and_eq_true_iff.1 happart
    obtain ⟨first, hfirst, hread⟩ := bind_eq_ok.1 hread
    obtain ⟨more, hmore, hread⟩ := bind_eq_ok.1 hread
    cases hread
    obtain ⟨d, hd, hfirst⟩ := bind_eq_ok.1 hfirst
    obtain ⟨e, hfinish, hfirst⟩ := bind_eq_ok.1 hfirst
    cases hfirst
    have hsize : Text.size (before ++ ['\x7b']) = Text.size before + 1 := Text.size_append _ _
    have hinside := brackets_text hsource
    rw [← hsize] at hd
    obtain ⟨hown, hbehind⟩ := h
    rw [← hsize] at hown
    obtain ⟨below, hadds⟩ := Fields.adds fields (before ++ ['\x7b']) _ none _ d hinside hfields
      hextents.1 hown hd
    have hcuts : e.removedRanges source =
        (fields.cuts (Text.size (before ++ ['\x7b']))).map Prod.snd := by
      rw [← Fields.ranges_eq hinside hfields hextents.1 hown, Entry.removedRanges,
        (Draft.finish_eq_ok.1 hfinish).1, directives_of_draftOf hd]
      rfl
    have hrest := Entries.covers rest _ after more (behind_text hsource) hlater hextents.2
    rw [Text.size_append] at hrest
    rw [Entries.edits, ← hsize]
    exact (hadds.covers hfinish hcuts).append (hrest hbehind hmore)
  | .other text read rest, before, after, found, hsource, happart, hextents, h, hread => by
    obtain ⟨first, hfirst, hread⟩ := bind_eq_ok.1 hread
    obtain ⟨more, hmore, hread⟩ := bind_eq_ok.1 hread
    cases hread
    have hrest := Entries.covers rest (before ++ text) after more (behind_text hsource) happart
      hextents
    rw [Text.size_append] at hrest
    rw [Entry.allNodes_append]
    exact (covers_element hfirst h.1).append (hrest h.2.2 hmore)

/-- The edits of the properties of an entry are those of its cuts, of its component and of the
entries below. -/
theorem Fields.adds : (fields : Fields) → (before after : Text) → (since : Option Text) →
    (d d' : Draft) → source = before ++ (Piece.allText fields.pieces ++ after) →
    fields.isApart since = true → fields.AreExtents before after →
    fields.Settles names (Text.size before) →
    draftOf (Piece.values (Text.size before) fields.pieces) d = .ok d' →
    ∃ below, d.Adds source names below ((fields.cuts (Text.size before)).map Prod.snd)
      (fields.edits (Text.size before)) d'
  | .done, _, _, _, _, _, _, _, _, _, hread => by
    cases hread
    exact ⟨[], .refl⟩
  | .space text rest, before, after, since, d, d', hsource, happart, hextents, h, hread => by
    have hrest := Fields.adds rest (before ++ text) after _ d d' (behind_text hsource) happart
      hextents
    rw [Text.size_append] at hrest
    exact hrest h hread
  | .comma rest, before, after, since, d, d', hsource, happart, hextents, h, hread => by
    have hrest := Fields.adds rest (before ++ ",") after _ d d' (behind_text hsource) happart
      hextents
    rw [Text.size_append] at hrest
    exact hrest h hread
  | .cut left run right rest, before, after, since, d, d', hsource, happart, hextents, h,
      hread => by
    obtain ⟨hcut, h⟩ := h
    rw [Fields.pieces, Piece.values_append, draftOf_append, hcut.values] at hread
    obtain ⟨e, hrun, hread⟩ := bind_eq_ok.1 hread
    obtain ⟨hchildren, hcomponent⟩ := draftOf_run (hcut.run.values _) hrun
    rw [Fields.pieces, Piece.allText_append] at hsource
    have hrest := Fields.adds rest _ after _ e d' (behind_text hsource)
      (Bool.and_eq_true_iff.1 happart).2 hextents.2
    rw [Text.size_append] at hrest
    obtain ⟨below, hadds⟩ := hrest h hread
    exact ⟨below, (Draft.Adds.directives hchildren hcomponent).trans hadds⟩
  | .page head key text read identifier rest, before, after, since, d, d', hsource, happart,
      hextents, h, hread => by
    obtain ⟨hkey, -, ⟨value, hvalue⟩, hname, h⟩ := h
    rw [Fields.pieces, Piece.values, behind, draftOf_field hkey (by decide)] at hread
    obtain ⟨e, hset, hread⟩ := bind_eq_ok.1 hread
    have hrest := Fields.adds rest (before ++ (head ++ text)) after _ e d' (behind_text hsource)
      happart hextents
    rw [Text.size_append] at hrest
    obtain ⟨below, hadds⟩ := hrest h hread
    have hset : d.setComponent (.ofExpr (read (Text.size before + Text.size head))) = e :=
      Except.ok.inj hset
    rw [hvalue] at hset
    subst hset
    exact ⟨below, (Draft.Adds.setComponent hname).trans hadds⟩
  | .children head key entries rest, before, after, since, d, d', hsource, happart, hextents, h,
      hread => by
    obtain ⟨hentries, hlater⟩ := Bool.and_eq_true_iff.1 happart
    obtain ⟨⟨name, hkey, hname⟩, -, hown, h⟩ := h
    rw [Fields.pieces, Piece.values, behind, Piece.array, draftOf_children hkey hname] at hread
    obtain ⟨found, hfound, hread⟩ := bind_eq_ok.1 hread
    have hsize : Text.size (before ++ (head ++ ['['])) = Text.size before + Text.size head + 1 := by
      have hbracket : Text.size ['['] = 1 := by decide
      rw [Text.size_append, Text.size_append, hbracket, Nat.add_assoc]
    have hinside : source = before ++ (head ++ ['[']) ++ (Piece.allText entries.pieces ++
        ']' :: (Piece.allText rest.pieces ++ after)) := by
      have htext : source = before ++ head ++
          (Piece.bracketed '[' ']' entries.pieces ++ Piece.allText rest.pieces ++ after) := by
        rw [hsource, Fields.pieces, Piece.allText_cons, Piece.text]
        simp only [List.append_assoc]
      rw [← List.append_assoc before]
      exact brackets_text htext
    rw [← hsize] at hfound hown
    have hbelow := Entries.covers entries _ _ found hinside hentries hextents.1 hown hfound
    have hrest := Fields.adds rest _ after _ (d.addChildren found) d' (behind_text hsource) hlater
      hextents.2
    rw [Text.size_append] at hrest
    obtain ⟨below, hadds⟩ := hrest h hread
    rw [Fields.edits, ← hsize]
    exact ⟨found ++ below, (Draft.Adds.addChildren hbelow).trans hadds⟩
  | .other text read rest, before, after, since, d, d', hsource, happart, hextents, h, hread => by
    obtain ⟨hkept, -, h⟩ := h
    rw [Fields.pieces, Piece.values, ← List.singleton_append, draftOf_append] at hread
    obtain ⟨e, hfirst, hread⟩ := bind_eq_ok.1 hread
    obtain ⟨own, hown⟩ : ∃ below, d.Adds source names below [] [] e := draftOf_kept hkept hfirst
    have hrest := Fields.adds rest (before ++ text) after _ e d' (behind_text hsource) happart
      hextents
    rw [Text.size_append] at hrest
    obtain ⟨below, hadds⟩ := hrest h hread
    exact ⟨own ++ below, hown.trans hadds⟩

end

end Layout

/-! ## The edits of a rewrite -/

theorem Entry.allNodes_eq (entries : List Entry) :
    Entry.allNodes entries = entries.flatMap Entry.nodes := by
  induction entries with
  | nil => rfl
  | cons e rest ih => rw [Entry.allNodes, ih, List.flatMap_cons]

theorem Entry.IsWellNested.nodes {e : Entry} (h : e.IsWellNested) :
    ∀ node ∈ e.nodes, node.IsWellNested := by
  induction h with
  | @intro e hspan hlaid hbelow ih =>
    rw [Entry.nodes_eq, Entry.allNodes_eq]
    refine List.forall_mem_cons.2 ⟨.intro hspan hlaid hbelow, fun node hnode => ?_⟩
    obtain ⟨c, hc, hnode⟩ := List.mem_flatMap.1 hnode
    exact ih c hc node hnode

/-- Directives that were read one after the other are in their order. -/
theorem Entry.IsWellNested.ranges_eq {e : Entry} (h : e.IsWellNested) (source : Text) :
    Removal.ranges source e.directives = e.removedRanges source := by
  cases h with
  | intro _ hlaid _ =>
    have hrow := hlaid.directives
    have horder : (e.directives.map DirectiveSpan.span).Pairwise
        (fun a b => decide (b.start < a.start) = false) := by
      refine hrow.increasing.imp_of_mem fun {a b} ha _ hab => decide_eq_false ?_
      have hle := (hrow.between a ha).ordered
      omega
    rw [Removal.ranges, Removal.inOrder, sortBy_of_pairwise _ horder]
    rfl

mutual

/-- The entries that are placed are all entries of a tree. -/
theorem Entry.placed_nodes : (e : Entry) → (above : List Entry) →
    (e.placed above).map Placed.entry = e.nodes
  | .mk name path component table service cover children span directives, above => by
    rw [Entry.placed, List.map_cons, Entry.allPlaced_nodes children, Entry.nodes]

theorem Entry.allPlaced_nodes : (entries : List Entry) → (above : List Entry) →
    (Entry.allPlaced above entries).map Placed.entry = Entry.allNodes entries
  | [], _ => rfl
  | e :: rest, above => by
    rw [Entry.allPlaced, List.map_append, Entry.placed_nodes e, Entry.allPlaced_nodes rest,
      Entry.allNodes]

end

/-- A page is planned where an entry names it. -/
theorem exists_node_of_plan {t : RouteTable} {b : Bindings} {pagesAlias : Text}
    {plans : List PagePlan} (h : planPages t b pagesAlias = .ok plans) {plan : PagePlan}
    (hplan : plan ∈ plans) : ∃ node ∈ Entry.allNodes t.entries, ∃ value,
      node.component = some (.path value plan.componentSpan) := by
  have hplans := (allPlans_iff_isPlanOf t b plans).1.1 (planPages_eq_ok.1 h).1
  obtain ⟨p, hp, hof⟩ := forall₂_exists_left hplans hplan
  obtain ⟨value, _, _, hcomponent, -⟩ := hof.page
  refine ⟨p.entry, ?_, value, hcomponent⟩
  rw [← Entry.allPlaced_nodes t.entries []]
  exact List.mem_map_of_mem (List.mem_filter.1 hp).1

/-- Edits that lie apart and cut something are all different. -/
theorem Edit.nodup_of_apart {edits : List Edit} (hcut : ∀ e ∈ edits, e.span.start < e.span.stop)
    (h : edits.Pairwise (fun a b => a.span.Apart b.span)) : edits.Nodup := by
  refine h.imp_of_mem fun {a b} ha _ hab heq => ?_
  subst heq
  have hlt := hcut a ha
  rcases hab with hle | hle <;> omega

/-- The edits of a rewrite without its insertion: identifiers for pages, and nothing for the ranges
of directives. -/
def Rewrite.arrayEdits (source : Text) (t : RouteTable) (plans : List PagePlan) : List Edit :=
  plans.map (fun plan => ⟨plan.componentSpan, plan.identifier⟩) ++
    (removals source t).map (fun s => ⟨s, []⟩)

section Edits

variable {dialect : Dialect} {pagesAlias : Text} {t : RouteTable} {plans : List PagePlan}
  {r : Rewrite} {edits : List Edit}

/-- The edits of a rewrite are those that cover the entries that were read. -/
theorem Rewrite.arrayEdits_perm (h : IsPlanned dialect source pagesAlias t plans)
    (hr : rewrite source t plans pagesAlias = .ok r)
    (hcovers : Covers source (.ofPlans plans) (Entry.allNodes t.entries) edits)
    (hcut : ∀ e ∈ edits, e.span.start < e.span.stop) (hnodup : edits.Nodup) :
    (arrayEdits source t plans).Perm edits := by
  have hnested : ∀ node ∈ Entry.allNodes t.entries,
      Removal.ranges source node.directives = node.removedRanges source := by
    intro node hnode
    rw [Entry.allNodes_eq] at hnode
    obtain ⟨e, he, hnode⟩ := List.mem_flatMap.1 hnode
    exact (((parseTable_nested h.read).below e he).nodes node hnode).ranges_eq source
  obtain ⟨-, -, happly⟩ := rewrite_edits (directives_apart h.read h.plan) hr
  have hpairs := (Edit.applyAll_isOk_iff.1 ⟨_, happly⟩).2
  have hapart : (arrayEdits source t plans).Pairwise (fun a b => a.span.Apart b.span) :=
    (List.pairwise_append.1 hpairs).1
  have hplans := (List.pairwise_append.1 (planPages_apart h.read h.plan)).1
  have hmem : ∀ e ∈ arrayEdits source t plans, e ∈ edits := by
    refine List.forall_mem_append.2 ⟨fun e he => ?_, fun e he => ?_⟩
    · obtain ⟨plan, hplan, rfl⟩ := List.mem_map.1 he
      obtain ⟨node, hnode, value, hcomponent⟩ := exists_node_of_plan h.plan hplan
      obtain ⟨found, hfound, hspan, hname⟩ := exists_ofPlans hplan
      have hedit := hcovers.replaced node hnode value _ _ hcomponent hname
      -- no other plan can be for the same range, since the ranges of plans lie apart
      have hsymm : Std.Symm fun a b : PagePlan => a.componentSpan.Apart b.componentSpan :=
        ⟨fun _ _ hpair => hpair.symm⟩
      have hsame : found = plan := by
        by_contra hne
        have hpair := (List.pairwise_map.1 hplans).forall hfound hplan hne
        have hlt : plan.componentSpan.start < plan.componentSpan.stop := hcut _ hedit
        rw [hspan] at hpair
        rcases hpair with hle | hle <;> omega
      exact hsame ▸ hedit
    · obtain ⟨s, hs, rfl⟩ := List.mem_map.1 he
      obtain ⟨node, hnode, hs⟩ := List.mem_flatMap.1 hs
      exact hcovers.removed node hnode s (hnested node hnode ▸ hs)
  refine (List.perm_ext_iff_of_nodup (Edit.nodup_of_apart (fun e he => hcut e (hmem e he)) hapart)
    hnodup).2 fun e => ⟨hmem e, fun he => ?_⟩
  rcases hcovers.origin e he with ⟨hnothing, node, hnode, hs⟩ | hpage
  · refine List.mem_append_right _ (List.mem_map.2 ⟨e.span, ?_, ?_⟩)
    · exact List.mem_flatMap.2 ⟨node, hnode, (hnested node hnode).symm ▸ hs⟩
    · rw [← hnothing]
  · obtain ⟨plan, hfound, hidentifier⟩ := Option.map_eq_some_iff.1 hpage
    refine List.mem_append_left _ (List.mem_map.2 ⟨plan, List.mem_of_find?_eq_some hfound, ?_⟩)
    have hspan : plan.componentSpan = e.span := by simpa using List.find?_some hfound
    rw [hspan, hidentifier]

end Edits

end RoutePages
