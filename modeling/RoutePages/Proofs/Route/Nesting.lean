import RoutePages.Proofs.Edit.Replace
import RoutePages.Proofs.Route.Read
import RoutePages.Proofs.Script.Statements
import RoutePages.Route.Parse

/-!
# How the recorded spans are nested

An entry is recorded with its own span, with the spans of its component and its directives, and
with the entries below it. Each property that is read adds spans behind those of the properties
before it, so at every level the spans stand apart from each other and inside the entry.
-/
namespace RoutePages

open Script

/-! ## Spans that stand apart -/

theorem Span.Between.apart {lo mid hi : Nat} {a b : Span} (ha : a.Between lo mid)
    (hb : b.Between mid hi) : a.Apart b := .inl (Nat.le_trans ha.stop hb.start)

/-- What stands apart from a span stands apart from all that lies in it. -/
theorem Span.Apart.inside {a s inner : Span} (h : a.Apart s)
    (hinner : inner.Between s.start s.stop) : a.Apart inner := by
  rcases h with h | h
  · exact .inl (Nat.le_trans h hinner.start)
  · exact .inr (Nat.le_trans hinner.stop h)

/-- Spans that stand one behind the other between two positions. -/
structure Span.Row (lo hi : Nat) (spans : List Span) : Prop where
  between : ∀ s ∈ spans, s.Between lo hi
  increasing : spans.Pairwise fun a b => a.stop ≤ b.start

namespace Span.Row

variable {lo mid hi : Nat} {spans more : List Span}

theorem nil (lo hi : Nat) : Row lo hi [] := ⟨nofun, .nil⟩

theorem single {s : Span} (h : s.Between lo hi) : Row lo hi [s] :=
  ⟨by simpa using h, List.pairwise_singleton _ _⟩

theorem mono {lo' hi' : Nat} (h : Row lo hi spans) (hlo : lo' ≤ lo) (hhi : hi ≤ hi') :
    Row lo' hi' spans := ⟨fun s hs => (h.between s hs).mono hlo hhi, h.increasing⟩

theorem append (h : Row lo mid spans) (h' : Row mid hi more) (hlo : lo ≤ mid) (hhi : mid ≤ hi) :
    Row lo hi (spans ++ more) := by
  refine ⟨fun s hs => ?_, List.pairwise_append.2 ⟨h.increasing, h'.increasing, ?_⟩⟩
  · rcases List.mem_append.1 hs with hs | hs
    · exact (h.between s hs).mono (Nat.le_refl _) hhi
    · exact (h'.between s hs).mono hlo (Nat.le_refl _)
  · intro a ha b hb
    exact Nat.le_trans (h.between a ha).stop (h'.between b hb).start

theorem apart (h : Row lo hi spans) : spans.Pairwise Span.Apart := h.increasing.imp .inl

end Span.Row

/-! ## Entries whose spans are nested -/

/-- The span of a component that is a path or an identifier. -/
def Component.marks : Option Component → List Span
  | some (.path _ span) => [span]
  | some (.bound _ span) => [span]
  | _ => []

/-- The spans of the component and the directives of an entry. -/
def Entry.ownMarks (e : Entry) : List Span :=
  Component.marks e.component ++ e.directives.map DirectiveSpan.span

mutual

/-- The spans of the components and directives of an entry and of those below it. -/
def Entry.marks : Entry → List Span
  | .mk _ _ component _ _ _ children _ directives =>
    Component.marks component ++ directives.map DirectiveSpan.span ++ Entry.allMarks children

def Entry.allMarks : List Entry → List Span
  | [] => []
  | e :: rest => e.marks ++ Entry.allMarks rest

end

theorem Entry.marks_eq (e : Entry) : e.marks = e.ownMarks ++ Entry.allMarks e.children := by
  cases e
  rw [marks]
  rfl

theorem Entry.allMarks_eq (entries : List Entry) :
    Entry.allMarks entries = entries.flatMap Entry.marks := by
  induction entries with
  | nil => rfl
  | cons e rest ih => rw [allMarks, ih, List.flatMap_cons]

/-- What an entry records stands between two positions: its directives in a row, the entries below
it in a row, and its component, apart from each other. -/
structure Entry.IsLaidOut (lo hi : Nat) (e : Entry) : Prop where
  directives : Span.Row lo hi (e.directives.map DirectiveSpan.span)
  children : Span.Row lo hi (e.children.map Entry.span)
  component : ∀ s ∈ Component.marks e.component, s.Between lo hi
  /-- the component stands in none of the directives, and none of them in it -/
  apart : ∀ s ∈ Component.marks e.component, ∀ d ∈ e.directives, s.Apart d.span
  /-- component and directives stand outside the entries below -/
  outside : ∀ s ∈ e.ownMarks, ∀ c ∈ e.children, s.Apart c.span

/-- What an entry and all those below it record stands inside their spans. -/
inductive Entry.IsWellNested : Entry → Prop
  | intro {e : Entry} (hspan : e.span.start ≤ e.span.stop)
    (hlaid : e.IsLaidOut e.span.start e.span.stop) (hbelow : ∀ c ∈ e.children, c.IsWellNested) :
    e.IsWellNested

/-- The spans of the entries stand in a row inside that of the array. -/
structure RouteTable.IsWellNested (t : RouteTable) : Prop where
  ordered : t.arraySpan.start ≤ t.arraySpan.stop
  entries : Span.Row t.arraySpan.start t.arraySpan.stop (t.entries.map Entry.span)
  below : ∀ e ∈ t.entries, e.IsWellNested

theorem Entry.IsLaidOut.ownMarks_between {lo hi : Nat} {e : Entry} (h : e.IsLaidOut lo hi) :
    ∀ s ∈ e.ownMarks, s.Between lo hi := by
  intro s hs
  rcases List.mem_append.1 hs with hs | hs
  · exact h.component s hs
  · exact h.directives.between s hs

theorem Component.marks_pairwise (component : Option Component) :
    (Component.marks component).Pairwise Span.Apart := by
  rcases component with _ | _ | _ | _
  · exact .nil
  · exact List.pairwise_singleton _ _
  · exact List.pairwise_singleton _ _
  · exact .nil

theorem Entry.IsLaidOut.ownMarks_pairwise {lo hi : Nat} {e : Entry} (h : e.IsLaidOut lo hi) :
    e.ownMarks.Pairwise Span.Apart := by
  refine List.pairwise_append.2 ⟨Component.marks_pairwise _, h.directives.apart, ?_⟩
  intro s hs span hspan
  obtain ⟨d, hd, rfl⟩ := List.mem_map.1 hspan
  exact h.apart s hs d hd

/-- In a row of entries all spans stand apart if they do so in each entry and lie inside it. -/
theorem Entry.allMarks_pairwise {lo hi : Nat} {entries : List Entry}
    (hrow : Span.Row lo hi (entries.map Entry.span))
    (hinside : ∀ e ∈ entries, ∀ s ∈ e.marks, s.Between e.span.start e.span.stop)
    (hapart : ∀ e ∈ entries, e.marks.Pairwise Span.Apart) :
    (Entry.allMarks entries).Pairwise Span.Apart := by
  have horder := List.pairwise_map.1 hrow.apart
  rw [Entry.allMarks_eq, List.pairwise_flatMap]
  refine ⟨hapart, horder.imp_of_mem fun {a b} ha hb hab x hx y hy => ?_⟩
  have hleft : y.Apart a.span := (hab.inside (hinside b hb y hy)).symm
  exact (hleft.inside (hinside a ha x hx)).symm

/-- All spans below a well nested entry lie inside it, apart from each other. -/
theorem Entry.IsWellNested.marks {e : Entry} (h : e.IsWellNested) :
    (∀ s ∈ e.marks, s.Between e.span.start e.span.stop) ∧ e.marks.Pairwise Span.Apart := by
  induction h with
  | @intro e hspan hlaid hbelow ih =>
    have hinside : ∀ s ∈ Entry.allMarks e.children, ∃ c ∈ e.children,
        s.Between c.span.start c.span.stop := by
      intro s hs
      rw [Entry.allMarks_eq] at hs
      obtain ⟨c, hc, hs⟩ := List.mem_flatMap.1 hs
      exact ⟨c, hc, (ih c hc).1 s hs⟩
    rw [Entry.marks_eq]
    constructor
    · intro s hs
      rcases List.mem_append.1 hs with hs | hs
      · exact hlaid.ownMarks_between s hs
      · obtain ⟨c, hc, hs⟩ := hinside s hs
        have hchild := hlaid.children.between c.span (List.mem_map_of_mem hc)
        exact hs.mono hchild.start hchild.stop
    · have hchildren := Entry.allMarks_pairwise hlaid.children (fun c hc => (ih c hc).1)
        fun c hc => (ih c hc).2
      refine List.pairwise_append.2 ⟨hlaid.ownMarks_pairwise, hchildren, fun s hs x hx => ?_⟩
      obtain ⟨c, hc, hx⟩ := hinside x hx
      exact (hlaid.outside s hs c hc).inside hx

theorem RouteTable.IsWellNested.marks_pairwise {t : RouteTable} (h : t.IsWellNested) :
    (Entry.allMarks t.entries).Pairwise Span.Apart :=
  Entry.allMarks_pairwise h.entries (fun e he => (h.below e he).marks.1)
    fun e he => (h.below e he).marks.2

/-! ## Entries while they are read -/

/-- An expression that is data has the span it was read at. -/
theorem Script.Expr.isBounded_of_evaluate {l : Literal} :
    (e : Expr) → e.evaluate = .ok l → e.isBounded = true
  | .asType inner _, h => isBounded_of_evaluate inner h
  | .asConst inner _, h => isBounded_of_evaluate inner h
  | .minus operand _, h => by
    cases operand <;> cases h
    rfl
  | .compound _ _ _, h => nomatch h
  | .null _, _ | .bool _ _, _ | .number _ _, _ | .bigint _, _ | .string _ _, _ | .regex _, _
  | .ident _ _, _ | .template _ _ _, _ | .paren _ _, _ | .array _ _, _ | .object _ _, _ => rfl

theorem Script.Expr.form?_of_evaluate {l : Literal} {e : Expr} (h : e.evaluate = .ok l) :
    e.form? = none := by
  cases e with
  | compound form parts s => cases h
  | _ => rfl

/-- The entry that is read has the given span, and what it records so far stands between two
positions. -/
structure Draft.IsLaidOut (span : Span) (lo hi : Nat) (d : Draft) : Prop where
  span_eq : d.entry.span = span
  laid : d.entry.IsLaidOut lo hi
  below : ∀ c ∈ d.entry.children, c.IsWellNested

namespace Draft.IsLaidOut

variable {span : Span} {lo cur hi : Nat} {d : Draft}

theorem empty (span : Span) (lo : Nat) : (Draft.empty span).IsLaidOut span lo lo :=
  ⟨rfl, ⟨.nil _ _, .nil _ _, nofun, nofun, nofun⟩, nofun⟩

theorem mono (h : d.IsLaidOut span lo cur) (hhi : cur ≤ hi) : d.IsLaidOut span lo hi where
  span_eq := h.span_eq
  below := h.below
  laid :=
    { h.laid with
      directives := h.laid.directives.mono (Nat.le_refl _) hhi
      children := h.laid.children.mono (Nat.le_refl _) hhi
      component := fun s hs => (h.laid.component s hs).mono (Nat.le_refl _) hhi }

theorem setName (h : d.IsLaidOut span lo hi) (value : Expr) :
    (d.setName value).IsLaidOut span lo hi := by
  unfold Draft.setName
  split
  · exact ⟨h.span_eq, { h.laid with }, h.below⟩
  · exact ⟨h.span_eq, h.laid, h.below⟩

theorem setPath (h : d.IsLaidOut span lo hi) (value : Expr) :
    (d.setPath value).IsLaidOut span lo hi := by
  unfold Draft.setPath
  split
  · exact ⟨h.span_eq, { h.laid with }, h.below⟩
  · exact h

variable (h : d.IsLaidOut span lo cur) (hlo : lo ≤ cur) (hhi : cur ≤ hi)
include h hlo hhi

/-- A component takes the place of the one before it and stands behind all directives and
children. -/
theorem setComponent {component : Component}
    (hcomponent : ∀ s ∈ Component.marks (some component), s.Between cur hi) :
    (d.setComponent component).IsLaidOut span lo hi where
  span_eq := h.span_eq
  below := h.below
  laid :=
    { directives := h.laid.directives.mono (Nat.le_refl _) hhi
      children := h.laid.children.mono (Nat.le_refl _) hhi
      component := fun s hs => (hcomponent s hs).mono hlo (Nat.le_refl _)
      apart := fun s hs x hx =>
        ((h.laid.directives.between x.span (List.mem_map_of_mem hx)).apart (hcomponent s hs)).symm
      outside := fun s hs c hc => by
        rcases List.mem_append.1 hs with hs | hs
        · have hchild := h.laid.children.between c.span (List.mem_map_of_mem hc)
          exact (hchild.apart (hcomponent s hs)).symm
        · exact h.laid.outside s (List.mem_append_right _ hs) c hc }

theorem setDirective (directive : Directive) (flag : Bool) {s : Span} (hs : s.Between cur hi) :
    (d.setDirective directive flag s).IsLaidOut span lo hi := by
  have hrow : Span.Row lo hi
      ((d.entry.directives ++ [DirectiveSpan.mk directive s]).map DirectiveSpan.span) := by
    rw [List.map_append]
    exact h.laid.directives.append (.single hs) hlo hhi
  have hchildren := h.laid.children.mono (Nat.le_refl _) hhi
  have hcomponent : ∀ x ∈ Component.marks d.entry.component, x.Between lo hi :=
    fun x hx => (h.laid.component x hx).mono (Nat.le_refl _) hhi
  have hapart : ∀ x ∈ Component.marks d.entry.component,
      ∀ y ∈ d.entry.directives ++ [DirectiveSpan.mk directive s], x.Apart y.span := by
    intro x hx y hy
    rcases List.mem_append.1 hy with hy | hy
    · exact h.laid.apart x hx y hy
    · cases List.mem_singleton.1 hy
      exact (h.laid.component x hx).apart hs
  have houtside : ∀ x ∈ Component.marks d.entry.component ++
      (d.entry.directives ++ [DirectiveSpan.mk directive s]).map DirectiveSpan.span,
      ∀ c ∈ d.entry.children, x.Apart c.span := by
    intro x hx c hc
    rw [List.map_append, ← List.append_assoc] at hx
    rcases List.mem_append.1 hx with hx | hx
    · exact h.laid.outside x hx c hc
    · cases List.mem_singleton.1 hx
      exact ((h.laid.children.between c.span (List.mem_map_of_mem hc)).apart hs).symm
  have hlaid : (d.setDirective directive flag s).entry.IsLaidOut lo hi := by
    cases directive <;> exact ⟨hrow, hchildren, hcomponent, hapart, houtside⟩
  cases directive <;> exact ⟨h.span_eq, hlaid, h.below⟩

theorem addChildren {children : List Entry} (hrow : Span.Row cur hi (children.map Entry.span))
    (hbelow : ∀ c ∈ children, c.IsWellNested) :
    (d.addChildren children).IsLaidOut span lo hi where
  span_eq := h.span_eq
  below := List.forall_mem_append.2 ⟨h.below, hbelow⟩
  laid :=
    { directives := h.laid.directives.mono (Nat.le_refl _) hhi
      children := by
        rw [Draft.addChildren, List.map_append]
        exact h.laid.children.append hrow hlo hhi
      component := fun s hs => (h.laid.component s hs).mono (Nat.le_refl _) hhi
      apart := h.laid.apart
      outside := fun s hs c hc => by
        rcases List.mem_append.1 hc with hc | hc
        · exact h.laid.outside s hs c hc
        · have hown : s.Between lo cur := h.laid.ownMarks_between s hs
          exact hown.apart (hrow.between c.span (List.mem_map_of_mem hc)) }

/-- A property that is read adds at most one span, which is its own. -/
theorem set {d' : Draft} {key : Key} {name : Text} {value : Expr} (hkey : key.span.Between cur hi)
    (hvalue : value.form? = none → value.Between key.span.stop hi)
    (hset : d.set key name value = .ok d') : d'.IsLaidOut span lo hi := by
  have hdata : ∀ {l : Literal}, value.evaluate = .ok l → value.span.Between key.span.stop hi :=
    fun h => hvalue (Expr.form?_of_evaluate h) (Expr.isBounded_of_evaluate value h)
  cases Draft.set_eq_ok.1 hset with
  | name => exact (h.mono hhi).setName value
  | path => exact (h.mono hhi).setPath value
  | component =>
    refine h.setComponent hlo hhi fun s hs => ?_
    unfold Component.ofExpr at hs
    have hbehind := Nat.le_trans hkey.start hkey.ordered
    split at hs
    · rename_i page heq
      cases List.mem_singleton.1 hs
      exact (hdata heq).mono hbehind (Nat.le_refl _)
    · rename_i bound heq
      cases List.mem_singleton.1 hs
      exact (hdata heq).mono hbehind (Nat.le_refl _)
    · cases hs
  | directive directive flag hflag =>
    refine h.setDirective hlo hhi directive flag ?_
    unfold Directive.flag at hflag
    split at hflag
    · rename_i heq
      have hb := hdata heq
      exact ⟨hkey.start, Nat.le_trans hkey.ordered (Nat.le_trans hb.start hb.ordered), hb.stop⟩
    · cases hflag
    · cases hflag
  | other => exact h.mono hhi

end Draft.IsLaidOut

/-- From one element, from properties behind those that were read, and from an array, entries are
read with nested spans: one step for each way of reading. -/
theorem entries_wellNested :
    (∀ element entry, entryOf? element = .ok entry → ∀ lo hi, element.IsNested lo hi →
      ∀ e ∈ entry, e.span.Between lo hi ∧ e.IsWellNested) ∧
    (∀ props d d', draftOf props d = .ok d' → ∀ span lo cur hi, lo ≤ cur →
      Property.AllNested cur hi props → d.IsLaidOut span lo cur → d'.IsLaidOut span lo hi) ∧
    (∀ elements entries, entriesOf elements = .ok entries → ∀ lo hi,
      Element.AllNested lo hi elements →
      Span.Row lo hi (entries.map Entry.span) ∧ ∀ e ∈ entries, e.IsWellNested) := by
  apply entries_induction
  case object =>
    intro props span d e ih hfinish lo hi hn entry hentry
    cases hentry
    cases (Draft.finish_eq_ok.1 hfinish).1
    rw [Element.isNested_item, Expr.IsNested] at hn
    obtain ⟨hspan, hlaid, hbelow⟩ := ih span _ _ _ (Nat.le_refl _) hn.1 (.empty span _)
    have hbetween : span.Between lo hi := hn.2 rfl
    rw [hspan]
    refine ⟨hbetween, .intro ?_ ?_ hbelow⟩
    · rw [hspan]
      exact hbetween.ordered
    · rw [hspan]
      exact hlaid
  case other =>
    intro element _ lo hi _ e he
    cases he
  case nil =>
    intro lo hi _
    exact ⟨.nil _ _, List.forall_mem_nil _⟩
  case cons =>
    intro element rest entry more ihFirst ihRest lo hi hn
    obtain ⟨mid, hmid, hfirst, hrest⟩ := hn
    have hle : mid ≤ hi := (Element.allNested_iff.1 hrest).le
    obtain ⟨hrow, hbelow⟩ := ihRest _ _ hrest
    cases entry with
    | none => exact ⟨hrow.mono hmid (Nat.le_refl _), hbelow⟩
    | some e =>
      obtain ⟨hspan, hnested⟩ := ihFirst _ _ hfirst e rfl
      exact ⟨(Span.Row.single hspan).append hrow hmid hle, List.forall_mem_cons.2 ⟨hnested, hbelow⟩⟩
  case done =>
    intro d span lo cur hi _ hn hd
    exact hd.mono hn
  case children =>
    intro key name elements span rest d d' entries _ _ ihElements ihRest whole lo cur hi hlo hn hd
    obtain ⟨mid, hmid, hfield, hrest⟩ := hn
    rw [Property.isNested_field, Expr.IsNested] at hfield
    obtain ⟨⟨-, hkey⟩, helements, -, hvalue⟩ := hfield
    obtain ⟨hrow, hbelow⟩ := ihElements _ _ helements
    have hspan : span.Between key.span.stop mid := hvalue rfl rfl
    have hstart := Nat.le_trans (Nat.le_trans hkey.start hkey.ordered) hspan.start
    have hall := hd.addChildren hlo hmid (hrow.mono hstart hspan.stop) hbelow
    exact ihRest _ _ _ _ (Nat.le_trans hlo hmid) hrest hall
  case field =>
    intro key name value rest d e d' _ _ hset ih span lo cur hi hlo hn hd
    obtain ⟨mid, hmid, hfield, hrest⟩ := hn
    rw [Property.isNested_field] at hfield
    have hall := hd.set hlo hmid hfield.1.2 hfield.2.2.2 hset
    exact ih _ _ _ _ (Nat.le_trans hlo hmid) hrest hall
  case shorthand =>
    intro name s rest d d' ih span lo cur hi hlo hn hd
    obtain ⟨mid, hmid, hname, hrest⟩ := hn
    have hspan : s.Between cur mid := Property.isNested_shorthand.1 hname
    refine ih _ _ _ _ (Nat.le_trans hlo hmid) hrest ?_
    split
    · exact hd.setComponent hlo hmid fun x hx => by cases List.mem_singleton.1 hx; exact hspan
    · exact hd.mono hmid
  case skipped =>
    intro prop rest d d' _ ih span lo cur hi hlo hn hd
    obtain ⟨mid, hmid, -, hrest⟩ := hn
    exact ih _ _ _ _ (Nat.le_trans hlo hmid) hrest (hd.mono hmid)

/-! ## The table -/

/-- The elements of a route array stand one behind the other between its brackets. -/
def RouteArray.IsNested (a : RouteArray) : Prop :=
  Element.AllNested a.span.start a.span.stop a.elements

theorem Script.Declarator.routeArray?_nested {d : Declarator} {a : RouteArray} (hn : d.IsNested)
    (h : d.routeArray? = some a) : a.IsNested := by
  unfold routeArray? at h
  split at h
  · cases h
    have he := (Declarator.isNested_mk.1 hn).2 _ rfl
    rwa [Expr.IsNested] at he
  · cases h

mutual

theorem Script.Expr.routeArray?_nested {a : RouteArray} : (e : Expr) → e.IsNested →
    e.routeArray? = some a → a.IsNested
  | .template _ holes _, hn, h => Expr.firstArray?_nested holes (by rwa [Expr.IsNested] at hn) h
  | .paren e _, hn, h => Expr.routeArray?_nested e (Expr.isNested_paren.1 hn).1 h
  | .asType e _, hn, h => Expr.routeArray?_nested e (Expr.isNested_asType.1 hn).1 h
  | .asConst e _, hn, h => Expr.routeArray?_nested e (Expr.isNested_asConst.1 hn).1 h
  | .minus e _, hn, h => Expr.routeArray?_nested e (by rwa [Expr.IsNested] at hn) h
  | .array elements _, hn, h => Element.firstArray?_nested elements (by rwa [Expr.IsNested] at hn) h
  | .object props _, hn, h => Property.firstArray?_nested props (by rwa [Expr.IsNested] at hn) h
  | .compound _ parts _, hn, h => Part.firstArray?_nested parts (by rwa [Expr.IsNested] at hn) h

theorem Script.Expr.firstArray?_nested {a : RouteArray} : (l : List Expr) → Expr.AllNested l →
    Expr.firstArray? l = some a → a.IsNested
  | e :: rest, hn, h => by
    rcases Option.or_eq_some_iff.1 h with h | ⟨-, h⟩
    · exact Expr.routeArray?_nested e hn.1 h
    · exact Expr.firstArray?_nested rest hn.2 h

theorem Script.Element.firstArray?_nested {a : RouteArray} {lo hi : Nat} : (l : List Element) →
    Element.AllNested lo hi l → Element.firstArray? l = some a → a.IsNested
  | .hole :: rest, ⟨_, _, _, hn⟩, h => Element.firstArray?_nested rest hn h
  | .item e :: rest, ⟨_, _, he, hn⟩, h => by
    rcases Option.or_eq_some_iff.1 h with h | ⟨-, h⟩
    · exact Expr.routeArray?_nested e (Element.isNested_item.1 he).1 h
    · exact Element.firstArray?_nested rest hn h
  | .spread e :: rest, ⟨_, _, he, hn⟩, h => by
    rcases Option.or_eq_some_iff.1 h with h | ⟨-, h⟩
    · exact Expr.routeArray?_nested e (Element.isNested_spread.1 he) h
    · exact Element.firstArray?_nested rest hn h

theorem Script.Property.firstArray?_nested {a : RouteArray} {lo hi : Nat} : (l : List Property) →
    Property.AllNested lo hi l → Property.firstArray? l = some a → a.IsNested
  | .field key e :: rest, ⟨_, _, hp, hn⟩, h => by
    obtain ⟨hkey, hvalue, -⟩ := Property.isNested_field.1 hp
    rcases Option.or_eq_some_iff.1 h with h | ⟨-, h⟩
    · rcases Option.or_eq_some_iff.1 h with h | ⟨-, h⟩
      · exact Key.routeArray?_nested key hkey.1 h
      · exact Expr.routeArray?_nested e hvalue h
    · exact Property.firstArray?_nested rest hn h
  | .shorthand _ _ :: rest, ⟨_, _, _, hn⟩, h => Property.firstArray?_nested rest hn h
  | .spread e :: rest, ⟨_, _, hp, hn⟩, h => by
    rcases Option.or_eq_some_iff.1 h with h | ⟨-, h⟩
    · exact Expr.routeArray?_nested e (Property.isNested_spread.1 hp) h
    · exact Property.firstArray?_nested rest hn h
  | .default _ e _ :: rest, ⟨_, _, hp, hn⟩, h => by
    rcases Option.or_eq_some_iff.1 h with h | ⟨-, h⟩
    · exact Expr.routeArray?_nested e (Property.isNested_default.1 hp).1 h
    · exact Property.firstArray?_nested rest hn h
  | .method parts _ :: rest, ⟨_, _, hp, hn⟩, h => by
    rcases Option.or_eq_some_iff.1 h with h | ⟨-, h⟩
    · rw [Property.IsNested] at hp
      exact Part.firstArray?_nested parts hp.1 h
    · exact Property.firstArray?_nested rest hn h

theorem Script.Key.routeArray?_nested {a : RouteArray} : (k : Key) → k.IsNested →
    k.routeArray? = some a → a.IsNested
  | .computed parts _, hn, h => Part.firstArray?_nested parts (by rwa [Key.IsNested] at hn) h

/-- The route array of a nested tree is nested. -/
theorem Script.Part.firstArray?_nested {a : RouteArray} : (l : List Part) → Part.AllNested l →
    Part.firstArray? l = some a → a.IsNested
  | .expr e :: rest, hn, h => by
    rcases Option.or_eq_some_iff.1 h with h | ⟨-, h⟩
    · exact Expr.routeArray?_nested e (Part.isNested_expr.1 hn.1) h
    · exact Part.firstArray?_nested rest hn.2 h
  | .declaration declarators :: rest, hn, h => by
    have hall : Declarator.AllNested declarators := by simpa only [Part.IsNested] using hn.1
    rcases Option.or_eq_some_iff.1 h with h | ⟨-, h⟩
    · rcases Option.or_eq_some_iff.1 h with h | ⟨-, h⟩
      · obtain ⟨d, hd, hfound⟩ := List.exists_of_findSome?_eq_some h
        exact Declarator.routeArray?_nested (Declarator.allNested_iff.1 hall d hd) hfound
      · exact Declarator.firstArray?_nested declarators hall h
    · exact Part.firstArray?_nested rest hn.2 h
  | .imports _ _ _ :: rest, hn, h => Part.firstArray?_nested rest hn.2 h
  | .scope _ :: rest, hn, h => Part.firstArray?_nested rest hn.2 h

theorem Script.Declarator.firstArray?_nested {a : RouteArray} : (l : List Declarator) →
    Declarator.AllNested l → Declarator.firstArray? l = some a → a.IsNested
  | .mk _ _ inPattern none :: rest, hn, h => by
    rcases Option.or_eq_some_iff.1 h with h | ⟨-, h⟩
    · exact Part.firstArray?_nested inPattern (by simpa only [Declarator.IsNested] using hn.1) h
    · exact Declarator.firstArray?_nested rest hn.2 h
  | .mk _ _ inPattern (some e) :: rest, hn, h => by
    have hd := hn.1
    rw [Declarator.IsNested] at hd
    rcases Option.or_eq_some_iff.1 h with h | ⟨-, h⟩
    · rcases Option.or_eq_some_iff.1 h with h | ⟨-, h⟩
      · exact Part.firstArray?_nested inPattern hd.1 h
      · exact Expr.routeArray?_nested e hd.2 h
    · exact Declarator.firstArray?_nested rest hn.2 h

end

theorem readModule_eq_ok {dialect : Dialect} {source : Text} {parts : List Part} :
    readModule dialect source = .ok parts ↔
      parseModule dialect.hasMarkup (withoutMark source) = .ok parts := by
  unfold readModule
  cases parseModule dialect.hasMarkup (withoutMark source) with
  | ok read => exact ⟨fun h => by cases h; rfl, fun h => by cases h; rfl⟩
  | error offset =>
    refine ⟨fun h => ?_, nofun⟩
    obtain ⟨_, -, ⟨⟩⟩ := bind_eq_ok.1 h

theorem readEntries_eq_ok {source : Text} {elements : List Element} {entries : List Entry} :
    readEntries source elements = .ok entries ↔ entriesOf elements = .ok entries := by
  unfold readEntries
  cases entriesOf elements with
  | ok read => exact ⟨fun h => by cases h; rfl, fun h => by cases h; rfl⟩
  | error e =>
    refine ⟨fun h => ?_, nofun⟩
    obtain ⟨_, -, ⟨⟩⟩ := bind_eq_ok.1 h

/-- A route table holds what the parts of the module hold. -/
theorem parseTable_stages {dialect : Dialect} {source : Text} {t : RouteTable}
    (h : parseTable dialect source = .ok t) :
    ∃ parts array, parseModule dialect.hasMarkup (withoutMark source) = .ok parts ∧
      Part.firstArray? parts = some array ∧ entriesOf array.elements = .ok t.entries ∧
      t.binding = array.binding ∧ t.imports = Part.allImports parts ∧
      importAnchor source t.imports = .ok t.importAnchor ∧ t.arraySpan = array.span := by
  obtain ⟨parts, hparts, h⟩ := bind_eq_ok.1 h
  unfold tableOf at h
  split at h
  · cases h
  · rename_i array harray
    obtain ⟨entries, hentries, h⟩ := bind_eq_ok.1 h
    obtain ⟨anchor, hanchor, h⟩ := bind_eq_ok.1 h
    cases h
    exact ⟨parts, array, readModule_eq_ok.1 hparts, harray, readEntries_eq_ok.1 hentries, rfl, rfl,
      hanchor, rfl⟩

/-- The spans in the table of a route file are nested. -/
theorem parseTable_nested {dialect : Dialect} {source : Text} {t : RouteTable}
    (h : parseTable dialect source = .ok t) : t.IsWellNested := by
  obtain ⟨parts, array, hread, harray, hentries, -, -, -, hspan⟩ := parseTable_stages h
  have hparts := Part.allNested_iff.2 (parseModule_nested hread)
  have hnested : Element.AllNested array.span.start array.span.stop array.elements :=
    Part.firstArray?_nested parts hparts harray
  obtain ⟨hrow, hbelow⟩ := entries_wellNested.2.2 _ _ hentries _ _ hnested
  rw [← hspan] at hrow hnested
  exact ⟨(Element.allNested_iff.1 hnested).le, hrow, hbelow⟩

/-- In the table of a route file the spans of entries lie in that of the array and in those of the
entries above them, and at each level in a row; the spans of components and directives lie in that
of their entry, outside of the entries below. So all components and directives of the table stand
apart from each other. -/
theorem parseTable_wellNested {dialect : Dialect} {source : Text} {t : RouteTable}
    (h : parseTable dialect source = .ok t) :
    t.IsWellNested ∧ (Entry.allMarks t.entries).Pairwise Span.Apart :=
  have hnested := parseTable_nested h
  ⟨hnested, hnested.marks_pairwise⟩

/-- Two lists of entries below one, with a directive and the component that counts between them. -/
theorem parseTable_wellNested_routes :
    let source : Text :=
      "const r: R[]=[\x7bcomponent:'/a',children:[\x7btable:true\x7d],cover:false," ++
      "component:B,routes:[\x7bcomponent:'/b'\x7d,\x7b\x7d]\x7d]"
    ∃ t, (parseTable .ts source = .ok t ∧ t.arraySpan = ⟨13, 108⟩ ∧
        Entry.allMarks t.entries = [⟨76, 77⟩, ⟨54, 65⟩, ⟨41, 51⟩, ⟨97, 101⟩]) ∧
      t.IsWellNested ∧ (Entry.allMarks t.entries).Pairwise Span.Apart := by
  intro source
  have hcheck : (parseTable .ts source).toOption.any (fun t => t.arraySpan == ⟨13, 108⟩ &&
      Entry.allMarks t.entries == [⟨76, 77⟩, ⟨54, 65⟩, ⟨41, 51⟩, ⟨97, 101⟩]) = true := by
    decide +kernel
  obtain ⟨t, ht, hspans⟩ := exists_ok_of_any hcheck
  obtain ⟨harray, hmarks⟩ := Bool.and_eq_true_iff.1 hspans
  exact ⟨t, ⟨ht, eq_of_beq harray, eq_of_beq hmarks⟩, parseTable_wellNested ht⟩

end RoutePages
