import RoutePages.Proofs.Edit.Layout
import RoutePages.Proofs.Route.Laid

/-!
# Directives that are cut out

What a rewrite removes follows from the text around the directives of an entry. Where each cut of a
layout is what the removal of its directives takes along, the ranges that a rewrite removes are the
cuts.
-/
namespace RoutePages

open Script

/-! ## Runs of directives -/

/-- The ranges of the directives among properties. -/
def directiveSpans (props : List Property) : List Span :=
  (props.filterMap Property.directive?).map DirectiveSpan.span

theorem directiveSpans_append (first more : List Property) :
    directiveSpans (first ++ more) = directiveSpans first ++ directiveSpans more := by
  rw [directiveSpans, List.filterMap_append, List.map_append]
  rfl

theorem directiveSpans_cons {p : Property} (h : p.directive? = none) (rest : List Property) :
    directiveSpans (p :: rest) = directiveSpans rest := by
  rw [directiveSpans, List.filterMap_cons_none h]
  rfl

/-- The joined ranges, behind one that may have been begun. -/
def Removal.runsBehind (source : Text) : Option Span → List Span → List Span
  | none, spans => Removal.runs source spans
  | some current, spans => Removal.runsFrom source current spans

namespace Layout

variable {source : Text}

/-- The directives of a run are joined to one range. -/
theorem IsRun.joined {run : List (Piece Property)} (h : IsRun run) {before after : Text}
    (hsource : source = before ++ (Piece.allText run ++ after)) :
    ∃ s spans, directiveSpans (Piece.values (Text.size before) run) = s :: spans ∧
      s.start = Text.size before ∧ ∀ start more,
        Removal.runsFrom source ⟨start, s.stop⟩ (spans ++ more) =
          Removal.runsFrom source ⟨start, Text.size before + Text.size (Piece.allText run)⟩ more := by
  induction h generalizing before with
  | @one text read hdirective =>
    obtain ⟨directive, hread⟩ := hdirective.2 (Text.size before)
    refine ⟨_, [], congrArg (List.map DirectiveSpan.span) (List.filterMap_cons_some hread), rfl,
      fun start more => ?_⟩
    rw [Piece.allText_cons, Piece.allText_nil, List.append_nil]
    rfl
  | @more text read between run hdirective hbetween hcomma _ ih =>
    obtain ⟨directive, hread⟩ := hdirective.2 (Text.size before)
    have hbehind : source =
        before ++ text ++ Piece.allText between ++ (Piece.allText run ++ after) := by
      rw [hsource, Piece.allText_cons, Piece.allText_append, Piece.text]
      simp only [List.append_assoc]
    obtain ⟨s, spans, hspans, hstart, hjoined⟩ := ih hbehind
    have hplace : Text.size (before ++ text ++ Piece.allText between) =
        Text.size before + Text.size text + Text.size (Piece.allText between) := by
      rw [Text.size_append, Text.size_append]
    have hvalues : Piece.values (Text.size before) (.item text read :: (between ++ run)) =
        read (Text.size before) ::
          Piece.values (Text.size (before ++ text ++ Piece.allText between)) run := by
      rw [Piece.values, Piece.values_append, Piece.values_between hbetween, hplace]
      rfl
    refine ⟨⟨Text.size before, Text.size before + Text.size text⟩, s :: spans, ?_, rfl,
      fun start more => ?_⟩
    · rw [hvalues, ← hspans]
      exact congrArg (List.map DirectiveSpan.span) (List.filterMap_cons_some hread)
    · have hslice : source.slice? (Text.size before + Text.size text) s.start =
          some (Piece.allText between) := by
        rw [hstart, hbehind, hplace, ← Text.size_append]
        exact Text.slice?_append _ _ _
      rw [List.cons_append, Removal.runsFrom]
      dsimp only
      rw [hslice, Option.getD_some, if_pos hcomma, hjoined, hplace, Piece.allText_cons,
        Piece.allText_append, Piece.text, Text.size_append, Text.size_append]
      simp only [Nat.add_assoc]

/-! ## What stands around a cut -/

mutual

/-- More than a comma stands between the directives of two cuts in one entry. -/
def Entries.isApart : Entries → Bool
  | .done => true
  | .space _ rest | .comma rest | .other _ _ rest => rest.isApart
  | .entry fields rest => fields.isApart none && rest.isApart

/-- The same for what follows the last directive of an entry so far, given the text behind that. -/
def Fields.isApart : Fields → (since : Option Text) → Bool
  | .done, _ => true
  | .space text rest, since | .other text _ rest, since => rest.isApart (since.map (· ++ text))
  | .comma rest, since => rest.isApart (since.map (· ++ ","))
  | .cut left _ right rest, since =>
    since.all (fun text => !Removal.isComma (text ++ Piece.allText left)) &&
      rest.isApart (some (Piece.allText right))
  | .page head _ text _ _ rest, since => rest.isApart (since.map (· ++ (head ++ text)))
  | .children head _ entries rest, since => entries.isApart &&
    rest.isApart (since.map (· ++ (head ++ Piece.bracketed '[' ']' entries.pieces)))

end

mutual

/-- Each cut is what the removal of its directives takes along, in the text before and behind. -/
def Entries.AreExtents : Entries → (before after : Text) → Prop
  | .done, _, _ => True
  | .space text rest, before, after | .other text _ rest, before, after =>
    rest.AreExtents (before ++ text) after
  | .comma rest, before, after => rest.AreExtents (before ++ ",") after
  | .entry fields rest, before, after =>
    fields.AreExtents (before ++ ['\x7b']) ('\x7d' :: (Piece.allText rest.pieces ++ after)) ∧
      rest.AreExtents (before ++ Piece.bracketed '\x7b' '\x7d' fields.pieces) after

def Fields.AreExtents : Fields → (before after : Text) → Prop
  | .done, _, _ => True
  | .space text rest, before, after | .other text _ rest, before, after =>
    rest.AreExtents (before ++ text) after
  | .comma rest, before, after => rest.AreExtents (before ++ ",") after
  | .cut left run right rest, before, after =>
    Removal.Extent before (Piece.allText left) (Piece.allText right)
        (Piece.allText rest.pieces ++ after) ∧
      rest.AreExtents (before ++ Piece.allText (left ++ run ++ right)) after
  | .page head _ text _ _ rest, before, after => rest.AreExtents (before ++ (head ++ text)) after
  | .children head _ entries rest, before, after =>
    entries.AreExtents (before ++ (head ++ ['['])) (']' :: (Piece.allText rest.pieces ++ after)) ∧
      rest.AreExtents (before ++ (head ++ Piece.bracketed '[' ']' entries.pieces)) after

end

/-- The runs of directives of an entry, each with the range that is cut out for it. -/
def Fields.cuts : Fields → (pos : Nat) → List (Span × Span)
  | .done, _ => []
  | .space text rest, pos | .other text _ rest, pos => rest.cuts (pos + Text.size text)
  | .comma rest, pos => rest.cuts (pos + 1)
  | .cut left run right rest, pos =>
    (⟨pos + Text.size (Piece.allText left),
        pos + Text.size (Piece.allText left) + Text.size (Piece.allText run)⟩,
      ⟨pos, pos + Text.size (Piece.allText (left ++ run ++ right))⟩) ::
        rest.cuts (pos + Text.size (Piece.allText (left ++ run ++ right)))
  | .page head _ text _ _ rest, pos => rest.cuts (pos + Text.size (head ++ text))
  | .children head _ entries rest, pos =>
    rest.cuts (pos + Text.size (head ++ Piece.bracketed '[' ']' entries.pieces))

/-- A text is passed that stands before what follows. -/
theorem behind_text {before text more after : Text}
    (h : source = before ++ (text ++ more ++ after)) :
    source = before ++ text ++ (more ++ after) := by
  rw [h]
  simp only [List.append_assoc]

section Cuts

variable {names : PageNames}

/-- What stands behind the last range so far, if there is one. -/
inductive Since (before : Text) : Option Span → Option Text → Prop
  | start : Since before none none
  | behind {current : Span} {first text : Text} (hbefore : before = first ++ text)
    (hstop : Text.size first = current.stop) : Since before (some current) (some text)

theorem Since.append {before : Text} {current : Option Span} {since : Option Text}
    (h : Since before current since) (text : Text) :
    Since (before ++ text) current (since.map (· ++ text)) := by
  cases h with
  | start => exact .start
  | behind hbefore hstop => exact .behind (by rw [hbefore, List.append_assoc]) hstop

/-- A range behind more than a comma is not joined. -/
theorem Since.apart {before after lead : Text} {current : Option Span} {since : Option Text}
    (h : Since before current since) (hsource : source = before ++ lead ++ after)
    (happart : since.all (fun text => !Removal.isComma (text ++ lead)) = true) {s : Span}
    (hs : s.start = Text.size (before ++ lead)) (spans : List Span) :
    Removal.runsBehind source current (s :: spans) =
      current.toList ++ Removal.runsBehind source (some s) spans := by
  cases h with
  | start => rfl
  | @behind current first text hbefore hstop =>
    have hslice : source.slice? current.stop s.start = some (text ++ lead) := by
      rw [hs, ← hstop, hsource, hbefore, List.append_assoc first, Text.size_append]
      exact Text.slice?_append _ _ _
    have hcomma : Removal.isComma (text ++ lead) = false := by simpa using happart
    rw [Removal.runsBehind, Removal.runsFrom, hslice, Option.getD_some, hcomma,
      if_neg Bool.false_ne_true]
    rfl

theorem directive?_other {p : Property} (h : Property.settleAll names [p] = [p]) :
    p.directive? = none := by
  cases hp : p.directive? with
  | none => rfl
  | some directive =>
    rw [settleAll_directive names (by rw [hp]; rfl)] at h
    cases h

theorem directive?_of_key {key : Key} {name : Text} (hkey : key.text? = some name)
    (hname : Directive.ofKey? name = none) (value : Expr) :
    (Property.field key value).directive? = none := by
  rw [Property.directive?, hkey, Option.bind_some, hname]
  rfl

theorem directive?_children {key : Key} {name : Text} (hkey : key.text? = some name)
    (hname : holdsChildren name = true) (value : Expr) :
    (Property.field key value).directive? = none := by
  refine directive?_of_key hkey ?_ value
  rcases Bool.or_eq_true_iff.1 hname with hname | hname <;> cases eq_of_beq hname <;> decide

/-- The directives of an entry are joined to the runs of its cuts. -/
theorem Fields.runs_eq : (fields : Fields) → (before after : Text) → (current : Option Span) →
    (since : Option Text) → source = before ++ (Piece.allText fields.pieces ++ after) →
    Since before current since → fields.isApart since = true →
    fields.Settles names (Text.size before) →
    Removal.runsBehind source current
        (directiveSpans (Piece.values (Text.size before) fields.pieces)) =
      current.toList ++ (fields.cuts (Text.size before)).map Prod.fst
  | .done, _, _, none, _, _, _, _, _ => rfl
  | .done, _, _, some _, _, _, _, _, _ => rfl
  | .space text rest, before, after, current, since, hsource, hsince, happart, h => by
    have hrest := Fields.runs_eq rest (before ++ text) after current _ (behind_text hsource)
      (hsince.append text) happart
    rw [Text.size_append] at hrest
    exact hrest h
  | .comma rest, before, after, current, since, hsource, hsince, happart, h => by
    have hrest := Fields.runs_eq rest (before ++ ",") after current _ (behind_text hsource)
      (hsince.append ",") happart
    have hsize : Text.size "," = 1 := by decide
    rw [Text.size_append, hsize] at hrest
    exact hrest h
  | .cut left run right rest, before, after, current, since, hsource, hsince, happart, h => by
    obtain ⟨hcut, h⟩ := h
    obtain ⟨hfirst, hlater⟩ := Bool.and_eq_true_iff.1 happart
    have htext : Piece.allText (left ++ run ++ right) =
        Piece.allText left ++ Piece.allText run ++ Piece.allText right := by
      rw [Piece.allText_append, Piece.allText_append]
    rw [Fields.pieces, Piece.allText_append] at hsource
    have hrun : source = before ++ Piece.allText left ++
        (Piece.allText run ++ (Piece.allText right ++ (Piece.allText rest.pieces ++ after))) := by
      rw [hsource, htext]
      simp only [List.append_assoc]
    obtain ⟨s, spans, hspans, hstart, hjoined⟩ := hcut.run.joined hrun
    have hplace : Text.size (before ++ Piece.allText left) =
        Text.size before + Text.size (Piece.allText left) := Text.size_append _ _
    have hbehind : Since (before ++ Piece.allText (left ++ run ++ right))
        (some ⟨s.start, Text.size (before ++ Piece.allText left) + Text.size (Piece.allText run)⟩)
        (some (Piece.allText right)) := by
      have hfirst : before ++ Piece.allText (left ++ run ++ right) =
          before ++ Piece.allText left ++ Piece.allText run ++ Piece.allText right := by
        rw [htext]
        simp only [List.append_assoc]
      exact .behind hfirst (Text.size_append _ _)
    have hrest := Fields.runs_eq rest (before ++ Piece.allText (left ++ run ++ right)) after _ _
      (behind_text hsource) hbehind hlater
    rw [Text.size_append] at hrest
    rw [Fields.pieces, Piece.values_append, hcut.values, ← hplace, directiveSpans_append, hspans,
      List.cons_append, hsince.apart hrun hfirst hstart]
    refine congrArg (current.toList ++ ·) ((hjoined s.start _).trans ((hrest h).trans ?_))
    rw [hstart, hplace]
    rfl
  | .page head key text read identifier rest, before, after, current, since, hsource, hsince,
      happart, h => by
    have hrest := Fields.runs_eq rest (before ++ (head ++ text)) after current _
      (behind_text hsource) (hsince.append (head ++ text)) happart
    rw [Text.size_append] at hrest
    obtain ⟨hkey, -, -, -, h⟩ := h
    rw [Fields.pieces, Piece.values, behind,
      directiveSpans_cons (directive?_of_key hkey (by decide) _)]
    exact hrest h
  | .children head key entries rest, before, after, current, since, hsource, hsince, happart, h => by
    have hrest := Fields.runs_eq rest _ after current _ (behind_text hsource)
      (hsince.append (head ++ Piece.bracketed '[' ']' entries.pieces))
      (Bool.and_eq_true_iff.1 happart).2
    rw [Text.size_append] at hrest
    obtain ⟨⟨name, hkey, hname⟩, -, -, h⟩ := h
    rw [Fields.pieces, Piece.values, behind, directiveSpans_cons (directive?_children hkey hname _)]
    exact hrest h
  | .other text read rest, before, after, current, since, hsource, hsince, happart, h => by
    have hrest := Fields.runs_eq rest (before ++ text) after current _ (behind_text hsource)
      (hsince.append text) happart
    rw [Text.size_append] at hrest
    obtain ⟨hkept, -, h⟩ := h
    rw [Fields.pieces, Piece.values, directiveSpans_cons (directive?_other hkept)]
    exact hrest h

end Cuts

/-- The removal of a run reaches over its cut. -/
theorem Fields.range_of_mem_cuts : (fields : Fields) → (before after : Text) →
    source = before ++ (Piece.allText fields.pieces ++ after) → fields.AreExtents before after →
    ∀ cut ∈ fields.cuts (Text.size before), Removal.range source cut.1 = cut.2
  | .done, _, _, _, _ => nofun
  | .space text rest, before, after, hsource, h => by
    have hrest := Fields.range_of_mem_cuts rest (before ++ text) after (behind_text hsource) h
    rwa [Text.size_append] at hrest
  | .comma rest, before, after, hsource, h => by
    have hrest := Fields.range_of_mem_cuts rest (before ++ ",") after (behind_text hsource) h
    rwa [Text.size_append] at hrest
  | .cut left run right rest, before, after, hsource, h => by
    have htext : Piece.allText (left ++ run ++ right) =
        Piece.allText left ++ Piece.allText run ++ Piece.allText right := by
      rw [Piece.allText_append, Piece.allText_append]
    rw [Fields.pieces, Piece.allText_append] at hsource
    have hrest := Fields.range_of_mem_cuts rest _ after (behind_text hsource) h.2
    rw [Text.size_append] at hrest
    refine List.forall_mem_cons.2 ⟨?_, hrest⟩
    have hsplit : source = before ++ Piece.allText left ++ Piece.allText run ++
        (Piece.allText right ++ (Piece.allText rest.pieces ++ after)) := by
      rw [hsource, htext]
      simp only [List.append_assoc]
    rw [hsplit, h.1.range (Piece.allText run) (Text.size_append _ _) rfl, htext, Text.size_append,
      Text.size_append]
    simp only [Nat.add_assoc]
  | .page head _ text _ _ rest, before, after, hsource, h => by
    have hrest := Fields.range_of_mem_cuts rest (before ++ (head ++ text)) after
      (behind_text hsource) h
    rwa [Text.size_append] at hrest
  | .children head _ entries rest, before, after, hsource, h => by
    have hrest := Fields.range_of_mem_cuts rest _ after (behind_text hsource) h.2
    rwa [Text.size_append] at hrest
  | .other text _ rest, before, after, hsource, h => by
    have hrest := Fields.range_of_mem_cuts rest (before ++ text) after (behind_text hsource) h
    rwa [Text.size_append] at hrest

/-- The ranges that are removed from an entry are its cuts. -/
theorem Fields.ranges_eq {names : PageNames} {fields : Fields} {before after : Text}
    (hsource : source = before ++ (Piece.allText fields.pieces ++ after))
    (happart : fields.isApart none = true) (hextents : fields.AreExtents before after)
    (h : fields.Settles names (Text.size before)) :
    (Removal.runs source (directiveSpans (Piece.values (Text.size before) fields.pieces))).map
        (Removal.range source) = (fields.cuts (Text.size before)).map Prod.snd := by
  have hruns := Fields.runs_eq fields before after none none hsource .start happart h
  rw [Removal.runsBehind, Option.toList_none, List.nil_append] at hruns
  rw [hruns, List.map_map]
  exact List.map_congr_left (Fields.range_of_mem_cuts fields before after hsource hextents)

end Layout
end RoutePages
