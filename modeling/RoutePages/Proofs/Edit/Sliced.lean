import RoutePages.Proofs.Edit.Layout

/-!
# The parts of a source that a rewrite takes

A rewrite takes parts of the source by their positions. Here each part has to be there: its ends
have to be in order and between two characters of the source. No rewrite ever misses one, since
directives are checked before their surroundings are looked at, and edits before they are made.
-/
namespace RoutePages

/-- A computation that may fail, and that may miss a part of a source. -/
abbrev Slicing := ExceptT EditError Option

namespace Slicing

variable {α β : Type}

/-- A part of the source, which has to be there. -/
def part (found : Option α) : Slicing α := ExceptT.lift found

/-- What a computation gives that misses no part. -/
def given (outcome : Except EditError α) : Slicing α := ExceptT.mk (some outcome)

theorem part_some (a : α) : part (some a) = given (.ok a) := rfl

/-- Two steps miss no part if the first does not, and the second does not after it. -/
theorem bind_eq_given {x : Slicing α} {outcome : Except EditError α} {f : α → Slicing β}
    {g : α → Except EditError β} (hx : x = given outcome)
    (hf : ∀ a, outcome = .ok a → f a = given (g a)) : x >>= f = given (outcome >>= g) := by
  subst hx
  cases outcome with
  | error e => rfl
  | ok a => exact hf a rfl

theorem mapM_eq_given {f : α → Slicing β} {g : α → Except EditError β} {l : List α}
    (h : ∀ a ∈ l, f a = given (g a)) : l.mapM f = given (l.mapM g) := by
  induction l with
  | nil => rfl
  | cons a l ih =>
    obtain ⟨ha, hl⟩ := List.forall_mem_cons.1 h
    rw [List.mapM_cons, List.mapM_cons]
    exact bind_eq_given ha fun b _ => bind_eq_given (ih hl) fun bs _ => rfl

end Slicing

open Slicing

/-- Between two boundaries in order there is a part of the text. -/
theorem Text.exists_slice? {s : Text} {a b : Nat} (ha : s.isBoundary a = true)
    (hb : s.isBoundary b = true) (hle : a ≤ b) : ∃ t, s.slice? a b = some t := by
  obtain ⟨p, r, hp, rfl⟩ := isBoundary_iff.1 ha
  obtain ⟨q, t, hq, rfl⟩ := isBoundary_iff.1 hb
  obtain ⟨m, rfl, rfl⟩ := split_of_size_le (hp.symm.trans hq) hle
  exact ⟨m, slice?_eq_some.2 ⟨p, t, hq, rfl, size_append p m⟩⟩

namespace Removal

/-- The range that goes with the property at `s`, with each part taken from the source. -/
def range? (source : Text) (s : Span) : Option Span := do
  let behind ← source.drop? s.stop
  let (comma, next) := afterComma ⟨s.stop, behind⟩
  let rest ← source.drop? next.pos
  let before ← source.take? s.start
  let lineStart := Text.size before - Text.size before.lastLine
  let line ← source.slice? lineStart s.start
  match line.all Text.isBlank, lineEnd? ⟨next.pos, rest⟩ with
  | true, some stop => do
    let rest ← source.drop? stop.pos
    return ⟨lineStart, (afterBreak ⟨stop.pos, rest⟩).pos⟩
  | _, _ =>
    if comma then return ⟨s.start, next.pos⟩
    else
      let kept := Text.trimEnd before
      return if kept.getLast? = some ',' then ⟨Text.size kept - 1, s.stop⟩ else s

/-- Joins ranges, with the text between two of them taken from the source. -/
def joined? (source : Text) (current : Span) : List Span → Slicing (List Span)
  | [] => return [current]
  | next :: rest =>
    if next.start < current.stop then throw (.overlap current next)
    else do
      let between ← part (source.slice? current.stop next.start)
      if isComma between then joined? source ⟨current.start, next.stop⟩ rest
      else return current :: (← joined? source next rest)

def groups? (source : Text) : List Span → Slicing (List Span)
  | [] => return []
  | first :: rest => joined? source first rest

/-- The edits that remove the directives of one entry. A directive that is not found is an error,
not a part that is missed. -/
def edits? (source : Text) (directives : List DirectiveSpan) : Slicing (List Edit) := do
  let spans ← given (directives.mapM (check source))
  let together ← groups? source (sortBy (fun a b => a.start < b.start) spans)
  let ranges ← together.mapM fun s => part (range? source s)
  return ranges.map fun s => ⟨s, []⟩

variable {source : Text}

/-- All parts around a range that lies in the source are there. -/
theorem range?_eq {s : Span} (h : Edit.fits source s = true) :
    range? source s = some (range source s) := by
  obtain ⟨before, mid, after, rfl, hstart, hstop⟩ := Edit.fits_split h
  have hend : s.stop = Text.size (before ++ mid) := by
    rw [hstop, ← hstart, Text.size_append]
  obtain ⟨taken, comma, rest, hafter, -, hnext⟩ := afterComma_spec s.stop after
  obtain ⟨head, hhead, -⟩ := lastLine_split before
  have htake : Text.take? s.start (before ++ mid ++ after) = some before := by
    rw [← hstart, List.append_assoc]
    exact Text.take?_append _ _
  have hbehind : Text.drop? s.stop (before ++ mid ++ after) = some after := by
    rw [hend]
    exact Text.drop?_append _ _
  have hrest : Text.drop? (s.stop + Text.size taken) (before ++ mid ++ after) = some rest := by
    rw [hend, ← Text.size_append, hafter, ← List.append_assoc]
    exact Text.drop?_append _ _
  have hsize : Text.size before = Text.size head + Text.size (Text.lastLine before) := by
    rw [← Text.size_append, ← hhead]
  have hlineStart : Text.size before - Text.size (Text.lastLine before) = Text.size head := by
    omega
  have hline : Text.slice? (before ++ mid ++ after) (Text.size head) s.start =
      some (Text.lastLine before) := by
    refine Text.slice?_eq_some.2 ⟨head, mid ++ after, ?_, rfl, by omega⟩
    rw [← hhead, List.append_assoc]
  have hrange : range (before ++ mid ++ after) s = rangeBetween before s ⟨s.stop, after⟩ := by
    rw [range, htake, hbehind]
    rfl
  rw [hrange]
  unfold range? rangeBetween
  simp only [hbehind, hnext, hrest, htake, hlineStart, hline, Option.bind_eq_bind, Option.bind_some]
  cases (Text.lastLine before).all Text.isBlank with
  | false => cases comma <;> rfl
  | true =>
    cases hlineEnd : lineEnd? ⟨s.stop + Text.size taken, rest⟩ with
    | none => cases comma <;> rfl
    | some stop =>
      obtain ⟨comment, rest', hcomment, -, rfl⟩ := lineEnd?_spec hlineEnd
      have hdrop : Text.drop? (s.stop + Text.size taken + Text.size comment)
          (before ++ mid ++ after) = some rest' := by
        rw [hend, ← Text.size_append, ← Text.size_append, hafter, hcomment, ← List.append_assoc,
          ← List.append_assoc]
        exact Text.drop?_append _ _
      have hpos : s.start - Text.size (Text.lastLine before) = Text.size head := by omega
      simp only [hdrop, Option.bind_some, hpos]
      rfl

theorem joined?_eq {current : Span} {rest : List Span}
    (hfits : ∀ s ∈ current :: rest, Edit.fits source s = true) :
    joined? source current rest = given (joined source current rest) := by
  induction rest generalizing current with
  | nil => rfl
  | cons next rest ih =>
    obtain ⟨hcurrent, hrest⟩ := List.forall_mem_cons.1 hfits
    obtain ⟨hnext, hmore⟩ := List.forall_mem_cons.1 hrest
    obtain ⟨hle, hstart, hstop⟩ := Edit.fits_iff.1 hcurrent
    obtain ⟨hle', hstart', hstop'⟩ := Edit.fits_iff.1 hnext
    rw [joined?, joined]
    split
    · rfl
    · rename_i horder
      obtain ⟨between, hbetween⟩ :=
        Text.exists_slice? hstop hstart' (Nat.not_lt.1 horder)
      rw [hbetween, part_some]
      have hboth : Edit.fits source ⟨current.start, next.stop⟩ = true :=
        Edit.fits_iff.2 ⟨by dsimp only; omega, hstart, hstop'⟩
      show (if isComma between then joined? source ⟨current.start, next.stop⟩ rest
        else do return current :: (← joined? source next rest)) = _
      rw [Option.getD_some]
      split
      · exact ih (List.forall_mem_cons.2 ⟨hboth, hmore⟩)
      · refine (bind_eq_given (ih hrest) fun _ _ => rfl).trans ?_
        cases joined source next rest <;> rfl

theorem groups?_eq {spans : List Span} (hfits : ∀ s ∈ spans, Edit.fits source s = true) :
    groups? source spans = given (groups source spans) := by
  cases spans with
  | nil => rfl
  | cons first rest => exact joined?_eq hfits

/-- The directives of one entry are removed without missing a part: none of it is looked for before
all of them are found. -/
theorem edits?_eq (source : Text) (directives : List DirectiveSpan) :
    edits? source directives = given (edits source directives) := by
  refine bind_eq_given rfl fun spans hspans => ?_
  have hfits : ∀ s ∈ sortBy (fun a b => a.start < b.start) spans, Edit.fits source s = true := by
    intro s hs
    obtain ⟨d, -, hd⟩ := forall₂_exists_left (mapM_eq_ok.1 hspans) ((sortBy_perm _ _).mem_iff.1 hs)
    obtain ⟨rfl, hkey⟩ := check_eq_ok.1 hd
    exact (fits_of_beginsWithKey hkey).1
  refine bind_eq_given (groups?_eq hfits) fun together htogether => ?_
  obtain ⟨cuts, hcuts, -, hjoined⟩ := groups_cuts hfits htogether
  have hranges : (together.mapM fun s => part (range? source s)) =
      given (.ok (together.map (range source))) := by
    refine (mapM_eq_given (g := fun s => .ok (range source s)) fun s hs => ?_).trans ?_
    · rw [hcuts] at hs
      obtain ⟨x, hx, rfl⟩ := List.mem_map.1 hs
      rw [range?_eq (hjoined x hx).fits, part_some]
    · exact congrArg given (List.mapM_pure (m := Except EditError))
  rw [hranges]
  show given (.ok ((together.map (range source)).map fun s => (⟨s, []⟩ : Edit))) = _
  rw [List.map_map]
  rfl

end Removal

namespace Edit

/-- Makes edits in order, with each part that is kept taken from the source. -/
def splice? (source : Text) (pos : Nat) : List Edit → Option Text
  | [] => source.drop? pos
  | e :: rest => do
    let kept ← source.slice? pos e.span.start
    let more ← splice? source e.span.stop rest
    return kept ++ e.replacement ++ more

def applyAll? (source : Text) (edits : List Edit) : Slicing Text := do
  let sorted := sortBy precedes edits
  given (checkBounds source sorted)
  given (checkApart sorted)
  part (splice? source 0 sorted)

variable {source : Text}

/-- The parts between the replaced ranges are there. -/
theorem Replaced.splice?_eq {pos : Nat} {s out : Text} {edits : List Edit}
    (h : Replaced pos s edits out) {before : Text} (hsource : source = before ++ s)
    (hpos : Text.size before = pos) : splice? source pos edits = some out := by
  induction h generalizing before with
  | keep pos s =>
    subst hsource hpos
    exact Text.drop?_append _ _
  | @edit pos e edits kept cut rest out hstart hstop _ ih =>
    have hkept : source.slice? pos e.span.start = some kept := by
      refine Text.slice?_eq_some.2 ⟨before, cut ++ rest, ?_, hpos, hstart⟩
      rw [hsource]
      simp
    have hmore : splice? source e.span.stop edits = some out := by
      refine @ih (before ++ kept ++ cut) ?_ ?_
      · rw [hsource]
        simp
      · rw [Text.size_append, Text.size_append]
        omega
    rw [splice?, hkept, Option.bind_eq_bind, Option.bind_some, hmore]
    rfl

theorem applyAll?_eq (source : Text) (edits : List Edit) :
    applyAll? source edits = given (applyAll source edits) := by
  refine bind_eq_given rfl fun _ hbounds => bind_eq_given rfl fun _ hneighbours => ?_
  have hfits := checkBounds_eq_ok.1 hbounds
  have hapart := (checkApart_eq_ok fun e he => (fits_iff.1 (hfits e he)).1).1 hneighbours
  have hreplaced := splice_replaced hfits hapart [] source rfl fun _ _ => Nat.zero_le _
  have hparts : splice? source 0 (sortBy precedes edits) =
      some (splice 0 source (sortBy precedes edits)) := hreplaced.splice?_eq rfl rfl
  rw [hparts]
  rfl

end Edit

/-- Rewrites a route file, with each part taken from the source. -/
def rewrite? (source : Text) (t : RouteTable) (plans : List PagePlan) (pagesAlias : Text) :
    Slicing Rewrite := do
  let components ← given (plans.mapM (Rewrite.componentEdit source))
  let removals ← (Rewrite.directivesOf t.entries).mapM (Removal.edits? source)
  let lines := Rewrite.missingImports t pagesAlias [] plans
  let edits := components ++ removals.flatten ++ Rewrite.importEdits source t.importAnchor lines
  let text ← Edit.applyAll? source edits
  return { text, importsAdded := lines, changed := !edits.isEmpty }

/-- No rewrite misses a part of the source. -/
theorem rewrite?_eq (source : Text) (t : RouteTable) (plans : List PagePlan) (pagesAlias : Text) :
    rewrite? source t plans pagesAlias = given (rewrite source t plans pagesAlias) :=
  bind_eq_given rfl fun _ _ =>
    bind_eq_given (mapM_eq_given fun directives _ => Removal.edits?_eq source directives)
      fun _ _ => bind_eq_given (Edit.applyAll?_eq source _) fun _ _ => rfl

end RoutePages
