import RoutePages.Edit.Basic
import RoutePages.Proofs.Succeeds
import RoutePages.Proofs.Text.Split

/-!
# Replacing ranges at once

Edits that can be made replace their ranges simultaneously: the ranges lie apart,
and every byte outside them is kept once and in order. They can be made exactly
when each range lies between characters of the source and no two overlap.
-/
namespace RoutePages

/-- One range ends before the other starts. -/
def Span.Apart (a b : Span) : Prop := a.stop ≤ b.start ∨ b.stop ≤ a.start

instance (a b : Span) : Decidable (a.Apart b) := inferInstanceAs (Decidable (_ ∨ _))

theorem Span.Apart.symm {a b : Span} (h : a.Apart b) : b.Apart a := Or.symm h

namespace Edit

/-- The text that starts at byte `pos` becomes `out` when the ranges of the edits are replaced:
what stands before, between and behind them is kept. -/
inductive Replaced : (pos : Nat) → Text → List Edit → (out : Text) → Prop
  | keep (pos : Nat) (s : Text) : Replaced pos s [] s
  | edit {pos : Nat} {e : Edit} {edits : List Edit} {kept cut rest out : Text}
      (start : e.span.start = pos + Text.size kept)
      (stop : e.span.stop = e.span.start + Text.size cut)
      (more : Replaced e.span.stop rest edits out) :
      Replaced pos (kept ++ cut ++ rest) (e :: edits) (kept ++ e.replacement ++ out)

namespace Replaced

variable {pos : Nat} {s t out more : Text} {edits later : List Edit}

/-- A text in front is kept. -/
theorem prepend (kept : Text) (h : Replaced (pos + Text.size kept) s edits out) :
    Replaced pos (kept ++ s) edits (kept ++ out) := by
  generalize hplace : pos + Text.size kept = place at h
  cases h with
  | keep => exact .keep _ _
  | @edit _ e _ between cut rest _ hstart hstop hmore =>
    have hfront : e.span.start = pos + Text.size (kept ++ between) := by
      rw [Text.size_append]
      omega
    have hedit := Replaced.edit hfront hstop hmore
    simpa only [List.append_assoc] using hedit

/-- Two texts one behind the other are replaced one behind the other. -/
theorem append (h : Replaced pos s edits out)
    (h' : Replaced (pos + Text.size s) t later more) :
    Replaced pos (s ++ t) (edits ++ later) (out ++ more) := by
  induction h with
  | keep pos s => exact h'.prepend s
  | @edit pos e edits kept cut rest out hstart hstop _ ih =>
    have hplace : pos + Text.size (kept ++ cut ++ rest) = e.span.stop + Text.size rest := by
      simp only [Text.size_append]
      omega
    rw [hplace] at h'
    have hedit := Replaced.edit hstart hstop (ih h')
    simpa only [List.append_assoc, List.cons_append] using hedit

/-- A whole text is replaced. -/
theorem whole (pos : Nat) (cut replacement : Text) :
    Replaced pos cut [⟨⟨pos, pos + Text.size cut⟩, replacement⟩] replacement := by
  have hedit := @Replaced.edit pos ⟨⟨pos, pos + Text.size cut⟩, replacement⟩ [] [] cut [] [] rfl rfl
    (.keep _ [])
  simpa using hedit

/-- The edits determine what a text becomes. -/
theorem unique (h : Replaced pos s edits out) (h' : Replaced pos s edits more) : out = more := by
  induction h generalizing more with
  | keep =>
    cases h'
    rfl
  | @edit pos e edits kept cut rest out hstart hstop _ ih =>
    generalize hs : kept ++ cut ++ rest = s at h'
    cases h' with
    | @edit _ _ _ kept' cut' rest' out' hstart' hstop' hmore =>
      rw [List.append_assoc, List.append_assoc] at hs
      obtain ⟨rfl, hrest⟩ := Text.split_unique hs (by omega)
      obtain ⟨rfl, rfl⟩ := Text.split_unique hrest (by omega)
      rw [ih hmore]

/-- The edits stand behind the start, in order. -/
theorem inOrder (h : Replaced pos s edits out) :
    (∀ e ∈ edits, pos ≤ e.span.start ∧ e.span.start ≤ e.span.stop) ∧
      edits.Pairwise (fun a b => a.span.stop ≤ b.span.start) := by
  induction h with
  | keep => exact ⟨nofun, .nil⟩
  | edit hstart hstop _ ih =>
    refine ⟨List.forall_mem_cons.2 ⟨by omega, fun b hb => ?_⟩, List.pairwise_cons.2
      ⟨fun b hb => (ih.1 b hb).1, ih.2⟩⟩
    have hlater := ih.1 b hb
    omega

end Replaced

theorem fits_iff {source : Text} {s : Span} :
    fits source s = true ↔
      s.start ≤ s.stop ∧ source.isBoundary s.start = true ∧ source.isBoundary s.stop = true := by
  simp only [fits, Bool.and_eq_true, decide_eq_true_eq]
  constructor
  · rintro ⟨⟨⟨hle, _⟩, hstart⟩, hstop⟩
    exact ⟨hle, hstart, hstop⟩
  · rintro ⟨hle, hstart, hstop⟩
    exact ⟨⟨⟨hle, Text.le_size_of_isBoundary hstop⟩, hstart⟩, hstop⟩

/-- A range in the source splits it. -/
theorem fits_split {source : Text} {s : Span} (h : fits source s = true) :
    ∃ before mid after, source = before ++ mid ++ after ∧ Text.size before = s.start ∧
      s.stop = s.start + Text.size mid := by
  obtain ⟨hle, hstart, hstop⟩ := fits_iff.1 h
  obtain ⟨before, r, hp, hpsize⟩ := Text.isBoundary_iff.1 hstart
  obtain ⟨q, after, hq, hqsize⟩ := Text.isBoundary_iff.1 hstop
  obtain ⟨mid, rfl, rfl⟩ := Text.split_of_size_le (hp.symm.trans hq) (by omega)
  rw [Text.size_append] at hqsize
  exact ⟨before, mid, after, hq, hpsize, by omega⟩

theorem fits_of_slice? {source found : Text} {s : Span}
    (h : source.slice? s.start s.stop = some found) :
    fits source s = true ∧ s.stop = s.start + Text.size found := by
  obtain ⟨before, after, rfl, hstart, hstop⟩ := Text.slice?_eq_some.1 h
  refine ⟨fits_iff.2 ⟨by omega, ?_, ?_⟩, hstop⟩
  · rw [← hstart, List.append_assoc]
    exact Text.isBoundary_size_append _ _
  · rw [hstop, ← hstart, ← Text.size_append]
    exact Text.isBoundary_size_append _ _

theorem checkBounds_eq_ok {source : Text} {edits : List Edit} :
    checkBounds source edits = .ok () ↔ ∀ e ∈ edits, fits source e.span = true := by
  induction edits with
  | nil => simp [checkBounds]
  | cons e edits ih =>
    by_cases he : fits source e.span = true
    · simp [checkBounds, he, ih]
    · simp [checkBounds, he]

theorem checkApart_eq_ok {edits : List Edit} (h : ∀ e ∈ edits, e.span.start ≤ e.span.stop) :
    checkApart edits = .ok () ↔ edits.Pairwise (fun a b => a.span.stop ≤ b.span.start) := by
  induction edits with
  | nil => simp [checkApart]
  | cons a edits ih =>
    cases edits with
    | nil => simp [checkApart]
    | cons b rest =>
      have ih := ih fun e he => h e (List.mem_cons_of_mem _ he)
      have hb := h b (by simp)
      rw [checkApart, List.pairwise_cons]
      by_cases hab : b.span.start < a.span.stop
      · rw [if_pos hab]
        constructor
        · intro he; cases he
        · intro ⟨ha, _⟩
          have := ha b List.mem_cons_self
          omega
      · rw [if_neg hab, ih]
        constructor
        · intro hp
          refine ⟨fun c hc => ?_, hp⟩
          rcases List.mem_cons.1 hc with rfl | hc
          · omega
          · have := (List.pairwise_cons.1 hp).1 c hc
            omega
        · exact fun hp => hp.2

/-- Splicing edits whose ranges lie apart replaces them at once. -/
theorem splice_replaced {source : Text} {edits : List Edit}
    (hfits : ∀ e ∈ edits, fits source e.span = true)
    (hapart : edits.Pairwise (fun a b => a.span.stop ≤ b.span.start))
    (before s : Text) (hs : source = before ++ s)
    (hpos : ∀ e ∈ edits, Text.size before ≤ e.span.start) :
    Replaced (Text.size before) s edits (splice (Text.size before) s edits) := by
  induction edits generalizing before s with
  | nil => exact .keep _ _
  | cons e edits ih =>
    obtain ⟨hle, hstart, hstop⟩ := fits_iff.1 (hfits e List.mem_cons_self)
    obtain ⟨hfirst, hrest⟩ := List.pairwise_cons.1 hapart
    obtain ⟨p, r, hp, hpsize⟩ := Text.isBoundary_iff.1 hstart
    obtain ⟨q, t, hq, hqsize⟩ := Text.isBoundary_iff.1 hstop
    have hbefore := hpos e List.mem_cons_self
    obtain ⟨kept, rfl, rfl⟩ := Text.split_of_size_le (hs.symm.trans hp) (by omega)
    obtain ⟨cut, rfl, rfl⟩ := Text.split_of_size_le (hp.symm.trans hq) (by omega)
    rw [Text.size_append] at hpsize
    rw [Text.size_append, Text.size_append] at hqsize
    have htake : Text.take? (e.span.start - Text.size before) (kept ++ (cut ++ t)) = some kept := by
      rw [show e.span.start - Text.size before = Text.size kept by omega]
      exact Text.take?_append _ _
    have hdrop : Text.drop? (e.span.stop - Text.size before) (kept ++ (cut ++ t)) = some t := by
      rw [← List.append_assoc,
        show e.span.stop - Text.size before = Text.size (kept ++ cut) by
          rw [Text.size_append]; omega]
      exact Text.drop?_append _ _
    have hmore := ih (fun a ha => hfits a (List.mem_cons_of_mem _ ha)) hrest
      (before ++ kept ++ cut) t (by rw [hs]; simp)
      (fun a ha => by
        have := hfirst a ha
        rw [Text.size_append, Text.size_append]
        omega)
    rw [Text.size_append, Text.size_append, hqsize] at hmore
    rw [splice, htake, hdrop, ← List.append_assoc]
    exact .edit (by omega) (by omega) hmore

private theorem precedes_iff {a b : Edit} : precedes a b = true ↔
    a.span.start < b.span.start ∨ a.span.start = b.span.start ∧ a.span.stop < b.span.stop := by
  simp [precedes]

private theorem precedes_asymm (a b : Edit) (h : precedes a b = true) : precedes b a = false := by
  rw [precedes_iff] at h
  rw [Bool.eq_false_iff, Ne, precedes_iff]
  omega

private theorem precedes_trans (a b c : Edit) (hab : precedes b a = false)
    (hbc : precedes c b = false) : precedes c a = false := by
  rw [Bool.eq_false_iff, Ne, precedes_iff] at hab hbc ⊢
  omega

/-- Of two ranges apart from each other the one that is sorted first ends first. -/
private theorem stop_le_start {a b : Edit} (ha : a.span.start ≤ a.span.stop)
    (hb : b.span.start ≤ b.span.stop) (hab : precedes b a = false) (h : a.span.Apart b.span) :
    a.span.stop ≤ b.span.start := by
  rw [Bool.eq_false_iff, Ne, precedes_iff] at hab
  rcases h with h | h <;> omega

/-- Edits that are made replace their ranges at once, in the order of the ranges. -/
theorem applyAll_replaced {source text : Text} {edits : List Edit}
    (h : applyAll source edits = .ok text) :
    ∃ sorted : List Edit, sorted.Perm edits ∧ (∀ e ∈ sorted, fits source e.span = true) ∧
      sorted.Pairwise (fun a b => a.span.stop ≤ b.span.start) ∧ Replaced 0 source sorted text := by
  obtain ⟨_, hbounds, h⟩ := bind_eq_ok.1 h
  obtain ⟨_, hneighbours, h⟩ := bind_eq_ok.1 h
  cases h
  have hfits := checkBounds_eq_ok.1 hbounds
  have hapart := (checkApart_eq_ok fun e he => (fits_iff.1 (hfits e he)).1).1 hneighbours
  exact ⟨_, sortBy_perm _ _, hfits, hapart,
    splice_replaced hfits hapart [] source rfl fun _ _ => Nat.zero_le _⟩

/-- Edits can be made exactly when each range lies in the source and no two overlap. -/
theorem applyAll_isOk_iff {source : Text} {edits : List Edit} :
    (∃ text, applyAll source edits = .ok text) ↔
      (∀ e ∈ edits, fits source e.span = true) ∧
        edits.Pairwise (fun a b => a.span.Apart b.span) := by
  have hperm := sortBy_perm precedes edits
  constructor
  · rintro ⟨text, h⟩
    obtain ⟨sorted, hp, hfits, hapart, -⟩ := applyAll_replaced h
    refine ⟨fun e he => hfits e (hp.mem_iff.2 he), ?_⟩
    exact (hp.pairwise_iff fun {_ _} h => h.symm).1 (hapart.imp Or.inl)
  · rintro ⟨hfits, hapart⟩
    have hsorted : ∀ e ∈ sortBy precedes edits, fits source e.span = true :=
      fun e he => hfits e (hperm.mem_iff.1 he)
    have hle : ∀ e ∈ sortBy precedes edits, e.span.start ≤ e.span.stop :=
      fun e he => (fits_iff.1 (hsorted e he)).1
    have hdisjoint := (hperm.pairwise_iff fun {_ _} h => h.symm).2 hapart
    have horder := sortBy_pairwise precedes_asymm precedes_trans edits
    have hall : (sortBy precedes edits).Pairwise (fun a b => a.span.stop ≤ b.span.start) := by
      refine (hdisjoint.and horder).imp_of_mem fun {a b} ha hb h => ?_
      exact stop_le_start (hle a ha) (hle b hb) h.2 h.1
    refine ⟨splice 0 source (sortBy precedes edits), ?_⟩
    rw [applyAll, checkBounds_eq_ok.2 hsorted, (checkApart_eq_ok hle).2 hall]
    rfl

end Edit
end RoutePages
