import RoutePages.Proofs.Text.Split

/-!
# Lines that end in pairs

Where all lines of a text end in a carriage return and a line feed, neither of the two stands
alone. Two such texts one behind the other are such a text again, and so are the parts of one
that is cut anywhere but inside a pair.
-/
namespace RoutePages.Text

/-- Each carriage return stands before a line feed, and each line feed behind a carriage return. -/
structure IsPaired (s : Text) : Prop where
  feed_behind : ∀ before after, s = before ++ '\r' :: after → after.head? = some '\n'
  return_before : ∀ before after, s = before ++ '\n' :: after → before.getLast? = some '\r'

/-- Nothing in the text ends a line. -/
def IsUnbroken (s : Text) : Prop := '\r' ∉ s ∧ '\n' ∉ s

instance (s : Text) : Decidable s.IsUnbroken := inferInstanceAs (Decidable (_ ∧ _))

/-- Does the position lie between a carriage return and a line feed? -/
def splitsPair (s : Text) (n : Nat) : Bool :=
  (s.take? n).bind List.getLast? == some '\r' && (s.drop? n).bind List.head? == some '\n'

theorem splitsPair_append (before after : Text) : splitsPair (before ++ after) (size before) =
    (before.getLast? == some '\r' && after.head? == some '\n') := by
  rw [splitsPair, take?_append, drop?_append]
  rfl

theorem not_splitsPair_of_getLast? {before : Text} (after : Text)
    (h : before.getLast? ≠ some '\r') : splitsPair (before ++ after) (size before) = false := by
  rw [splitsPair_append, beq_false_of_ne h, Bool.false_and]

theorem not_splitsPair_of_head? (before : Text) {after : Text} (h : after.head? ≠ some '\n') :
    splitsPair (before ++ after) (size before) = false := by
  rw [splitsPair_append, beq_false_of_ne h, Bool.and_false]

theorem not_splitsPair_zero (s : Text) : splitsPair s 0 = false := by
  have hnil : ([] : Text).getLast? ≠ some '\r' := nofun
  exact not_splitsPair_of_getLast? s hnil

/-- A part of the text that begins with no line feed starts at no half of a pair. -/
theorem not_splitsPair_start {s part : Text} {a b : Nat} {c : Char}
    (h : s.slice? a b = some (c :: part)) (hc : c ≠ '\n') : splitsPair s a = false := by
  obtain ⟨before, after, rfl, rfl, -⟩ := slice?_eq_some.1 h
  rw [List.append_assoc]
  exact not_splitsPair_of_head? before fun hhead => hc (Option.some.inj hhead)

/-- A part of the text that ends with no carriage return stops at no half of a pair. -/
theorem not_splitsPair_stop {s part : Text} {a b : Nat} {c : Char} (h : s.slice? a b = some part)
    (hlast : part.getLast? = some c) (hc : c ≠ '\r') : splitsPair s b = false := by
  obtain ⟨before, after, rfl, rfl, rfl⟩ := slice?_eq_some.1 h
  rw [← size_append]
  refine not_splitsPair_of_getLast? after fun hreturn => hc (Option.some.inj ?_)
  rw [← hreturn, List.getLast?_append, hlast]
  rfl

namespace IsUnbroken

theorem nil : IsUnbroken [] := ⟨nofun, nofun⟩

theorem append {s t : Text} (hs : s.IsUnbroken) (ht : t.IsUnbroken) : (s ++ t).IsUnbroken :=
  ⟨by simpa using ⟨hs.1, ht.1⟩, by simpa using ⟨hs.2, ht.2⟩⟩

theorem mono {s t : Text} (h : t.IsUnbroken) (hsub : ∀ c ∈ s, c ∈ t) : s.IsUnbroken :=
  ⟨fun hmem => h.1 (hsub _ hmem), fun hmem => h.2 (hsub _ hmem)⟩

theorem isPaired {s : Text} (h : s.IsUnbroken) : s.IsPaired := by
  constructor
  · intro before after hs
    exact absurd (by simp [hs]) h.1
  · intro before after hs
    exact absurd (by simp [hs]) h.2

end IsUnbroken

namespace IsPaired

theorem append {s t : Text} (hs : s.IsPaired) (ht : t.IsPaired) : (s ++ t).IsPaired := by
  constructor
  · intro before after h
    rcases List.append_eq_append_iff.1 h with ⟨m, -, hm⟩ | ⟨m, hm, hafter⟩
    · exact ht.feed_behind m after hm
    · cases m with
      | nil => exact ht.feed_behind [] after hafter.symm
      | cons c m =>
        cases hafter
        show (m ++ t).head? = some '\n'
        rw [List.head?_append, hs.feed_behind before m hm]
        rfl
  · intro before after h
    rcases List.append_eq_append_iff.1 h with ⟨m, rfl, hm⟩ | ⟨m, hm, hafter⟩
    · rw [List.getLast?_append, ht.return_before m after hm]
      rfl
    · cases m with
      | nil => cases ht.return_before [] after hafter.symm
      | cons c m =>
        cases hafter
        exact hs.return_before before m hm

/-- Only a cut inside a pair leaves one of its characters alone. -/
theorem cut {s t : Text} (h : (s ++ t).IsPaired)
    (hcut : ¬ (s.getLast? = some '\r' ∧ t.head? = some '\n')) : s.IsPaired ∧ t.IsPaired := by
  refine ⟨⟨fun before after hs => ?_, fun before after hs => ?_⟩,
    fun before after ht => ?_, fun before after ht => ?_⟩
  · have hfeed := h.feed_behind before (after ++ t) (by simp [hs])
    cases after with
    | nil => exact absurd ⟨by simp [hs], hfeed⟩ hcut
    | cons c after => exact hfeed
  · exact h.return_before before (after ++ t) (by simp [hs])
  · exact h.feed_behind (s ++ before) after (by simp [ht])
  · have hreturn := h.return_before (s ++ before) after (by simp [ht])
    cases before with
    | nil => exact absurd ⟨by simpa using hreturn, by simp [ht]⟩ hcut
    | cons c before =>
      rw [List.getLast?_append, List.getLast?_cons] at hreturn
      rw [List.getLast?_cons]
      exact hreturn

/-- A text that ends in the middle of a larger one, at a position that splits no pair of that. -/
theorem cut_at {before s t : Text} (h : (s ++ t).IsPaired)
    (hcut : splitsPair (before ++ (s ++ t)) (size before + size s) = false) :
    s.IsPaired ∧ t.IsPaired := by
  refine h.cut fun ⟨hlast, hhead⟩ => ?_
  rw [← List.append_assoc, ← size_append, splitsPair_append, hhead, List.getLast?_append,
    hlast] at hcut
  cases hcut

theorem pair : IsPaired ['\r', '\n'] := by
  constructor
  · intro before after h
    cases before with
    | nil =>
      cases h
      rfl
    | cons c before =>
      have hmem : '\r' ∈ ['\n'] := by
        rw [(List.cons.inj h).2]
        simp
      cases List.mem_singleton.1 hmem
  · intro before after h
    rcases before with _ | ⟨c, _ | ⟨d, before⟩⟩
    · cases h
    · cases h
      rfl
    · have hnil := congrArg List.length h
      simp at hnil

end IsPaired

/-- The text is put together from texts without line ends and from the given line break. -/
inductive BreaksWith (stop : Text) : Text → Prop
  | unbroken {s : Text} (h : s.IsUnbroken) : BreaksWith stop s
  | stop : BreaksWith stop stop
  | append {s t : Text} (hs : BreaksWith stop s) (ht : BreaksWith stop t) : BreaksWith stop (s ++ t)

namespace BreaksWith

theorem flatMap {α : Type} {stop : Text} {l : List α} {f : α → Text}
    (h : ∀ a ∈ l, BreaksWith stop (f a)) : BreaksWith stop (l.flatMap f) := by
  induction l with
  | nil => exact .unbroken .nil
  | cons a l ih =>
    obtain ⟨ha, hl⟩ := List.forall_mem_cons.1 h
    exact ha.append (ih hl)

theorem isPaired {stop s : Text} (h : BreaksWith stop s) (hstop : stop.IsPaired) : s.IsPaired := by
  induction h with
  | unbroken h => exact h.isPaired
  | stop => exact hstop
  | append _ _ hs ht => exact hs.append ht

theorem no_return {stop s : Text} (h : BreaksWith stop s) (hstop : '\r' ∉ stop) : '\r' ∉ s := by
  induction h with
  | unbroken h => exact h.1
  | stop => exact hstop
  | append _ _ hs ht => simpa using ⟨hs, ht⟩

end BreaksWith

/-- Is the text made of pairs and of characters that end no line? -/
def isPaired : Text → Bool
  | [] => true
  | '\r' :: '\n' :: s => isPaired s
  | c :: s => c ≠ '\r' && c ≠ '\n' && isPaired s

theorem isPaired_iff {s : Text} : isPaired s = true ↔ s.IsPaired := by
  induction s using isPaired.induct with
  | case1 => exact ⟨fun _ => IsUnbroken.nil.isPaired, fun _ => rfl⟩
  | case2 s ih =>
    rw [isPaired, ih]
    exact ⟨fun h => IsPaired.pair.append h, fun h => (h.cut (s := ['\r', '\n']) nofun).2⟩
  | case3 c s hother ih =>
    rw [isPaired, Bool.and_eq_true, Bool.and_eq_true, decide_eq_true_eq, decide_eq_true_eq, ih]
    constructor
    · rintro ⟨⟨hreturn, hfeed⟩, h⟩
      have hc : IsUnbroken [c] := by simpa [IsUnbroken] using ⟨Ne.symm hreturn, Ne.symm hfeed⟩
      exact hc.isPaired.append h
    · intro h
      have hreturn : c ≠ '\r' := by
        rintro rfl
        obtain ⟨t, rfl⟩ := List.head?_eq_some_iff.1 (h.feed_behind [] s rfl)
        exact hother t rfl rfl
      have hfeed : c ≠ '\n' := by
        rintro rfl
        cases h.return_before [] s rfl
      refine ⟨⟨hreturn, hfeed⟩, (h.cut (s := [c]) fun hcut => hreturn ?_).2⟩
      exact Option.some.inj hcut.1
    · exact hother

instance (s : Text) : Decidable s.IsPaired := decidable_of_iff _ isPaired_iff

/-! ## Where a text occurs -/

theorem occursIn_append (part before after : Text) :
    occursIn part (before ++ (part ++ after)) = true := by
  induction before with
  | nil =>
    cases h : part ++ after with
    | nil => rw [List.nil_append, (List.append_eq_nil_iff.1 h).1]; rfl
    | cons c s =>
      have hprefix : part.isPrefixOf (c :: s) = true :=
        List.isPrefixOf_iff_prefix.2 ⟨after, h⟩
      rw [List.nil_append, occursIn, hprefix, Bool.true_or]
  | cons c before ih => rw [List.cons_append, occursIn, ih, Bool.or_true]

theorem subset_of_occursIn {part s : Text} (h : occursIn part s = true) : part ⊆ s := by
  induction s with
  | nil =>
    rw [occursIn, List.isEmpty_iff] at h
    rw [h]
    exact List.nil_subset _
  | cons c s ih =>
    rcases Bool.or_eq_true_iff.1 h with hprefix | hrest
    · exact (List.isPrefixOf_iff_prefix.1 hprefix).subset
    · exact List.subset_cons_of_subset c (ih hrest)

/-- A text with a line end, all of whose line ends are pairs, has a pair. -/
theorem IsPaired.occursIn_pair {s : Text} (h : s.IsPaired) (hbroken : ¬ s.IsUnbroken) :
    occursIn ['\r', '\n'] s = true := by
  by_cases hreturn : '\r' ∈ s
  · obtain ⟨before, after, rfl⟩ := List.append_of_mem hreturn
    obtain ⟨rest, rfl⟩ := List.head?_eq_some_iff.1 (h.feed_behind before after rfl)
    exact occursIn_append ['\r', '\n'] before rest
  · refine absurd ⟨hreturn, fun hfeed => hreturn ?_⟩ hbroken
    obtain ⟨before, after, rfl⟩ := List.append_of_mem hfeed
    have hlast := List.mem_of_getLast? (h.return_before before after rfl)
    exact List.mem_append_left _ hlast

end RoutePages.Text
