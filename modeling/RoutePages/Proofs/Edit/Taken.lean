import RoutePages.Proofs.Edit.Extent
import RoutePages.Proofs.Edit.Replace

/-!
# What a removal takes away

Besides the directives it is made for, a removal takes away only white space, commas
and line comments up to the end of their line, and no more commas than it removes
directives.
-/
namespace RoutePages

namespace Removal

/-- The bytes from `start` to `stop` of the source are the given ranges in order, with nothing
between and around them but white space, line comments up to the end of their line, and the
given number of commas. -/
inductive Taken (source : Text) : (start stop : Nat) → List Span → (commas : Nat) → Prop
  | nothing (n : Nat) : Taken source n n [] 0
  | directive {s : Span} {stop : Nat} {spans : List Span} {commas : Nat}
      (hle : s.start ≤ s.stop) (more : Taken source s.stop stop spans commas) :
      Taken source s.start stop (s :: spans) commas
  | blank {before after : Text} {c : Char} {stop : Nat} {spans : List Span} {commas : Nat}
      (hsource : source = before ++ c :: after) (hc : Text.isBlank c = true)
      (more : Taken source (Text.size before + c.utf8Size) stop spans commas) :
      Taken source (Text.size before) stop spans commas
  | comma {before after : Text} {stop : Nat} {spans : List Span} {commas : Nat}
      (hsource : source = before ++ ',' :: after)
      (more : Taken source (Text.size before + 1) stop spans commas) :
      Taken source (Text.size before) stop spans (commas + 1)
  | comment {before text after : Text} {stop : Nat} {spans : List Span} {commas : Nat}
      (hsource : source = before ++ '/' :: '/' :: text ++ after) (hline : '\n' ∉ text)
      (hafter : ∀ c ∈ after.head?, c = '\n')
      (more : Taken source (Text.size before + Text.size ('/' :: '/' :: text)) stop spans commas) :
      Taken source (Text.size before) stop spans commas

namespace Taken

variable {source : Text}

theorem start_le_stop {a b : Nat} {spans : List Span} {commas : Nat}
    (h : Taken source a b spans commas) : a ≤ b := by
  induction h with
  | nothing => exact Nat.le_refl _
  | directive hle _ ih => exact Nat.le_trans hle ih
  | blank _ _ _ ih => omega
  | comma _ _ ih => omega
  | comment _ _ _ _ ih => omega

theorem append {a b c : Nat} {spans more : List Span} {m n : Nat}
    (h : Taken source a b spans m) (h' : Taken source b c more n) :
    Taken source a c (spans ++ more) (m + n) := by
  induction h with
  | nothing => simpa using h'
  | directive hle _ ih => exact .directive hle (ih h')
  | blank hsource hc _ ih => exact .blank hsource hc (ih h')
  | comma hsource _ ih =>
    rw [Nat.add_right_comm]
    exact .comma hsource (ih h')
  | comment hsource hline hafter _ ih => exact .comment hsource hline hafter (ih h')

theorem blanks (before text after : Text) (hsource : source = before ++ text ++ after)
    (h : ∀ c ∈ text, Text.isBlank c = true) :
    Taken source (Text.size before) (Text.size before + Text.size text) [] 0 := by
  induction text generalizing before with
  | nil => exact .nothing _
  | cons c text ih =>
    have hmore := ih (before ++ [c]) (by simp [hsource]) fun d hd => h d (List.mem_cons_of_mem _ hd)
    rw [Text.size_append, Text.size_cons, Text.size_nil, Nat.add_zero, Nat.add_assoc] at hmore
    have hsource : source = before ++ c :: (text ++ after) := by rw [hsource]; simp
    exact .blank hsource (h c List.mem_cons_self) hmore

/-- A comma and white space behind it. -/
theorem commaBlanks (before text after : Text) (hsource : source = before ++ ',' :: text ++ after)
    (h : ∀ c ∈ text, Text.isBlank c = true) :
    Taken source (Text.size before) (Text.size (before ++ ',' :: text)) [] 1 := by
  have hmore := blanks (before ++ [',']) text after (hsource.trans (by simp)) h
  rw [← Text.size_append, List.append_assoc, List.singleton_append] at hmore
  have hsize : Text.size (before ++ [',']) = Text.size before + 1 := Text.size_append _ _
  rw [hsize] at hmore
  have hsource : source = before ++ ',' :: (text ++ after) := by rw [hsource]; simp
  exact .comma hsource hmore

theorem commaBehind (before taken after : Text) {comma : Bool}
    (hsource : source = before ++ taken ++ after) (h : CommaBehind taken comma after) :
    Taken source (Text.size before) (Text.size (before ++ taken)) [] comma.toNat := by
  cases h with
  | missing hlead _ =>
    rw [Text.size_append]
    exact blanks before taken after hsource fun c hc => isBlank_of_isGap (hlead c hc)
  | @found lead tail _ hlead htail _ =>
    have hfirst := blanks before lead (',' :: tail ++ after) (hsource.trans (by simp))
      fun c hc => isBlank_of_isGap (hlead c hc)
    have hsecond := commaBlanks (before ++ lead) tail after (hsource.trans (by simp))
      fun c hc => isBlank_of_isGap (htail c hc)
    rw [← Text.size_append] at hfirst
    rw [← List.append_assoc]
    exact hfirst.append hsecond

theorem lineRest (before taken after : Text) (hsource : source = before ++ taken ++ after)
    (h : LineRest taken after) :
    Taken source (Text.size before) (Text.size (before ++ taken)) [] 0 := by
  rw [Text.size_append]
  cases h with
  | nothing _ => exact .nothing _
  | comment hline hrest => exact .comment hsource hline hrest (.nothing _)

theorem isBlank_of_isBreak {s : Text} (h : IsBreak s) : ∀ c ∈ s, Text.isBlank c = true := by
  have hfeed : Text.isBlank '\n' = true := by decide
  have hreturn : Text.isBlank '\r' = true := by decide
  rcases h with rfl | rfl | rfl
  · nofun
  · exact List.forall_mem_singleton.2 hfeed
  · exact List.forall_mem_cons.2 ⟨hreturn, List.forall_mem_singleton.2 hfeed⟩

/-- What is taken along needs at most one comma more. -/
theorem extent {kept left mid right rest : Text} {spans : List Span} {commas : Nat}
    (hsource : source = kept ++ left ++ mid ++ (right ++ rest))
    (h : Taken source (Text.size (kept ++ left)) (Text.size (kept ++ left ++ mid)) spans commas)
    (hextent : Extent kept left right rest) :
    ∃ n, n ≤ commas + 1 ∧
      Taken source (Text.size kept) (Text.size (kept ++ left ++ mid ++ right)) spans n := by
  cases hextent with
  | nothing _ _ _ =>
    refine ⟨commas, by omega, ?_⟩
    simpa using h
  | behind hcomma _ =>
    have hright := commaBehind (kept ++ [] ++ mid) right rest (hsource.trans (by simp)) hcomma
    exact ⟨commas + 1, Nat.le_refl _, by simpa using h.append hright⟩
  | @before blank lead rest hblank _ _ =>
    have hleft := commaBlanks kept blank (mid ++ (lead ++ rest)) (hsource.trans (by simp)) hblank
    refine ⟨1 + commas, by omega, ?_⟩
    simpa using hleft.append h
  | @line _ taken comment brk _ comma hblank _ _ hcomma hcomment hbreak _ =>
    have hleft := blanks kept left (mid ++ (taken ++ comment ++ brk ++ rest))
      (hsource.trans (by simp)) hblank
    have hright := commaBehind (kept ++ left ++ mid) taken (comment ++ (brk ++ rest))
      (hsource.trans (by simp)) hcomma
    have hline := lineRest (kept ++ left ++ mid ++ taken) comment (brk ++ rest)
      (hsource.trans (by simp)) hcomment
    have hend := blanks (kept ++ left ++ mid ++ taken ++ comment) brk rest
      (hsource.trans (by simp)) (isBlank_of_isBreak hbreak)
    rw [← Text.size_append] at hleft hend
    refine ⟨commas + comma.toNat, by cases comma <;> simp, ?_⟩
    simpa using ((hleft.append h).append hright).append (hline.append hend)

end Taken

/-- The range of a removal takes at most one comma more than the range it is made for. -/
theorem range_taken {source : Text} {s : Span} {spans : List Span} {commas : Nat}
    (hfits : Edit.fits source s = true) (h : Taken source s.start s.stop spans commas) :
    ∃ n, n ≤ commas + 1 ∧ Taken source (range source s).start (range source s).stop spans n := by
  obtain ⟨before, mid, after, rfl, hpsize, hmid⟩ := Edit.fits_split hfits
  obtain ⟨kept, left, right, rest, rfl, rfl, hextent, hrange⟩ := range_extent _ mid after hpsize hmid
  rw [← hpsize, show s.stop = Text.size (kept ++ left ++ mid) by rw [Text.size_append]; omega] at h
  obtain ⟨n, hn, htaken⟩ := h.extent rfl hextent
  refine ⟨n, hn, ?_⟩
  rw [hrange]
  rwa [Text.size_append, Text.size_append _ mid, hpsize, ← hmid] at htaken

end Removal
end RoutePages
