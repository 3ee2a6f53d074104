import RoutePages.Proofs.Page.Contained
import RoutePages.Proofs.Page.ReadBack

/-!
# Pages below pages

Pages form a monoid: one page is put below another, and the root is neutral. The texts of pages,
their segments, what they are imported from and the names made from them all go along with it.
Nothing is assumed of an alias, and nothing of a page but that it is not the root where the root
has no text to be read or no name.
-/
namespace RoutePages

namespace PagePath

variable {a b : Text} {p q : PagePath}

theorem ext_segments (h : p.segments = q.segments) : p = q := by
  cases p
  cases q
  cases h
  rfl

theorem eq_root_iff : p = root ↔ p.segments = [] :=
  ⟨fun h => congrArg segments h, fun h => ext_segments h⟩

theorem pieces_append (a b : Text) : pieces (a ++ '/' :: b) = pieces a ++ pieces b := by
  rw [pieces, Text.splitOn_append, List.map_append]
  rfl

/-- What two texts with a slash between them give is what the second gives below the first: a
slash at the end of the one or at the start of the other makes only an empty piece. -/
theorem parse_append (ha : parse a = .ok p) (hb : parse b = .ok q) :
    parse (a ++ '/' :: b) = .ok (p.join q) := by
  obtain ⟨hupa, hstepa, hnea⟩ := parse_eq_ok.1 ha
  obtain ⟨hupb, hstepb, -⟩ := parse_eq_ok.1 hb
  have hup : (".." : Text) ∉ pieces (a ++ '/' :: b) := by
    rw [pieces_append]
    intro h
    exact (List.mem_append.1 h).elim hupa hupb
  have hsteps : (p.join q).segments = (pieces (a ++ '/' :: b)).filter isStep := by
    rw [pieces_append, List.filter_append, ← hstepa, ← hstepb]
    rfl
  have hne : (p.join q).segments ≠ [] := List.append_ne_nil_of_left_ne_nil hnea _
  exact parse_eq_ok.2 ⟨hup, hsteps, hne⟩

theorem join_assoc (p q r : PagePath) : (p.join q).join r = p.join (q.join r) :=
  ext_segments (List.append_assoc p.segments q.segments r.segments)

theorem root_join (p : PagePath) : root.join p = p :=
  ext_segments (List.nil_append p.segments)

theorem join_root (p : PagePath) : p.join root = p :=
  ext_segments (List.append_nil p.segments)

/-- The segments of a page stand between the slashes of its text, which has no others. -/
theorem names_toText (p : PagePath) : FilePath.names ⟨p.toText⟩ = p.segments :=
  (isNormal_of_ordinary fun s hs => (p.valid s hs).isOrdinary).names_eq

theorem toText_injective : Function.Injective toText := by
  intro p q h
  apply ext_segments
  rw [← names_toText p, ← names_toText q, h]

/-! ## Imports -/

theorem trimAlias_append {pagesAlias slashes : Text} (h : ∀ c ∈ slashes, c = '/') :
    trimAlias (pagesAlias ++ slashes) = trimAlias pagesAlias := by
  have hall : ∀ c ∈ slashes.reverse, decide (c = '/') = true := fun c hc =>
    decide_eq_true (h c (List.mem_reverse.1 hc))
  rw [trimAlias, Text.dropEndWhile, List.reverse_append, List.dropWhile_append_of_pos hall]
  rfl

/-- Behind the alias, without the slashes at its end, stands the text of the page. -/
theorem after?_importSource (p : PagePath) (pagesAlias : Text) :
    Text.after? (trimAlias pagesAlias) (p.importSource pagesAlias) = some p.toText :=
  Text.after?_append _ _

/-! ## Names -/

theorem upperFirst_ne_nil {s : Text} (h : s ≠ []) : Text.upperFirst s ≠ [] := by
  obtain ⟨c, rest, rfl⟩ := List.exists_cons_of_ne_nil h
  obtain ⟨d, more, hupper, -⟩ := Text.uppercase_cases c
  rw [Text.upperFirst, hupper]
  exact List.cons_ne_nil _ _

/-- The name of a page is made from its segments as they stand: none of them is dropped, and there
is nothing to trim. -/
theorem deriveIdentifier_toText (h : p ≠ root) :
    deriveIdentifier p.toText = .ok (p.segments.flatMap Text.upperFirst) := by
  have hkept : (pieces p.toText).filter (· ≠ []) = p.segments := by
    rw [pieces_toText, List.filter_cons_of_neg (by decide), List.filter_eq_self]
    intro s hs
    exact decide_eq_true (p.valid s hs).1
  have hname : p.segments.flatMap Text.upperFirst ≠ [] := by
    obtain ⟨s, more, hsegments⟩ := List.exists_cons_of_ne_nil (mt eq_root_iff.2 h)
    have hs : s ≠ [] := (p.valid s (hsegments ▸ List.mem_cons_self)).1
    rw [hsegments, List.flatMap_cons]
    exact List.append_ne_nil_of_left_ne_nil (upperFirst_ne_nil hs) _
  rw [deriveIdentifier, hkept, if_neg hname]

theorem join_ne_root (h : p ≠ root) : p.join q ≠ root := by
  intro hjoin
  exact h (eq_root_iff.2 (List.append_eq_nil_iff.1 (eq_root_iff.1 hjoin)).1)

/-- The name of a page below another is the name of that one and then its own. -/
theorem deriveIdentifier_join (hp : p ≠ root) (hq : q ≠ root) : ∃ first second,
    deriveIdentifier p.toText = .ok first ∧ deriveIdentifier q.toText = .ok second ∧
      deriveIdentifier (p.join q).toText = .ok (first ++ second) := by
  refine ⟨_, _, deriveIdentifier_toText hp, deriveIdentifier_toText hq, ?_⟩
  rw [deriveIdentifier_toText (join_ne_root hp), join, List.flatMap_append]

end PagePath

open PagePath

theorem Bindings.ofImport_importSource {p : PagePath} {i : Import} {pagesAlias : Text}
    (hp : p ≠ root) (hi : i.source = p.importSource pagesAlias) :
    ofImport i pagesAlias = i.locals.map (·, p) := by
  rw [ofImport, hi, pageOf?_importSource (mt eq_root_iff.2 hp)]

/-- Pages form a monoid. Texts are read into it, each page from its own text too; the segments, the
sources of imports and the names of pages are those of their parts, one behind the other; and a
page is known by its text and by the names between the slashes of that text. -/
theorem PagePath.join_laws :
    ((∀ p q r : PagePath, (p.join q).join r = p.join (q.join r)) ∧
      ∀ p : PagePath, root.join p = p ∧ p.join root = p) ∧
    (∀ (a b : Text) (p q : PagePath), parse a = .ok p → parse b = .ok q →
      parse (a ++ '/' :: b) = .ok (p.join q)) ∧
    (∀ (raw : Text) (p : PagePath), parse raw = .ok p → p ≠ root ∧ parse p.toText = .ok p) ∧
    (∀ p q : PagePath,
      FilePath.names ⟨(p.join q).toText⟩ = FilePath.names ⟨p.toText⟩ ++ FilePath.names ⟨q.toText⟩ ∧
      (p.join q).segments = p.segments ++ q.segments) ∧
    (∀ p q : PagePath, (p.toText = q.toText ↔ p = q) ∧ (p.segments = q.segments ↔ p = q) ∧
      (FilePath.names ⟨p.toText⟩ = FilePath.names ⟨q.toText⟩ ↔ p = q)) ∧
    (∀ (p : PagePath) (pagesAlias slashes : Text), (∀ c ∈ slashes, c = '/') →
      p.importSource (pagesAlias ++ slashes) = p.importSource pagesAlias ∧
      Text.after? (trimAlias pagesAlias) (p.importSource pagesAlias) = some p.toText ∧
      ∀ i : Import, p ≠ root → i.source = p.importSource (pagesAlias ++ slashes) →
        Bindings.ofImport i pagesAlias = i.locals.map (·, p)) ∧
    ∀ p q : PagePath, p ≠ root → q ≠ root → ∃ first second,
      deriveIdentifier p.toText = .ok first ∧ deriveIdentifier q.toText = .ok second ∧
        deriveIdentifier (p.join q).toText = .ok (first ++ second) := by
  have hsegments : ∀ p q : PagePath, p.segments = q.segments ↔ p = q := fun p q =>
    ⟨ext_segments, congrArg segments⟩
  refine ⟨⟨join_assoc, fun p => ⟨root_join p, join_root p⟩⟩, fun a b p q => parse_append,
    fun raw p h => ?_, fun p q => ⟨?_, rfl⟩, fun p q => ?_,
    fun p pagesAlias slashes hslashes => ?_, fun p q => deriveIdentifier_join⟩
  · have hne : p.segments ≠ [] := segments_ne_nil h
    exact ⟨mt eq_root_iff.1 hne, parse_toText hne⟩
  · rw [names_toText, names_toText, names_toText]
    rfl
  · rw [names_toText, names_toText]
    exact ⟨toText_injective.eq_iff, hsegments p q, hsegments p q⟩
  · have hsource : p.importSource (pagesAlias ++ slashes) = p.importSource pagesAlias := by
      rw [importSource, trimAlias_append hslashes]
      rfl
    refine ⟨hsource, after?_importSource p pagesAlias, fun i hp hi => ?_⟩
    exact Bindings.ofImport_importSource hp (hi.trans hsource)

/-- Blanks, repeated slashes and steps to the same place in both texts, an alias with slashes at its
end, and a first character whose upper case has two. -/
theorem PagePath.join_laws_blank :
    let a : Text := " ./users//"
    let b : Text := "/ 列表 /ßx"
    let slashes : Text := "//"
    let imported : Import := ⟨Text.texts ["Users"], "@/pages/users", ⟨0, 32⟩⟩
    ∃ p q : PagePath, (parse a = .ok p ∧ parse b = .ok q ∧ p ≠ root ∧ q ≠ root ∧
        (∀ c ∈ slashes, c = '/') ∧ imported.source = p.importSource ("@/pages" ++ slashes)) ∧
      parse (a ++ '/' :: b) = .ok (p.join q) ∧ parse q.toText = .ok q ∧
      Bindings.ofImport imported "@/pages" = imported.locals.map (·, p) ∧
      deriveIdentifier (p.join q).toText = .ok "Users列表SSx" := by
  intro a b slashes imported
  obtain ⟨p, hp, htext⟩ : ∃ p, parse a = .ok p ∧ decide (p.toText = "/users") = true :=
    exists_ok_of_any (by decide)
  obtain ⟨q, hq, hmore⟩ : ∃ q, parse b = .ok q ∧ decide (q.toText = "/列表/ßx") = true :=
    exists_ok_of_any (by decide)
  have hslashes : ∀ c ∈ slashes, c = '/' := by
    intro c hc
    have hmem : c ∈ ['/', '/'] := hc
    simpa using hmem
  obtain ⟨-, hparse, hread, -, -, hsource, hname⟩ := join_laws
  obtain ⟨hproot, -⟩ := hread a p hp
  obtain ⟨hqroot, hqread⟩ := hread b q hq
  have himported : imported.source = p.importSource ("@/pages" ++ slashes) := by
    rw [importSource, of_decide_eq_true htext]
    decide
  obtain ⟨first, second, hfirst, hsecond, hjoined⟩ := hname p q hproot hqroot
  rw [of_decide_eq_true htext] at hfirst
  rw [of_decide_eq_true hmore] at hsecond
  have hone : first = "Users" := Except.ok.inj (hfirst.symm.trans (by decide))
  have htwo : second = "列表SSx" :=
    Except.ok.inj (hsecond.symm.trans (by decide +kernel))
  refine ⟨p, q, ⟨hp, hq, hproot, hqroot, hslashes, himported⟩, hparse a b p q hp hq, hqread,
    (hsource p "@/pages" slashes hslashes).2.2 imported hproot himported, ?_⟩
  rw [hjoined, hone, htwo]
  rfl

end RoutePages
