import RoutePages.Proofs.Route.Marks
import RoutePages.Proofs.Route.Offsets

/-!
# Where a route file is cut

While a route file is read it is cut at one offset at most: that of an error, or that where
its last import stops. Such an offset counts the bytes behind a byte order mark, and the file
is cut with the mark. So it lies between two characters wherever there is no mark, and behind
one only where it also does so three bytes further back.
-/
namespace RoutePages

open Script

/-- The offsets that a text is read at: that of its first syntax error, or else those of the data in
its route array, and those where its imports stop. -/
def Script.readOffsets (markup : Bool) (text : Text) : List Nat :=
  match parseModule markup text with
  | .error offset => [offset]
  | .ok parts =>
    (match Part.firstArray? parts with
      | some array => Element.allOffsets array.elements
      | none => []) ++
    (Part.allImports parts).map (·.span.stop)

/-- All offsets that a text is read at lie between its characters. -/
def Script.ReadsAtBoundaries (markup : Bool) (text : Text) : Prop :=
  ∀ offset ∈ readOffsets markup text, text.isBoundary offset = true

instance (markup : Bool) (text : Text) : Decidable (ReadsAtBoundaries markup text) :=
  inferInstanceAs (Decidable (∀ offset ∈ readOffsets markup text, text.isBoundary offset = true))

/-- Does the source begin with a byte order mark? -/
def isMarked (source : Text) : Bool := source.head?.any (·.toNat = 0xFEFF)

/-- The offset that a source is cut at while it is read: where its first syntax error is, or else
the first field that cannot be used, or else where its last import stops. -/
def cut? (dialect : Dialect) (source : Text) : Option Nat :=
  match parseModule dialect.hasMarkup (withoutMark source) with
  | .error offset => some offset
  | .ok parts =>
    (Part.firstArray? parts).bind fun array =>
      match entriesOf array.elements with
      | .error e => some e.offset
      | .ok _ => (Part.allImports parts).getLast?.map (·.span.stop)

/-! ## Cutting -/

theorem Text.take?_isSome {s : Text} {n : Nat} : (s.take? n).isSome = s.isBoundary n := by
  rw [Bool.eq_iff_iff, isBoundary_iff, Option.isSome_iff_exists]
  constructor
  · rintro ⟨p, hp⟩
    obtain ⟨r, hs, hsize⟩ := take?_eq_some.1 hp
    exact ⟨p, r, hs, hsize⟩
  · rintro ⟨p, r, hs, hsize⟩
    exact ⟨p, take?_eq_some.2 ⟨r, hs, hsize⟩⟩

theorem Text.position?_isSome {s : Text} {n : Nat} (h : n ≤ s.size) :
    (s.position? n).isSome = s.isBoundary n := by
  unfold position?
  rw [Nat.min_eq_left h]
  dsimp only
  rw [isBoundary]
  have htake := @take?_isSome s n
  rw [isBoundary] at htake
  cases hdrop : s.drop? n with
  | none =>
    cases s.take? n <;> rfl
  | some after =>
    rw [hdrop, Option.isSome_some] at htake
    obtain ⟨before, hbefore⟩ := Option.isSome_iff_exists.1 htake
    rw [hbefore]
    rfl

variable {dialect : Dialect} {source : Text} {n offset : Nat}

theorem locate_bind_eq_offBoundary {α : Type} {f : Position → Except TableError α}
    (hf : ∀ p, f p ≠ .error (.offBoundary n)) (h : offset ≤ source.size) :
    (locate source offset).bind f = .error (.offBoundary n) ↔
      offset = n ∧ source.isBoundary n = false := by
  unfold locate
  have hposition := Text.position?_isSome h
  cases hp : source.position? offset with
  | some p =>
    rw [hp] at hposition
    refine ⟨fun h => absurd h (hf p), ?_⟩
    rintro ⟨rfl, hb⟩
    rw [hb] at hposition
    cases hposition
  | none =>
    rw [hp] at hposition
    constructor
    · intro h
      cases h
      exact ⟨rfl, hposition.symm⟩
    · rintro ⟨rfl, -⟩
      rfl

theorem lineEnd_eq_offBoundary : lineEnd source offset = .error (.offBoundary n) ↔
    offset = n ∧ source.isBoundary n = false := by
  unfold lineEnd
  cases hdrop : source.drop? offset with
  | none =>
    constructor
    · intro h
      cases h
      exact ⟨rfl, by rw [Text.isBoundary, hdrop]; rfl⟩
    · rintro ⟨rfl, -⟩
      rfl
  | some rest =>
    refine ⟨fun h => ?_, ?_⟩
    · dsimp only at h
      split at h <;> cases h
    · rintro ⟨rfl, h⟩
      rw [Text.isBoundary, hdrop] at h
      cases h

theorem importAnchor_eq_offBoundary {imports : List Import} :
    importAnchor source imports = .error (.offBoundary n) ↔
      imports.getLast?.map (·.span.stop) = some n ∧ source.isBoundary n = false := by
  unfold importAnchor
  cases imports.getLast? with
  | none =>
    refine ⟨nofun, ?_⟩
    rintro ⟨⟨⟩, -⟩
  | some last =>
    dsimp only
    rw [map_eq_error, lineEnd_eq_offBoundary, Option.map_some, Option.some_inj]

theorem readEntries_eq_offBoundary {elements : List Element} {e : FieldError}
    (h : entriesOf elements = .error e) (hle : e.offset ≤ source.size) :
    readEntries source elements = .error (.offBoundary n) ↔
      e.offset = n ∧ source.isBoundary n = false := by
  unfold readEntries
  rw [h]
  exact locate_bind_eq_offBoundary nofun hle

theorem tableOf_eq_offBoundary {parts : List Part} {array : RouteArray}
    (harray : Part.firstArray? parts = some array)
    (hle : ∀ e, entriesOf array.elements = .error e → e.offset ≤ source.size) :
    tableOf source parts = .error (.offBoundary n) ↔
      (match entriesOf array.elements with
        | .error e => some e.offset
        | .ok _ => (Part.allImports parts).getLast?.map (·.span.stop)) = some n ∧
      source.isBoundary n = false := by
  unfold tableOf
  rw [harray]
  cases hentries : entriesOf array.elements with
  | error e =>
    dsimp only
    rw [Option.some_inj, ← readEntries_eq_offBoundary hentries (hle e hentries), bind_eq_error]
    constructor
    · rintro (h | ⟨entries, h, -⟩)
      · exact h
      · cases hentries.symm.trans (readEntries_eq_ok.1 h)
    · exact .inl
  | ok entries =>
    have hread : readEntries source array.elements = .ok entries := readEntries_eq_ok.2 hentries
    dsimp only
    rw [← importAnchor_eq_offBoundary]
    constructor
    · intro h
      rcases bind_eq_error.1 h with h | ⟨_, -, h⟩
      · cases hread.symm.trans h
      rcases bind_eq_error.1 h with h | ⟨_, -, h⟩
      · exact h
      · cases h
    · intro h
      exact bind_eq_error.2 (.inr ⟨entries, hread, bind_eq_error.2 (.inl h)⟩)

/-- Reading stops inside a character exactly where it cuts there. -/
theorem parseTable_eq_offBoundary
    (hle : ∀ offset, cut? dialect source = some offset → offset ≤ source.size) :
    parseTable dialect source = .error (.offBoundary n) ↔
      cut? dialect source = some n ∧ source.isBoundary n = false := by
  unfold cut? at hle ⊢
  unfold parseTable readModule
  cases hparse : parseModule dialect.hasMarkup (withoutMark source) with
  | error offset =>
    rw [hparse] at hle
    have hlocate : (locate source offset).bind (fun p => .error (.badSyntax p)) =
        (.error (.offBoundary n) : Except TableError (List Part)) ↔
          offset = n ∧ source.isBoundary n = false :=
      locate_bind_eq_offBoundary nofun (hle offset rfl)
    dsimp only
    rw [Option.some_inj, ← hlocate]
    constructor
    · intro h
      rcases bind_eq_error.1 h with h | ⟨parts, h, -⟩
      · exact h
      · obtain ⟨_, -, ⟨⟩⟩ := bind_eq_ok.1 h
    · intro h
      exact bind_eq_error.2 (.inl h)
  | ok parts =>
    rw [hparse] at hle
    dsimp only at hle ⊢
    cases harray : Part.firstArray? parts with
    | none =>
      refine ⟨fun h => ?_, nofun⟩
      change tableOf source parts = _ at h
      unfold tableOf at h
      rw [harray] at h
      cases h
    | some array =>
      rw [harray] at hle
      refine tableOf_eq_offBoundary harray fun e he => hle e.offset ?_
      dsimp only [Option.bind_some]
      rw [he]

/-! ## The byte order mark -/

theorem withoutMark_of_unmarked (h : isMarked source = false) : withoutMark source = source := by
  cases source with
  | nil => rfl
  | cons c rest =>
    have hc : c.toNat ≠ 0xFEFF := by simpa [isMarked] using h
    rw [withoutMark, if_neg hc]

theorem exists_mark (h : isMarked source = true) :
    ∃ c : Char, c.utf8Size = 3 ∧ source = c :: withoutMark source := by
  cases source with
  | nil => cases h
  | cons c rest =>
    have hc : c.toNat = 0xFEFF := by simpa [isMarked] using h
    obtain rfl : c = '\uFEFF' := Char.ext (UInt32.toNat_inj.1 hc)
    exact ⟨_, rfl, rfl⟩

/-- Behind a byte order mark there is a boundary three bytes behind each one of the text. -/
theorem isBoundary_marked (h : isMarked source = true) : source.isBoundary n = true ↔
    n = 0 ∨ 3 ≤ n ∧ (withoutMark source).isBoundary (n - 3) = true := by
  obtain ⟨c, hc, hsource⟩ := exists_mark h
  generalize withoutMark source = text at hsource ⊢
  rw [hsource, Text.isBoundary_iff, Text.isBoundary_iff]
  constructor
  · rintro ⟨before, after, hsplit, rfl⟩
    cases before with
    | nil => exact .inl rfl
    | cons d before =>
      cases hsplit
      refine .inr ⟨?_, before, after, rfl, ?_⟩
      · rw [Text.size_cons, hc]
        exact Nat.le_add_right _ _
      · rw [Text.size_cons, hc, Nat.add_sub_cancel_left]
  · rintro (rfl | ⟨hn, before, after, hsplit, hsize⟩)
    · exact ⟨[], _, rfl, rfl⟩
    · refine ⟨c :: before, after, by rw [hsplit, List.cons_append], ?_⟩
      rw [Text.size_cons, hc, hsize, Nat.add_sub_cancel' hn]

/-- A source is cut at an offset that its text is read at. -/
theorem cut?_mem (h : cut? dialect source = some n) :
    n ∈ readOffsets dialect.hasMarkup (withoutMark source) := by
  unfold cut? at h
  unfold readOffsets
  cases hparse : parseModule dialect.hasMarkup (withoutMark source) with
  | error offset =>
    rw [hparse] at h
    cases h
    exact List.mem_singleton_self _
  | ok parts =>
    rw [hparse] at h
    obtain ⟨array, harray, h⟩ := Option.bind_eq_some_iff.1 h
    dsimp only
    rw [harray, List.mem_append]
    split at h
    · rename_i e he
      cases h
      exact .inl (entries_error.2.2 _ e he)
    · obtain ⟨last, hlast, rfl⟩ := Option.map_eq_some_iff.1 h
      exact .inr (List.mem_map_of_mem (List.mem_of_getLast? hlast))

theorem size_withoutMark_le (source : Text) : (withoutMark source).size ≤ source.size := by
  unfold withoutMark
  split
  · split
    · exact Nat.le_add_left _ _
    · exact Nat.le_refl _
  · exact Nat.le_refl _

/-- Where the text without its byte order mark is read between its characters, the source is not cut
behind its end. Reading stops inside a character only where there is a mark, and there exactly if
the offset that is cut at lies in the mark, or three bytes behind the inside of a character of the
text. -/
theorem parseTable_offBoundary_iff
    (h : ReadsAtBoundaries dialect.hasMarkup (withoutMark source)) :
    (∀ n, cut? dialect source = some n → n ≤ source.size) ∧
    ∀ n, parseTable dialect source = .error (.offBoundary n) ↔
      isMarked source = true ∧ cut? dialect source = some n ∧ 0 < n ∧
        (3 ≤ n → (withoutMark source).isBoundary (n - 3) = false) := by
  have hcut : ∀ n, cut? dialect source = some n → (withoutMark source).isBoundary n = true :=
    fun n hn => h n (cut?_mem hn)
  have hle : ∀ n, cut? dialect source = some n → n ≤ source.size := fun n hn =>
    Nat.le_trans (Text.le_size_of_isBoundary (hcut n hn)) (size_withoutMark_le source)
  refine ⟨hle, fun n => ?_⟩
  rw [parseTable_eq_offBoundary hle]
  cases hmark : isMarked source with
  | false =>
    refine ⟨fun ⟨hn, hb⟩ => ?_, nofun⟩
    have hin := hcut n hn
    rw [withoutMark_of_unmarked hmark, hb] at hin
    cases hin
  | true =>
    rw [← Bool.not_eq_true, isBoundary_marked hmark]
    simp only [true_and, not_or, not_and, Bool.not_eq_true, Nat.pos_iff_ne_zero]

theorem parseTable_offBoundary_iff_marked :
    let source : Text := "\ufeffimport a from 'a'\nconst r: R[]=[\x7bname: '表'\x7d]"
    (ReadsAtBoundaries (Dialect.hasMarkup .ts) (withoutMark source) ∧ isMarked source = true) ∧
      cut? .ts source = some 17 ∧ ∀ n, parseTable .ts source ≠ .error (.offBoundary n) := by
  intro source
  have hreads : ReadsAtBoundaries (Dialect.hasMarkup .ts) (withoutMark source) := by
    decide +kernel
  have hcut : cut? .ts source = some 17 := by decide +kernel
  refine ⟨⟨hreads, by decide +kernel⟩, hcut, fun n h => ?_⟩
  obtain ⟨-, hn, -, hinside⟩ := ((parseTable_offBoundary_iff hreads).2 n).1 h
  cases hcut.symm.trans hn
  have hboundary : (withoutMark source).isBoundary (17 - 3) = true := by decide +kernel
  exact Bool.false_ne_true ((hinside (by decide)).symm.trans hboundary)

/-- A file that cannot be read because it begins with a byte order mark: the end of its import,
counted without the mark, lies inside a character three bytes before that end. -/
theorem parseTable_panics_behind_mark :
    let source : Text := "\ufeffimport a from '表'\nconst r: R[]=[]"
    ReadsAtBoundaries (Dialect.hasMarkup .ts) (withoutMark source) ∧
      parseTable .ts source = .error (.offBoundary 19) := by
  intro source
  have hcut : cut? .ts source = some 19 := by decide +kernel
  have hle : ∀ offset, cut? .ts source = some offset → offset ≤ source.size := by
    intro offset h
    cases hcut.symm.trans h
    decide +kernel
  exact ⟨by decide +kernel, (parseTable_eq_offBoundary hle).2 ⟨hcut, by decide +kernel⟩⟩

end RoutePages
