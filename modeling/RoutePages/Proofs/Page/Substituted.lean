import RoutePages.Page.Template
import RoutePages.Proofs.Text.Replaced

/-!
# Templates that are filled in

A template is read once, from left to right, into its characters and its two marks. Filling it in
puts the title and the name of the component where the marks are. `Templates.render` looks for the
second mark only when the title stands in the text already, so that it also replaces marks that
come from the title, or that the title completes.
-/
namespace RoutePages.Templates

def titleMark : Text := "HEADERTITLE"

def componentMark : Text := "COMPONENT"

/-- A part of a template. -/
inductive Piece where
  | char (c : Char)
  | title
  | component
  deriving DecidableEq

/-- The text of a part, where the marks are filled in. -/
def Piece.filled (title component : Text) : Piece → Text
  | char c => [c]
  | .title => title
  | .component => component

/-- The parts of a template; `skip` characters of a mark are still to be passed over. -/
def piecesFrom : (skip : Nat) → Text → List Piece
  | _, [] => []
  | skip + 1, _ :: s => piecesFrom skip s
  | 0, c :: s =>
    if titleMark.isPrefixOf (c :: s) then .title :: piecesFrom (titleMark.length - 1) s
    else if componentMark.isPrefixOf (c :: s) then
      .component :: piecesFrom (componentMark.length - 1) s
    else .char c :: piecesFrom 0 s

/-- The parts of a template. -/
def pieces (template : Text) : List Piece := piecesFrom 0 template

/-- The template with title and component where its marks are. -/
def fill (template title component : Text) : Text :=
  (pieces template).flatMap (Piece.filled title component)

variable {c : Char} {s title component : Text}

theorem piecesFrom_append (v s : Text) : piecesFrom v.length (v ++ s) = piecesFrom 0 s := by
  induction v with
  | nil => rfl
  | cons c v ih => exact ih

theorem titleMark_eq : titleMark = 'H' :: "EADERTITLE".toList := by
  decide

theorem componentMark_eq : componentMark = 'C' :: "OMPONENT".toList := by
  decide

theorem pieces_title (s : Text) : pieces (titleMark ++ s) = .title :: pieces s := by
  have hmark : titleMark.isPrefixOf ('H' :: ("EADERTITLE".toList ++ s)) = true :=
    Text.isPrefixOf_iff.2 ⟨s, by rw [titleMark_eq, List.cons_append]⟩
  have hlength : titleMark.length - 1 = "EADERTITLE".toList.length := by decide
  rw [titleMark_eq, List.cons_append, pieces, piecesFrom, if_pos hmark, hlength,
    piecesFrom_append, pieces]

theorem pieces_component (s : Text) : pieces (componentMark ++ s) = .component :: pieces s := by
  have hother : titleMark.isPrefixOf ('C' :: ("OMPONENT".toList ++ s)) = false := by
    rw [titleMark_eq]
    exact Text.isPrefixOf_of_ne (by decide)
  have hmark : componentMark.isPrefixOf ('C' :: ("OMPONENT".toList ++ s)) = true :=
    Text.isPrefixOf_iff.2 ⟨s, by rw [componentMark_eq, List.cons_append]⟩
  have hlength : componentMark.length - 1 = "OMPONENT".toList.length := by decide
  rw [componentMark_eq, List.cons_append, pieces, piecesFrom, hother, if_neg Bool.false_ne_true,
    if_pos hmark, hlength, piecesFrom_append, pieces]

theorem pieces_char (htitle : titleMark.isPrefixOf (c :: s) = false)
    (hcomponent : componentMark.isPrefixOf (c :: s) = false) :
    pieces (c :: s) = .char c :: pieces s := by
  rw [pieces, piecesFrom, htitle, hcomponent]
  rfl

@[simp] theorem fill_title (s : Text) :
    fill (titleMark ++ s) title component = title ++ fill s title component := by
  rw [fill, pieces_title]
  rfl

@[simp] theorem fill_component (s : Text) :
    fill (componentMark ++ s) title component = component ++ fill s title component := by
  rw [fill, pieces_component]
  rfl

theorem fill_char (htitle : titleMark.isPrefixOf (c :: s) = false)
    (hcomponent : componentMark.isPrefixOf (c :: s) = false) :
    fill (c :: s) title component = c :: fill s title component := by
  rw [fill, pieces_char htitle hcomponent]
  rfl

/-- A template is empty, or begins with a mark or with a character where no mark stands. -/
theorem template_induction {motive : Text → Prop} (nil : motive [])
    (title : ∀ s, motive s → motive (titleMark ++ s))
    (component : ∀ s, motive s → motive (componentMark ++ s))
    (char : ∀ c s, titleMark.isPrefixOf (c :: s) = false →
      componentMark.isPrefixOf (c :: s) = false → motive s → motive (c :: s))
    (template : Text) : motive template := by
  induction hlen : template.length using Nat.strongRecOn generalizing template with
  | ind n ih =>
    subst hlen
    have behind (mark s : Text) (h : template = mark ++ s) (hmark : 0 < mark.length) : motive s :=
      ih _ (by rw [h, List.length_append]; omega) s rfl
    cases htitle : titleMark.isPrefixOf template with
    | true =>
      obtain ⟨s, rfl⟩ := Text.isPrefixOf_iff.1 htitle
      exact title s (behind titleMark s rfl (by decide))
    | false =>
      cases hcomponent : componentMark.isPrefixOf template with
      | true =>
        obtain ⟨s, rfl⟩ := Text.isPrefixOf_iff.1 hcomponent
        exact component s (behind componentMark s rfl (by decide))
      | false =>
        cases template with
        | nil => exact nil
        | cons c s => exact char c s htitle hcomponent (behind [c] s rfl Nat.one_pos)

/-- Reading a template loses nothing: its parts, with the marks as they are, make it up again. -/
theorem fill_marks (template : Text) : fill template titleMark componentMark = template := by
  induction template using template_induction with
  | nil => rfl
  | title s ih => rw [fill_title, ih]
  | component s ih => rw [fill_component, ih]
  | char c s htitle hcomponent ih => rw [fill_char htitle hcomponent, ih]

/-- The first of the two replacements fills in the title, and keeps the other mark. -/
theorem replace_titleMark (template title : Text) :
    template.replace titleMark title = fill template title componentMark := by
  induction template using template_induction with
  | nil => rfl
  | title s ih => rw [fill_title, ← ih, titleMark_eq, Text.replace_old]
  | component s ih =>
    rw [fill_component, ← ih, titleMark_eq, Text.replace_append (by decide)]
  | char c s htitle hcomponent ih =>
    rw [fill_char htitle hcomponent, ← ih, Text.replace_cons htitle]

/-- Filling in the component replaces as many marks as the template has, and nothing else. -/
theorem fill_partlyReplaced (template title component : Text) :
    Text.PartlyReplaced componentMark component (Text.occurrences componentMark template)
      (fill template title componentMark) (fill template title component) := by
  induction template using template_induction with
  | nil => exact .nil
  | title s ih =>
    have hkept : Text.occurrences componentMark (titleMark ++ s)
        = Text.occurrences componentMark s := Text.occurrences_append (by decide)
    rw [hkept, fill_title, fill_title]
    exact ih.append title
  | component s ih =>
    have hone : Text.occurrences componentMark (componentMark ++ s)
        = Text.occurrences componentMark s + 1 := Text.occurrences_old (by decide)
    rw [hone, fill_component, fill_component]
    exact ih.replaced
  | char c s htitle hcomponent ih =>
    rw [Text.occurrences_cons hcomponent, fill_char htitle hcomponent, fill_char htitle hcomponent]
    exact ih.kept

/-- What has no character of the title in it and stands at the start of the filled template stands
at the start of the template itself. -/
theorem prefix_of_filled (htitle : title ≠ []) {v : Text} (hv : ∀ c ∈ v, c ∉ title ∧ c ≠ 'C')
    (template : Text) (h : v <+: fill template title componentMark) : v <+: template := by
  induction template using template_induction generalizing v with
  | nil => exact h
  | title s ih =>
    obtain ⟨d, title, rfl⟩ := List.exists_cons_of_ne_nil htitle
    cases v with
    | nil => exact List.nil_prefix
    | cons c v =>
      rw [fill_title, List.cons_append, List.cons_prefix_cons] at h
      exact absurd (h.1 ▸ List.mem_cons_self) (hv c List.mem_cons_self).1
  | component s ih =>
    cases v with
    | nil => exact List.nil_prefix
    | cons c v =>
      rw [fill_component, componentMark_eq, List.cons_append, List.cons_prefix_cons] at h
      exact absurd h.1 (hv c List.mem_cons_self).2
  | char d s hd hcomponent ih =>
    cases v with
    | nil => exact List.nil_prefix
    | cons c v =>
      rw [fill_char hd hcomponent, List.cons_prefix_cons] at h
      exact List.cons_prefix_cons.2 ⟨h.1, ih (fun c hc => hv c (List.mem_cons_of_mem _ hc)) h.2⟩

/-- A title without a character of the mark neither holds the mark nor completes it. -/
theorem occurrences_filled (htitle : title ≠ []) (hfree : ∀ c ∈ componentMark, c ∉ title)
    (template : Text) :
    Text.occurrences componentMark (fill template title componentMark)
      = Text.occurrences componentMark template := by
  have hC : 'C' ∉ title := hfree 'C' (by decide)
  induction template using template_induction with
  | nil => rfl
  | title s ih =>
    rw [fill_title, componentMark_eq, Text.occurrences_append hC, ← componentMark_eq, ih,
      componentMark_eq, Text.occurrences_append (by decide)]
  | component s ih =>
    rw [fill_component, componentMark_eq, Text.occurrences_old (by decide), ← componentMark_eq, ih,
      componentMark_eq, Text.occurrences_old (by decide)]
  | char c s hc hcomponent ih =>
    have hnone : componentMark.isPrefixOf (c :: fill s title componentMark) = false := by
      rw [← Bool.not_eq_true, List.isPrefixOf_iff_prefix, componentMark_eq,
        List.cons_prefix_cons]
      rintro ⟨rfl, h⟩
      have hrest : ∀ c ∈ "OMPONENT".toList, c ∉ title ∧ c ≠ 'C' := fun c hc =>
        ⟨hfree c (List.mem_cons_of_mem _ hc), fun h => absurd (h ▸ hc) (by decide)⟩
      rw [componentMark_eq, List.isPrefixOf_cons_cons_self,
        List.isPrefixOf_iff_prefix.2 (prefix_of_filled htitle hrest s h)] at hcomponent
      cases hcomponent
    rw [fill_char hc hcomponent, Text.occurrences_cons hnone, Text.occurrences_cons hcomponent, ih]

/-- The title and the component are filled in once, and what is filled in is left alone, exactly
if the component is named like its mark, or if the template with its title has no more marks of the
component than the template has itself. So it is for every title that is not empty and has no
character in common with the mark. -/
theorem render_eq_fill_iff (template title component : Text) :
    (render template title component = fill template title component ↔
      component = componentMark ∨
        Text.occurrences componentMark (template.replace titleMark title)
          = Text.occurrences componentMark template) ∧
    (title ≠ [] → (∀ c ∈ componentMark, c ∉ title) →
      render template title component = fill template title component) := by
  have hiff : render template title component = fill template title component ↔
      component = componentMark ∨
        Text.occurrences componentMark (template.replace titleMark title)
          = Text.occurrences componentMark template := by
    have hreplaced := fill_partlyReplaced template title component
    rw [← replace_titleMark] at hreplaced
    rw [eq_comm (a := Text.occurrences componentMark _)]
    exact hreplaced.replace_eq_iff (by decide)
  refine ⟨hiff, fun htitle hfree => hiff.2 (.inr ?_)⟩
  rw [replace_titleMark, occurrences_filled htitle hfree]

/-- A mark in the title is replaced by the component, and so is a mark that the title completes. -/
theorem render_fills_title :
    render "// HEADERTITLE" "COMPONENT list" "A" = "// A list".toList ∧
    fill "// HEADERTITLE" "COMPONENT list" "A" = "// COMPONENT list".toList ∧
    render "COMPOHEADERTITLE" "NENT" "A" = "A".toList ∧
    fill "COMPOHEADERTITLE" "NENT" "A" = "COMPONENT".toList := by
  decide

end RoutePages.Templates
