import RoutePages.Proofs.Edit.Covered
import RoutePages.Proofs.Edit.Declared
import RoutePages.Proofs.Route.Enclosed

/-!
# Files that stay readable

Where the ranges that a rewrite removes are whole pieces of the route array, and the comma of each
directive goes with it, the rewritten text is read again as the settled table.
-/
namespace RoutePages

open Script

/-! ## Reading a text with a route array -/

theorem importAnchor_isOk {source : Text} {imports : List Import}
    (h : ∀ i ∈ imports, source.isBoundary i.span.stop = true) :
    ∃ anchor, importAnchor source imports = .ok anchor := by
  unfold importAnchor
  cases hlast : imports.getLast? with
  | none => exact ⟨none, rfl⟩
  | some last =>
    have hstop := h last (List.mem_of_getLast? hlast)
    obtain ⟨rest, hrest⟩ := Option.isSome_iff_exists.1 hstop
    dsimp only
    unfold lineEnd
    rw [hrest]
    dsimp only
    split
    · exact ⟨_, rfl⟩
    · exact ⟨_, rfl⟩

section Reads

variable {dialect : Dialect} {name above before after : Text} {pieces : List (Piece Element)}
  {all : List (List Part)}
  (h : ReadsArray dialect.hasMarkup name above before after pieces all)
  (hmark : isMarked (above ++ (before ++ (Piece.bracketed '[' ']' pieces ++ after))) = false)
include h hmark

theorem parseModule_of_readsArray : parseModule dialect.hasMarkup
    (withoutMark (above ++ (before ++ (Piece.bracketed '[' ']' pieces ++ after)))) =
      .ok all.flatten := by
  rw [withoutMark_of_unmarked hmark]
  exact map_eq_ok.2 ⟨all, h.items, rfl⟩

theorem routeArrayOf?_of_readsArray :
    routeArrayOf? dialect (above ++ (before ++ (Piece.bracketed '[' ']' pieces ++ after))) = some
      ⟨name, Piece.values (Text.size above + Text.size before + 1) pieces,
        ⟨Text.size above + Text.size before,
          Text.size above + Text.size before + Text.size (Piece.bracketed '[' ']' pieces)⟩⟩ := by
  unfold routeArrayOf?
  rw [parseModule_of_readsArray h hmark]
  exact h.array

/-- A text whose array can be read is read, where no import is declared in the array. -/
theorem parseTable_of_readsArray {entries : List Entry}
    (hentries : entriesOf (Piece.values (Text.size above + Text.size before + 1) pieces) =
      .ok entries)
    (himports : Element.allImports
      (Piece.values (Text.size above + Text.size before + 1) pieces) = []) :
    ∃ t, parseTable dialect
      (above ++ (before ++ (Piece.bracketed '[' ']' pieces ++ after))) = .ok t := by
  have hstops : ∀ i ∈ Part.allImports all.flatten, Text.isBoundary
      (above ++ (before ++ (Piece.bracketed '[' ']' pieces ++ after))) i.span.stop = true := by
    intro i hi
    rcases h.imports i hi with habove | hinside
    · exact Text.isBoundary_append habove _
    · rw [himports] at hinside
      cases hinside
  obtain ⟨anchor, hanchor⟩ := importAnchor_isOk hstops
  have htable : ∃ t, tableOf
      (above ++ (before ++ (Piece.bracketed '[' ']' pieces ++ after))) all.flatten = .ok t := by
    unfold tableOf
    rw [h.array]
    exact ⟨_, bind_eq_ok.2
      ⟨entries, readEntries_eq_ok.2 hentries, bind_eq_ok.2 ⟨anchor, hanchor, rfl⟩⟩⟩
  obtain ⟨t, ht⟩ := htable
  exact ⟨t, bind_eq_ok.2 ⟨_, readModule_eq_ok.2 (parseModule_of_readsArray h hmark), ht⟩⟩

end Reads

/-! ## The text that is left -/

/-- The text above the array ends where imports are added. -/
inductive IsTop (markup : Bool) (t : RouteTable) : (above before : Text) → Prop
  | behindLast {above before : Text} (hprologue : IsPrologue markup above)
      (hbreak : BeginsWithBreak before) (hanchor : t.importAnchor = some (Text.size above)) :
      IsTop markup t above before
  | atTop {before : Text} (hnone : t.imports = []) (hhead : before.head? ≠ some '#') :
      IsTop markup t [] before

theorem IsTop.opensOn {markup : Bool} {t : RouteTable} {above before : Text}
    (h : IsTop markup t above before) : OpensOn markup above before := by
  cases h with
  | behindLast hprologue hbreak _ => exact .behind hprologue hbreak
  | atTop _ hhead => exact .atTop hhead

/-- The text of a route file is laid out: above the array and below it stands what frames any array,
and the directives go as whole pieces of the array, with their commas. -/
structure IsLaidOut (markup : Bool) (source : Text) (t : RouteTable) (plans : List PagePlan)
    (above before after : Text) (entries : Layout.Entries) : Prop where
  split : source = above ++ (before ++ (Piece.bracketed '[' ']' entries.pieces ++ after))
  top : IsTop markup t above before
  frame : IsFrame markup t.binding before after
  /-- each piece is read as it says -/
  read : entries.IsRead markup
  /-- commas stand between the pieces -/
  listed : Piece.isList true entries.pieces = true ∧ entries.isListed = true
  /-- the pieces that are removed hold the directives, and those that are replaced the pages -/
  settles : entries.Settles (.ofPlans plans) (Text.size above + Text.size before + 1)
  /-- each run of directives goes with what stands around it on its line, or with one comma -/
  extents : entries.AreExtents (above ++ before ++ ['[']) (']' :: after)
  /-- no two runs are one -/
  apart : entries.isApart = true
  /-- the comma of each directive goes with it, unless it is the last of its entry -/
  even : entries.isEven = true
  /-- no import is declared in the array -/
  imports : ∀ pos, Element.allImports (Piece.values pos entries.settle.pieces) = []

/-- Around the array that is left the text is kept, but for what is inserted above. -/
theorem Edit.Replaced.array {source above before after added : Text} {entries : Layout.Entries}
    {inserted : List Edit}
    (hsplit : source = above ++ (before ++ (Piece.bracketed '[' ']' entries.pieces ++ after)))
    (hinserted : Edit.Replaced (Text.size above) [] inserted added) :
    Edit.Replaced 0 source (inserted ++ entries.edits (Text.size above + Text.size before + 1))
      (above ++ (added ++ (before ++ (Piece.bracketed '[' ']' entries.settle.pieces ++ after)))) := by
  have harray : Edit.Replaced (Text.size above + Text.size before)
      (Piece.bracketed '[' ']' entries.pieces ++ after)
      (entries.edits (Text.size above + Text.size before + 1) ++ [])
      (Piece.bracketed '[' ']' entries.settle.pieces ++ after) :=
    (Layout.replaced_bracketed (.inl rfl) (Layout.Entries.replaced entries _)).append (.keep _ after)
  rw [List.append_nil] at harray
  have hbelow := hinserted.append (harray.prepend before)
  rw [List.nil_append] at hbelow
  have hplace : 0 + Text.size above = Text.size above := Nat.zero_add _
  rw [hsplit]
  exact Edit.Replaced.prepend above (hplace.symm ▸ hbelow)

section LaidOut

open Rewrite

variable {dialect : Dialect} {source pagesAlias above before after : Text} {t : RouteTable}
  {plans : List PagePlan} {entries : Layout.Entries} {r : Rewrite}

/-- One insertion adds the lines, or none. -/
theorem importEdits_replaced {lines : List Text}
    (hplace : t.importAnchor = none ∧ t.imports = [] ∧ above = [] ∨
      t.importAnchor = some (Text.size above) ∧ t.imports ≠ []) :
    Edit.Replaced (Text.size above) [] (importEdits source t.importAnchor lines)
        (addedBlock source t.imports lines) ∧
      ∀ a ∈ importEdits source t.importAnchor lines,
        ∀ b ∈ importEdits source t.importAnchor lines, a = b := by
  by_cases hlines : lines = []
  · subst hlines
    rw [addedBlock_nil]
    exact ⟨.keep _ [], nofun⟩
  · rw [inserts_block (importEdits_inserts source t.importAnchor lines) hlines hplace]
    have hblock := Edit.Replaced.whole (Text.size above) [] (addedBlock source t.imports lines)
    refine ⟨hblock, fun a ha b hb => ?_⟩
    rw [List.mem_singleton.1 ha, List.mem_singleton.1 hb]

theorem IsTop.place {markup : Bool} (h : IsTop markup t above before)
    (ht : parseTable dialect source = .ok t) :
    t.importAnchor = none ∧ t.imports = [] ∧ above = [] ∨
      t.importAnchor = some (Text.size above) ∧ t.imports ≠ [] := by
  obtain ⟨_, _, -, -, hanchor⟩ := parseTable_isPlace ht
  cases h with
  | behindLast _ _ hsome =>
    rcases hanchor with ⟨hnone, -⟩ | ⟨-, himports⟩
    · cases hnone.symm.trans hsome
    · exact .inr ⟨hsome, himports⟩
  | atTop hnone _ =>
    rcases hanchor with ⟨hanchor, -, -⟩ | ⟨-, himports⟩
    · exact .inl ⟨hanchor, hnone, rfl⟩
    · exact absurd hnone himports

/-- What the rewrite does to the array are the edits of its layout. -/
theorem IsLaidOut.edits (h : IsPlanned dialect source pagesAlias t plans)
    (hr : rewrite source t plans pagesAlias = .ok r)
    (hlaid : IsLaidOut dialect.hasMarkup source t plans above before after entries)
    (hread : entriesOf (Piece.values (Text.size above + Text.size before + 1) entries.pieces) =
      .ok t.entries) :
    (Rewrite.arrayEdits source t plans).Perm
      (entries.edits (Text.size above + Text.size before + 1)) := by
  have hsize : Text.size (above ++ before ++ ['[']) = Text.size above + Text.size before + 1 := by
    have hbracket : Text.size ['['] = 1 := by decide
    rw [Text.size_append, Text.size_append, hbracket]
  have hsource : source =
      above ++ before ++ ['['] ++ (Piece.allText entries.pieces ++ ']' :: after) := by
    rw [hlaid.split, Piece.bracketed]
    simp only [List.append_assoc, List.cons_append, List.nil_append]
  have hcut := Layout.Entries.edits_cut entries _ hlaid.read hlaid.settles
  have hsettles := hlaid.settles
  rw [← hsize] at hread hcut hsettles ⊢
  have hcovers := Layout.Entries.covers entries _ _ _ hsource hlaid.apart hlaid.extents hsettles
    hread
  have horder := (Layout.Entries.replaced entries (Text.size (above ++ before ++ ['[']))).inOrder.2
  exact Rewrite.arrayEdits_perm h hr hcovers hcut
    (Edit.nodup_of_apart hcut (horder.imp fun hle => .inl hle))

/-- A text that is laid out becomes the text that is left, with the lines that are added. -/
theorem IsLaidOut.text (h : IsPlanned dialect source pagesAlias t plans)
    (hr : rewrite source t plans pagesAlias = .ok r)
    (hlaid : IsLaidOut dialect.hasMarkup source t plans above before after entries)
    (hread : entriesOf (Piece.values (Text.size above + Text.size before + 1) entries.pieces) =
      .ok t.entries) :
    r.text = above ++ (addedBlock source t.imports r.importsAdded ++
      (before ++ (Piece.bracketed '[' ']' entries.settle.pieces ++ after))) := by
  obtain ⟨-, -, happly⟩ := rewrite_edits (directives_apart h.read h.plan) hr
  obtain ⟨sorted, hperm, hfits, hsorted, hreplaced⟩ := Edit.applyAll_replaced happly
  have hlines : r.importsAdded = missingImports t pagesAlias [] plans := by
    obtain ⟨_, _, -, -, hlines, -⟩ := rewrite_stages hr
    exact hlines
  obtain ⟨hinserted, hone⟩ :=
    @importEdits_replaced source above t r.importsAdded (hlaid.top.place h.read)
  have hleft := Edit.Replaced.array hlaid.split hinserted
  obtain ⟨hbehind, hinOrder⟩ := hleft.inOrder
  have hall : sorted.Perm (importEdits source t.importAnchor r.importsAdded ++
      entries.edits (Text.size above + Text.size before + 1)) := by
    rw [hlines]
    exact hperm.trans (List.perm_append_comm.trans ((hlaid.edits h hr hread).append_left _))
  -- two edits at one place are both insertions, and there is only one
  have hsame : ∀ a b, a ∈ sorted → b ∈ importEdits source t.importAnchor r.importsAdded ++
      entries.edits (Text.size above + Text.size before + 1) →
      a.span.stop ≤ b.span.start → b.span.stop ≤ a.span.start → a = b := by
    intro a b ha hb hab hba
    have ha := hall.mem_iff.1 ha
    have hale := (hbehind a ha).2
    have hble := (hbehind b hb).2
    have hcut := Layout.Entries.edits_cut entries _ hlaid.read hlaid.settles
    rcases List.mem_append.1 ha with ha | ha
    · rcases List.mem_append.1 hb with hb | hb
      · exact hone a ha b hb
      · have hlt := hcut b hb
        omega
    · have hlt := hcut a ha
      omega
  have heq := hall.eq_of_pairwise hsame hsorted hinOrder
  rw [heq] at hreplaced
  exact hreplaced.unique hleft

/-- Lines that import pages can stand below what stands above. -/
theorem Script.IsPrologue.lines {markup : Bool} {brk : Text} (habove : IsPrologue markup above)
    (hbrk : brk = "\n" ∨ brk = "\r\n") {added : List PagePlan}
    (hadded : ∀ p ∈ added, isName p.identifier = true ∧ IsImportable pagesAlias p) :
    IsPrologue markup (above ++ (added.map (importLine pagesAlias)).flatMap (brk ++ ·)) := by
  induction added generalizing above with
  | nil =>
    rw [List.map_nil, List.flatMap_nil, List.append_nil]
    exact habove
  | cons plan more ih =>
    obtain ⟨⟨hname, hline⟩, hmore⟩ := List.forall_mem_cons.1 hadded
    have hfirst := habove.default (isPlainWord_of_isName hname) hline.own hline.source hbrk
    have hall := ih hfirst hmore
    rw [List.append_assoc] at hall
    rw [List.map_cons, List.flatMap_cons]
    exact hall

/-- With the lines that are added the text above is read as before. -/
theorem IsTop.added {markup : Bool} {name : Text} {lines : List PagePlan}
    (h : IsTop markup t above before) (ht : parseTable dialect source = .ok t)
    (hframe : IsFrame markup name before after)
    (hlines : ∀ p ∈ lines, isName p.identifier = true ∧ IsImportable pagesAlias p) :
    ∃ above' before',
      above ++ (addedBlock source t.imports (lines.map (importLine pagesAlias)) ++ before) =
        above' ++ before' ∧ OpensOn markup above' before' ∧ IsFrame markup name before' after := by
  have hbrk := lineBreak_cases source
  unfold addedBlock
  rcases h.place ht with ⟨-, hnone, habove⟩ | ⟨-, hsome⟩
  · rw [if_pos (List.isEmpty_iff.2 hnone)]
    subst habove
    cases lines with
    | nil => exact ⟨[], before, rfl, h.opensOn, hframe⟩
    | cons plan more =>
      obtain ⟨⟨hname, hline⟩, hmore⟩ := List.forall_mem_cons.1 hlines
      have hfirst : IsPrologue markup (importLine pagesAlias plan) :=
        isPrologue_default (isPlainWord_of_isName hname) hline.own hline.source
      have hbreak : IsSpacing (lineBreak source) := by
        rcases hbrk with hbrk | hbrk
        · rw [hbrk]
          exact isSpacing_blanks (by decide)
        · rw [hbrk]
          exact isSpacing_blanks (by decide)
      refine ⟨_, lineBreak source ++ before, ?_, .behind (hfirst.lines hbrk hmore)
        (beginsWithBreak_of_lineBreak hbrk _), hframe.below hbreak⟩
      rw [List.map_cons, flatMap_behind]
      simp only [List.append_assoc, List.nil_append]
  · rw [if_neg (mt List.isEmpty_iff.1 hsome), ← List.append_assoc]
    cases h with
    | behindLast hprologue hbreak _ =>
      exact ⟨_, before, rfl, .behind (hprologue.lines hbrk hlines) hbreak, hframe⟩
    | atTop hnone _ => exact absurd hnone hsome

/-- The identifiers of plans are names, where they are names of the language. -/
theorem areNames_ofPlans (h : IsPlanned dialect source pagesAlias t plans)
    (halias : isPlainBetween '\'' pagesAlias = true)
    (hnames : ∀ plan ∈ plans, isName plan.identifier = true) :
    Layout.AreNames (.ofPlans plans) := by
  intro span identifier hfound
  obtain ⟨plan, hplan, rfl⟩ := Option.map_eq_some_iff.1 hfound
  have hmem := List.mem_of_find?_eq_some hplan
  obtain ⟨_, hof⟩ := exists_isPlanOf (planPages_eq_ok.1 h.plan).1 hmem
  exact ⟨isPlainWord_of_isName (hnames plan hmem), (hof.isImportable halias).own⟩

/-- Elements that are settled elements, spans aside, are read where those are. -/
theorem entriesOf_of_settled {names : PageNames} {elements left : List Element}
    {read : List Entry} (h : entriesOf elements = .ok read)
    (hleft : Element.allBare left = Element.allBare (Element.settleAll names elements)) :
    ∃ entries, entriesOf left = .ok entries := by
  have hsettled := entries_bare.2.2 _ _ ((entries_settle names).2.2 _ _ h)
  rw [← hleft] at hsettled
  exact entries_of_bare.2.2 _ ⟨_, hsettled⟩

/-- A text that starts with the characters of another, or with a line that is added, is unmarked. -/
theorem isMarked_added {rest more : Text} (lines : List PagePlan)
    (hmark : isMarked (above ++ (before ++ '[' :: rest)) = false) :
    isMarked (above ++ (addedBlock source t.imports (lines.map (importLine pagesAlias)) ++
      (before ++ '[' :: more))) = false := by
  cases above with
  | cons c above => exact hmark
  | nil =>
    cases lines with
    | nil =>
      rw [List.map_nil, addedBlock_nil]
      cases before with
      | nil => rfl
      | cons c before => exact hmark
    | cons plan lines =>
      unfold addedBlock
      split
      · rw [List.map_cons, importLine_eq]
        rfl
      · rw [List.map_cons]
        rcases lineBreak_cases source with hbrk | hbrk
        · rw [hbrk]
          rfl
        · rw [hbrk]
          rfl

/-- Rewriting keeps the route table of a file that is laid out: the rewritten text is read again in
its dialect as the settled table, and planning and rewriting it once more does nothing. -/
theorem rewrite_settles (h : IsPlanned dialect source pagesAlias t plans)
    (hr : rewrite source t plans pagesAlias = .ok r) (hmark : isMarked source = false)
    (halias : isPlainBetween '\'' pagesAlias = true)
    (hnames : ∀ plan ∈ plans, isName plan.identifier = true)
    (hlaid : IsLaidOut dialect.hasMarkup source t plans above before after entries) :
    ∃ t', parseTable dialect r.text = .ok t' ∧ IsSettled t t' plans ∧
      planPages t' (.ofTable t' pagesAlias) pagesAlias = .ok [] ∧
      rewrite r.text t' [] pagesAlias = .ok ⟨r.text, [], false⟩ := by
  have hown := areNames_ofPlans h halias hnames
  -- the source is read with its own pieces, and with those that are left what is left of it
  have hpieces := Layout.Entries.pieces_isRead entries hlaid.read hlaid.listed.2
  obtain ⟨all, hall⟩ := hlaid.top.opensOn.readsArray hlaid.frame hpieces hlaid.listed.1
  have hlist : Piece.isList true entries.settle.pieces = true := by
    rw [Layout.Entries.isList_settle]
    exact hlaid.listed.1
  have hleft := Layout.Entries.pieces_isRead entries.settle
    (Layout.Entries.isRead_settle hown entries _ hlaid.read hlaid.settles)
    (Layout.Entries.isListed_settle entries hlaid.listed.2 hlaid.even)
  have hlines : ∀ p ∈ unimported t [] plans,
      isName p.identifier = true ∧ IsImportable pagesAlias p := fun p hp =>
    ⟨hnames p ((unimported_sublist [] plans).subset hp), isImportable_unimported h halias p hp⟩
  obtain ⟨above', before', hsplit, hopens, hframe⟩ := hlaid.top.added h.read hlaid.frame hlines
  obtain ⟨all', hall'⟩ := hopens.readsArray hframe hleft hlist
  rw [hlaid.split] at hmark
  have harray := routeArrayOf?_of_readsArray hall hmark
  rw [← hlaid.split] at harray
  obtain ⟨hbinding, hentries⟩ := parseTable_array h.read harray
  have htext := hlaid.text h hr hentries
  rw [rewrite_importsAdded hr] at htext
  have hmark' : isMarked r.text = false := by
    rw [htext]
    exact isMarked_added _ hmark
  have htext' : r.text =
      above' ++ (before' ++ (Piece.bracketed '[' ']' entries.settle.pieces ++ after)) := by
    rw [htext, ← List.append_assoc above', ← hsplit]
    simp only [List.append_assoc]
  rw [htext'] at hmark'
  have harray' := routeArrayOf?_of_readsArray hall' hmark'
  have hsame := Layout.Entries.values_settle entries _
    (Text.size above' + Text.size before' + 1) hlaid.settles
  obtain ⟨entries', hentries'⟩ := entriesOf_of_settled hentries hsame
  obtain ⟨t', ht'⟩ := parseTable_of_readsArray hall' hmark' hentries' (hlaid.imports _)
  rw [← htext'] at ht' harray'
  exact ⟨t', ht', parseTable_settled h harray harray' rfl hsame ht'⟩

end LaidOut

/-- Directives behind, between and before other properties, two of them together and one on a line
of its own, below an import and with a comment between the entries. -/
theorem rewrite_settles_lines :
    let above : Text := "import " ++ "Kept" ++ " from '" ++ "@/pages/kept" ++ "'"
    let before : Text := "\n\n" ++ ("export " ++ constantHead "routes" "Route")
    let home : Layout.Fields := .space " " <| .text "name" "home" <| .comma <| .space " " <|
      .path "/home" "Home" <| .cut [.comma, .space " "]
        [Layout.flag .table true, .comma, .space " ", Layout.flag .cover true] [] <| .space " " .done
    let below : Layout.Fields := .space " " <|
      .cut [] [Layout.flag .service true] [.comma, .space " "] <|
      .text "name" "b" <| .comma <| .space " " <| .path "/b" "KeptB" <| .space " " .done
    let kept : Layout.Fields := .space "\n    " <| .text "name" "k" <| .comma <| .space "\n    " <|
      .bound "Kept" <| .comma <| .space "\n" <|
      .cut [.space "    "] [Layout.flag .cover false] [.comma, .space "\n"] <| .space "    " <|
      .children (fieldHead "children") (wordKey "children") (.entry below .done) <|
      .comma <| .space "\n  " .done
    let entries : Layout.Entries := .space "\n  " <| .entry home <| .comma <| .space "\n  " <|
      .space ("//" ++ " below" ++ "\n") <| .space "  " <| .entry kept <| .comma <| .space "\n" .done
    let source : Text := above ++ (before ++ (Piece.bracketed '[' ']' entries.pieces ++ "\n"))
    let r : Rewrite := ⟨"import Kept from '@/pages/kept'\nimport Home from '@/pages/home'\n" ++
      "import KeptB from '@/pages/kept/b'\n\nexport const routes: Route[] = [\n" ++
      "  \x7b name: 'home', component: Home \x7d,\n  // below\n  \x7b\n    name: 'k',\n" ++
      "    component: Kept,\n    children: [\x7b name: 'b', component: KeptB \x7d],\n  \x7d,\n]\n",
      ["import Home from '@/pages/home'", "import KeptB from '@/pages/kept/b'"], true⟩
    ∃ t plans t', IsPlanned .ts source "@/pages" t plans ∧
      rewrite source t plans "@/pages" = .ok r ∧ isMarked source = false ∧
      isPlainBetween '\'' "@/pages" = true ∧ (∀ plan ∈ plans, isName plan.identifier = true) ∧
      IsLaidOut Dialect.ts.hasMarkup source t plans above before "\n" entries ∧
      parseTable .ts r.text = .ok t' ∧ IsSettled t t' plans := by
  intro above before home below kept entries source r
  have hcheck : Rewrite.holdsOfPlanned .ts source "@/pages" (fun t plans => decide
      (rewrite source t plans "@/pages" = .ok r ∧ t.importAnchor = some 31 ∧
        t.binding = "routes" ∧ PageNames.ofPlans plans ⟨95, 102⟩ = some ("Home" : Text) ∧
        PageNames.ofPlans plans ⟨255, 259⟩ = some ("KeptB" : Text) ∧
        ∀ plan ∈ plans, isName plan.identifier = true)) = true := by
    decide +kernel
  obtain ⟨t, plans, hplanned, hfound⟩ := Rewrite.exists_of_holdsOfPlanned hcheck
  obtain ⟨hr, hanchor, hbinding, hhome, hbelow, hnames⟩ := of_decide_eq_true hfound
  have hmark : isMarked source = false := rfl
  have halias : isPlainBetween '\'' "@/pages" = true := by decide
  have habove : IsPrologue Dialect.ts.hasMarkup above :=
    isPrologue_default (by decide) (by decide) (by decide)
  have hframe : IsFrame Dialect.ts.hasMarkup "routes" before "\n" :=
    (isFrame_export (by decide) (by decide) (by decide) (by decide)
      (.inl (isSpacing_blanks (by decide)))).below (isSpacing_blanks (by decide))
  have hblank : ∀ s : Text, (s.all fun c => c = ' ' || c = '\t' || c = '\n' || c = '\r') = true →
      IsSpacing s := fun s hs => isSpacing_blanks hs
  have hflag : ∀ directive value,
      (Layout.flag directive value).IsRead Rules.objectProperty Dialect.ts.hasMarkup :=
    Layout.flag_isRead
  have hlast : ∀ piece ∈ [.comma, .space " ", Layout.flag .table true, .comma, .space " ",
      Layout.flag .cover true], piece.IsRead Rules.objectProperty Dialect.ts.hasMarkup :=
    List.forall_mem_cons.2 ⟨trivial, List.forall_mem_cons.2 ⟨hblank _ rfl,
      List.forall_mem_cons.2 ⟨hflag .table true, List.forall_mem_cons.2 ⟨trivial,
        List.forall_mem_cons.2 ⟨hblank _ rfl, List.forall_mem_cons.2 ⟨hflag .cover true, nofun⟩⟩⟩⟩⟩⟩
  have hfirst : ∀ piece ∈ [Layout.flag .service true, .comma, .space " "],
      piece.IsRead Rules.objectProperty Dialect.ts.hasMarkup :=
    List.forall_mem_cons.2 ⟨hflag .service true, List.forall_mem_cons.2 ⟨trivial,
      List.forall_mem_cons.2 ⟨hblank _ rfl, nofun⟩⟩⟩
  have hline : ∀ piece ∈ [.space "    ", Layout.flag .cover false, .comma, .space "\n"],
      piece.IsRead Rules.objectProperty Dialect.ts.hasMarkup :=
    List.forall_mem_cons.2 ⟨hblank _ rfl, List.forall_mem_cons.2 ⟨hflag .cover false,
      List.forall_mem_cons.2 ⟨trivial, List.forall_mem_cons.2 ⟨hblank _ rfl, nofun⟩⟩⟩⟩
  have hhomeRead : home.IsRead Dialect.ts.hasMarkup :=
    ⟨hblank _ rfl, Layout.Fields.text_isRead (by decide) (by decide)
      ⟨hblank _ rfl, Layout.Fields.path_isRead (by decide) ⟨hlast, hblank _ rfl, trivial⟩⟩⟩
  have hbelowRead : below.IsRead Dialect.ts.hasMarkup :=
    ⟨hblank _ rfl, hfirst, Layout.Fields.text_isRead (by decide) (by decide)
      ⟨hblank _ rfl, Layout.Fields.path_isRead (by decide) ⟨hblank _ rfl, trivial⟩⟩⟩
  have hkeptRead : kept.IsRead Dialect.ts.hasMarkup :=
    ⟨hblank _ rfl, Layout.Fields.text_isRead (by decide) (by decide)
      ⟨hblank _ rfl, Layout.Fields.bound_isRead (by decide) (by decide)
        ⟨hblank _ rfl, hline, hblank _ rfl,
          isFieldHead_fieldHead (by decide), ⟨hbelowRead, trivial⟩, hblank _ rfl, trivial⟩⟩⟩
  have hread : entries.IsRead Dialect.ts.hasMarkup :=
    ⟨hblank _ rfl, hhomeRead, hblank _ rfl, isSpacing_lineComment (by decide), hblank _ rfl,
      hkeptRead, hblank _ rfl, trivial⟩
  have hrun : Layout.IsRun
      [Layout.flag .table true, .comma, .space " ", Layout.flag .cover true] :=
    @Layout.IsRun.more _ _ [.comma, .space " "] _ (Layout.flag_isDirective .table true) rfl rfl
      (.one (Layout.flag_isDirective .cover true))
  have hhomeSettles : home.Settles (.ofPlans plans) 69 :=
    ⟨rfl, fun _ => rfl, rfl, fun _ => rfl, ⟨_, rfl⟩, hhome, ⟨rfl, hrun, rfl⟩, trivial⟩
  have hbelowSettles : below.Settles (.ofPlans plans) 217 :=
    ⟨⟨rfl, .one (Layout.flag_isDirective .service true), rfl⟩, rfl, fun _ => rfl, rfl, fun _ => rfl,
      ⟨_, rfl⟩, hbelow, trivial⟩
  have hkeptSettles : kept.Settles (.ofPlans plans) 146 :=
    ⟨rfl, fun _ => rfl, rfl, fun _ => rfl,
      ⟨rfl, .one (Layout.flag_isDirective .cover false), rfl⟩, ⟨_, rfl, rfl⟩, fun _ => rfl,
        ⟨hbelowSettles, trivial⟩, trivial⟩
  have hhomeAt : 65 + Text.size "\n  " + 1 = 69 := by decide
  have hkeptAt : 65 + Text.size "\n  " + Text.size (Piece.bracketed '\x7b' '\x7d' home.pieces) + 1 +
      Text.size "\n  " + Text.size ("//" ++ " below" ++ "\n") + Text.size "  " + 1 = 146 := by decide
  have hsettles : entries.Settles (.ofPlans plans) 65 :=
    ⟨hhomeAt ▸ hhomeSettles, hkeptAt ▸ hkeptSettles, trivial⟩
  have hplace : Text.size above = 31 ∧ Text.size above + Text.size before + 1 = 65 := by decide
  have hextents : entries.AreExtents (above ++ before ++ ['[']) (']' :: "\n") :=
    ⟨⟨.last (by decide +kernel) (by decide +kernel) (by decide +kernel) (by decide +kernel),
        trivial⟩,
      ⟨.ownLine (by decide +kernel) (by decide +kernel) (.inl rfl),
        ⟨⟨.comma (by decide +kernel) (by decide +kernel) (by decide +kernel), trivial⟩, trivial⟩,
          trivial⟩, trivial⟩
  have htop : IsTop Dialect.ts.hasMarkup t above before :=
    .behindLast habove ⟨'\n', rfl, .inl rfl⟩ (hplace.1 ▸ hanchor)
  have hlist : Piece.isList true entries.pieces = true ∧ entries.isListed = true := ⟨rfl, rfl⟩
  have himports : ∀ pos, Element.allImports (Piece.values pos entries.settle.pieces) = [] :=
    fun pos => rfl
  have hlaid : IsLaidOut Dialect.ts.hasMarkup source t plans above before "\n" entries :=
    ⟨rfl, htop, hbinding ▸ hframe, hread, hlist, hplace.2 ▸ hsettles, hextents, rfl, rfl, himports⟩
  obtain ⟨t', ht', hsettled, -⟩ := rewrite_settles hplanned hr hmark halias hnames hlaid
  exact ⟨t, plans, t', hplanned, hr, hmark, halias, hnames, hlaid, ht', hsettled⟩

end RoutePages
