import RoutePages.Proofs.Page.ImportLines
import RoutePages.Proofs.Script.Constants

/-!
# What stands around a route array

A file is read down to its route array, whatever stands in the array, where imports stand above the
declaration and nothing but its end stands below.
-/
namespace RoutePages.Script

open Script.Parser

/-! ## Items with their parts -/

/-- The items are read one after another between the two cursors, with these parts. -/
inductive Rules.Runs (r : Rules) (m : Mode) : Cursor → List (List Part) → Cursor → Prop
  | nil (c : Cursor) : Runs r m c [] c
  | cons {c d e : Cursor} {parts : List Part} {all : List (List Part)}
      (hitem : r.itemStep.run m c = .done (some parts) d) (hmore : Runs r m d all e) :
      Runs r m c (parts :: all) e

section Runs

variable {r : Rules} {m : Mode} {c d e : Cursor} {all more : List (List Part)}

theorem Rules.Runs.append (h : r.Runs m c all d) (hmore : r.Runs m d more e) :
    r.Runs m c (all ++ more) e := by
  induction h with
  | nil => exact hmore
  | cons hitem _ ih => exact .cons hitem (ih hmore)

/-- At the end of a module no item is read. -/
theorem itemStep_done (h : c.token.lexeme = .done) : r.itemStep.run m c = .done none c := by
  have hfault : refuseFault.run m c = .done () c := by
    apply refuseFault_run
    intro offset hoffset
    cases h.symm.trans hoffset
  have hdone : c.token.isDone = true := decide_eq_true h
  unfold Rules.itemStep
  rw [bind_run, hfault]
  dsimp only
  rw [bind_run, isDone_run, hdone]
  rfl

/-- Items that are read up to the end are what the loop over the items gives. -/
theorem Rules.Runs.loop (h : r.Runs m c all d) (hdone : d.token.lexeme = .done) {fuel : Nat}
    (hfuel : all.length < fuel) : (Parser.many r.itemStep fuel).run m c = .done all d := by
  induction h generalizing fuel with
  | nil c => exact many_run_none _ _ hfuel (itemStep_done hdone)
  | cons hitem _ ih =>
    obtain ⟨fuel, rfl⟩ := Nat.exists_eq_succ_of_ne_zero (Nat.ne_of_gt (Nat.zero_lt_of_lt hfuel))
    have hrest := ih hdone (Nat.lt_of_succ_lt_succ hfuel)
    simp only [Parser.many, bind_run, hitem, hrest, pure_run]

/-- A module whose items are read up to its end without a flaw is read. -/
theorem parseItems_of_runs {markup : Bool} {text : Text}
    (h : (rules (depthFor text)).Runs (Mode.start markup) (Cursor.start text) all d)
    (hdone : d.token.lexeme = .done) (hflaw : d.flaw = none) (hfew : all.length < depthFor text) :
    parseItems markup text = .ok all := by
  have hloop := (rules (depthFor text)).moduleItems_eq
  rw [rules_fuel] at hloop
  unfold parseItems
  rw [hloop, h.loop hdone hfew]
  dsimp only
  rw [hflaw]

end Runs

/-! ## Above the array -/

/-- The text is read down to its end, and no flaw is met: no route array is declared in it, and its
imports end between its characters. -/
structure IsReadDown (markup : Bool) (depth : Nat) (text below : Text) (all : List (List Part))
    (c : Cursor) : Prop where
  runs : (rules depth).Runs (Mode.start markup) (Cursor.start (text ++ below)) all c
  token : c.token = Token.next ⟨Text.size text, below⟩
  flaw : c.flaw = none
  few : all.length ≤ text.length
  array : Part.firstArray? all.flatten = none
  imports : ∀ i ∈ Part.allImports all.flatten, text.isBoundary i.span.stop = true

/-- The text can stand above a route array: it is read down to its end whatever stands on the lines
below, as long as this does not begin with a semicolon. -/
def IsPrologue (markup : Bool) (text : Text) : Prop :=
  ∀ (depth : Nat) (below : Text), depthFor text ≤ depth → BeginsWithBreak below →
    (Token.next ⟨Text.size text, below⟩).isSign ";" = false →
    (Token.next ⟨Text.size text, below⟩).flaw = none →
      ∃ all c, IsReadDown markup depth text below all c

section Imports

variable {markup : Bool} {name source : Text} (hname : isPlainWord name = true)
  (hown : startsLower name = false) (hsource : isPlainBetween '\'' source = true)
include hname hown hsource

/-- From the word `import` on, down to the end of the line. -/
theorem importStep_run {n pos stop : Nat} {below : Text} {c : Cursor}
    (himport : c.token.lexeme = .word "import")
    (hstart : c.token.stop = ⟨pos, " " ++ name ++ " from '" ++ source ++ "'" ++ below⟩)
    (hstop : stop = pos + Text.size (" " ++ name ++ " from '" ++ source ++ "'"))
    (hbelow : BeginsWithBreak below) (hsign : (Token.next ⟨stop, below⟩).isSign ";" = false)
    (hflaw : (Token.next ⟨stop, below⟩).flaw = none) :
    ∃ start d, (rules (n + 1)).itemStep.run (Mode.start markup) c =
        .done (some [.imports [name] source ⟨start, stop⟩]) d ∧
      d.token = Token.next ⟨stop, below⟩ ∧ d.flaw = c.flaw := by
  obtain ⟨d, hrun, -, hd⟩ := import_run hname hown (rules n) (Mode.start markup) himport hstart
    hsource (endsLine_of_break (.inr hbelow) _) hstop
  obtain ⟨htoken, hlast, hkept⟩ := hd hsign
  have hstep : (rules (n + 1)).itemStep.run (Mode.start markup) c = .done (some _) d :=
    itemStep_word himport hrun
  rw [hlast] at hstep
  exact ⟨_, d, hstep, htoken, hkept hflaw⟩

omit hname hown hsource in
theorem importLine_split : ("import " ++ name ++ " from '" ++ source ++ "'" : Text) =
    "import" ++ (" " ++ name ++ " from '" ++ source ++ "'") := by
  simp

/-- A single import can stand above a route array. -/
theorem isPrologue_default :
    IsPrologue markup ("import " ++ name ++ " from '" ++ source ++ "'") := by
  intro depth below hdepth hbelow hsign hflaw
  have hsplit := @importLine_split name source
  generalize ("import " ++ name ++ " from '" ++ source ++ "'" : Text) = line at *
  have htext : line ++ below = "import" ++ (" " ++ name ++ " from '" ++ source ++ "'" ++ below) := by
    rw [hsplit, List.append_assoc]
  have hsize : Text.size line =
      0 + Text.size "import" + Text.size (" " ++ name ++ " from '" ++ source ++ "'") := by
    rw [hsplit, Text.size_append, Nat.zero_add]
  obtain ⟨n, rfl⟩ := Nat.exists_eq_add_of_le' (Nat.le_trans (Nat.le_add_left 1 _) hdepth)
  have htoken : (Cursor.start (line ++ below)).token = _ :=
    (congrArg (fun s => (Cursor.start s).token) htext).trans
      (next_plainWord (w := "import") (by decide) rfl)
  obtain ⟨start, d, hstep, hd, hclean⟩ := @importStep_run markup name source hname hown hsource n _ _
    below _ (congrArg Token.lexeme htoken) (congrArg Token.stop htoken) hsize hbelow hsign hflaw
  refine ⟨_, d, .cons hstep (.nil d), hd, hclean.trans (congrArg Token.flaw htoken), ?_, rfl, ?_⟩
  · rw [hsplit]
    exact List.length_pos_of_ne_nil nofun
  · intro i hi
    cases List.mem_singleton.1 hi
    have hend := Text.isBoundary_size_append line []
    rw [List.append_nil] at hend
    exact hend

/-- An import can follow on the next line. -/
theorem IsPrologue.default {above brk : Text} (h : IsPrologue markup above)
    (hbrk : brk = "\n" ∨ brk = "\r\n") :
    IsPrologue markup (above ++ (brk ++ ("import " ++ name ++ " from '" ++ source ++ "'"))) := by
  intro depth below hdepth hbelow hsign hflaw
  have hsplit := @importLine_split name source
  generalize ("import " ++ name ++ " from '" ++ source ++ "'" : Text) = line at *
  have htext : above ++ (brk ++ line) ++ below =
      above ++ (brk ++ ("import" ++ (" " ++ name ++ " from '" ++ source ++ "'" ++ below))) := by
    simp only [hsplit, List.append_assoc]
  have hsize : Text.size (above ++ (brk ++ line)) =
      Text.size above + Text.size brk + Text.size "import" +
        Text.size (" " ++ name ++ " from '" ++ source ++ "'") := by
    rw [hsplit, Text.size_append, Text.size_append, Text.size_append]
    omega
  have hlength : (above ++ (brk ++ line)).length = above.length + (brk.length + line.length) := by
    rw [List.length_append, List.length_append]
  have habove : depthFor above ≤ depth := by
    unfold depthFor at hdepth ⊢
    omega
  have hnext := next_belowBreak hbrk (w := "import") (by decide)
    (show runsOn (" " ++ name ++ " from '" ++ source ++ "'" ++ below) = false from rfl)
    (Text.size above)
  obtain ⟨all, c, hruns, hc, hclear, hfew, harray, himports⟩ := h depth _ habove
    (beginsWithBreak_of_lineBreak hbrk _) (by rw [hnext]; rfl) (congrArg Token.flaw hnext)
  have htoken : c.token = _ := hc.trans hnext
  obtain ⟨n, rfl⟩ := Nat.exists_eq_add_of_le' (Nat.le_trans (Nat.le_add_left 1 _) hdepth)
  obtain ⟨start, d, hstep, hd, hclean⟩ := @importStep_run markup name source hname hown hsource n _ _
    below c (congrArg Token.lexeme htoken) (congrArg Token.stop htoken) hsize hbelow hsign hflaw
  have hlast := hruns.append (.cons hstep (.nil d))
  rw [← htext] at hlast
  refine ⟨_, d, hlast, hd, hclean.trans hclear, ?_, ?_, ?_⟩
  · have hline : 0 < line.length := by
      rw [hsplit]
      exact List.length_pos_of_ne_nil nofun
    rw [List.length_append, List.length_singleton, hlength]
    omega
  · rw [List.flatten_append, firstArray?_append, harray]
    rfl
  · intro i hi
    rw [List.flatten_append, allImports_append] at hi
    rcases List.mem_append.1 hi with hi | hi
    · exact Text.isBoundary_append (himports i hi) _
    · cases List.mem_singleton.1 hi
      have hend := Text.isBoundary_size_append (above ++ (brk ++ line)) []
      rw [List.append_nil] at hend
      exact hend

end Imports

/-! ## Around the array -/

/-- The items from a cursor to the end of the module declare an array, and no route array before
it. -/
structure DeclaresArray (markup : Bool) (depth : Nat) (name before after : Text)
    (pieces : List (Piece Element)) (pos : Nat) (c : Cursor) (all : List (List Part)) (d : Cursor) :
    Prop where
  runs : (rules depth).Runs (Mode.start markup) c all d
  done : d.token.lexeme = .done
  flaw : d.flaw = c.flaw
  few : all.length ≤ before.length + after.length
  array : Part.firstArray? all.flatten = some
    ⟨name, Piece.values (pos + Text.size before + 1) pieces, ⟨pos + Text.size before,
      pos + Text.size before + Text.size (Piece.bracketed '[' ']' pieces)⟩⟩
  imports : Part.allImports all.flatten =
    Element.allImports (Piece.values (pos + Text.size before + 1) pieces)

/-- Between the two texts any array is the route array of this name. -/
structure IsFrame (markup : Bool) (name before after : Text) : Prop where
  sign : ∀ (broken : Bool) (pos : Nat) (rest : Text),
    (Token.after broken ⟨pos, before ++ '[' :: rest⟩).isSign ";" = false
  flaw : ∀ (broken : Bool) (pos : Nat) (rest : Text),
    (Token.after broken ⟨pos, before ++ '[' :: rest⟩).flaw = none
  declares : ∀ (depth pos : Nat) (broken : Bool) (pieces : List (Piece Element)) (c : Cursor),
    (∀ piece ∈ pieces, piece.IsRead Rules.element markup) → Piece.isList true pieces = true →
    depthFor (before ++ (Piece.bracketed '[' ']' pieces ++ after)) ≤ depth →
    c.token = Token.after broken ⟨pos, before ++ (Piece.bracketed '[' ']' pieces ++ after)⟩ →
      ∃ all d, DeclaresArray markup depth name before after pieces pos c all d

section Frame

variable {markup : Bool} {name type before after s : Text}

/-- Spacing above a declaration changes nothing. -/
theorem IsFrame.below (h : IsFrame markup name before after) (hs : IsSpacing s) :
    IsFrame markup name (s ++ before) after := by
  obtain ⟨brk, hskip⟩ := hs.after
  have hsize : ∀ pos, pos + Text.size (s ++ before) = pos + Text.size s + Text.size before := by
    intro pos
    rw [Text.size_append, Nat.add_assoc]
  refine ⟨fun broken pos rest => ?_, fun broken pos rest => ?_,
    fun depth pos broken pieces c hread hlist hdepth hc => ?_⟩
  · rw [List.append_assoc, hskip]
    exact h.sign _ _ _
  · rw [List.append_assoc, hskip]
    exact h.flaw _ _ _
  · rw [List.append_assoc] at hdepth hc
    rw [hskip] at hc
    have hinner : depthFor (before ++ (Piece.bracketed '[' ']' pieces ++ after)) ≤ depth := by
      unfold depthFor at hdepth ⊢
      rw [List.length_append] at hdepth
      omega
    obtain ⟨all, d, hruns, hdone, hflaw, hfew, harray, himports⟩ :=
      h.declares depth _ _ pieces c hread hlist hinner hc
    refine ⟨all, d, hruns, hdone, hflaw, ?_, ?_, ?_⟩
    · rw [List.length_append]
      omega
    · rw [hsize]
      exact harray
    · rw [hsize]
      exact himports

/-- What may stand behind the array: the end of the declaration and of the file. -/
def IsClosing (s : Text) : Prop := IsSpacing s ∨ ∃ t, s = ';' :: t ∧ IsSpacing t

theorem after_nil (broken : Bool) (pos : Nat) :
    Token.after broken ⟨pos, []⟩ = ⟨.done, ⟨pos, []⟩, ⟨pos, []⟩, broken, none⟩ := by
  cases broken <;> rfl

theorem IsSpacing.atEnd (h : IsSpacing s) (pos : Nat) :
    ∃ place broken, Token.next ⟨pos, s⟩ = ⟨.done, place, place, broken, none⟩ := by
  obtain ⟨brk, hskip⟩ := h.after
  have hend := hskip pos false []
  rw [List.append_nil, after_nil] at hend
  exact ⟨_, _, hend⟩

/-- Behind the array the declaration ends. -/
structure Token.EndsFile (u : Token) : Prop where
  stops : u.Stops
  comma : u.isSign "," = false
  flaw : u.flaw = none
  ends : ∀ (m : Mode) (d : Cursor), d.token = u → ∃ e,
    eatSemicolon.run m d = .done true e ∧ e.token.lexeme = .done ∧ e.flaw = d.flaw

theorem IsClosing.endsFile (h : IsClosing after) (pos : Nat) :
    (Token.next ⟨pos, after⟩).EndsFile := by
  rcases h with h | ⟨t, rfl, h⟩
  · obtain ⟨place, broken, hnext⟩ := h.atEnd pos
    rw [hnext]
    refine ⟨⟨nofun, nofun, nofun⟩, rfl, rfl, fun m d hd => ⟨d, ?_, by rw [hd], rfl⟩⟩
    have hsign : (eat ";").run m d = .done false d := by
      apply eat_run_false
      rw [hd]
      rfl
    have hdone : d.token.isDone = true := by
      rw [hd]
      rfl
    simp only [eatSemicolon, atEnd, bind_run, hsign, token_run, hdone, Bool.or_true, Bool.true_or,
      Bool.false_eq_true, if_false, pure_run]
  · obtain ⟨place, broken, hnext⟩ := h.atEnd (pos + 1)
    rw [next_semicolon]
    refine ⟨Token.stops_of_sign rfl (by decide), by rw [Token.isSign_of_sign rfl]; decide, rfl,
      fun m d hd => ⟨d.advanced, ?_, ?_, ?_⟩⟩
    · have hsign : d.token.isSign ";" = true := by
        rw [hd, Token.isSign_of_sign rfl]
        decide
      simp only [eatSemicolon, bind_run, eat_run_true _ _ hsign, if_true, pure_run]
    · rw [Cursor.advanced_token hd hnext]
    · exact Cursor.advanced_flaw (by rw [Cursor.advanced_token hd hnext])

/-- The text before the array of a constant. -/
def constantHead (name type : Text) : Text := "const " ++ (name ++ (": " ++ (type ++ "[] = ")))

theorem constantHead_eq (name type : Text) :
    constantHead name type = "const " ++ (name ++ (": " ++ (type ++ "[] = "))) := rfl

/-- The tokens of a constant before its array. -/
theorem atArrayConstant (hname : isPlainWord name = true) (htype : isPlainWord type = true)
    (hown : startsLower type = false) {c : Cursor} {broken : Bool} {pos : Nat} {rest : Text}
    (hc : c.token = Token.after broken ⟨pos, constantHead name type ++ rest⟩) :
    c.AtArrayConstant name type ∧
      c.atValue.token = Token.next ⟨pos + Text.size (constantHead name type), rest⟩ ∧
      ((Token.next ⟨pos + Text.size (constantHead name type), rest⟩).flaw = none →
        c.atValue.flaw = c.flaw) := by
  have htext : constantHead name type ++ rest = "const" ++ ' ' ::
      (name ++ ':' :: ' ' :: (type ++ '[' :: ']' :: ' ' :: '=' :: ' ' :: rest)) := by
    have hwords : ("const " : Text) = "const" ++ [' '] ∧ (": " : Text) = [':', ' '] ∧
        ("[] = " : Text) = ['[', ']', ' ', '=', ' '] := by decide
    rw [constantHead_eq]
    simp only [hwords, List.append_assoc, List.cons_append, List.nil_append]
  have hconst : c.token = _ := hc.trans ((congrArg (fun s => Token.after broken ⟨pos, s⟩) htext).trans
    (after_word (by decide) rfl broken pos))
  have hnamed : c.advanced.token = _ := Cursor.advanced_token hconst
    ((next_space _ _).trans (next_plainWord hname rfl))
  have hcolon : c.advanced.advanced.token = _ := Cursor.advanced_token hnamed (next_colon _ _)
  have htyped : c.advanced.advanced.advanced.token = _ := Cursor.advanced_token hcolon
    ((next_space _ _).trans (next_plainWord htype rfl))
  have hopening : c.advanced.advanced.advanced.advanced.token = _ := Cursor.advanced_token htyped
    (after_sign (by decide) false _ _)
  have hclosing : c.advanced.advanced.advanced.advanced.advanced.token = _ :=
    Cursor.advanced_token hopening (after_sign (by decide) false _ _)
  have hequals : c.advanced.advanced.advanced.advanced.advanced.advanced.token = _ :=
    Cursor.advanced_token hclosing ((next_space _ _).trans (next_equals _ _))
  have hplace : pos + Text.size "const" + 1 + Text.size name + 1 + 1 + Text.size type + 1 + 1 + 1 +
      1 + 1 = pos + Text.size (constantHead name type) := by
    have hwords : Text.size "const " = 6 ∧ Text.size "const" = 5 ∧ Text.size ": " = 2 ∧
        Text.size "[] = " = 5 := by decide
    rw [constantHead_eq]
    simp only [Text.size_append]
    omega
  have hvalue : c.atValue.token = Token.next ⟨pos + Text.size (constantHead name type), rest⟩ :=
    Cursor.advanced_token hequals
      ((next_space _ _).trans (congrArg (fun p => Token.next ⟨p, rest⟩) hplace))
  have htype : c.advanced.advanced.advanced.AtArrayType type :=
    ⟨⟨congrArg Token.lexeme htyped, hown⟩, congrArg Token.lexeme hopening,
      congrArg Token.afterBreak hopening, congrArg Token.lexeme hclosing,
      congrArg Token.lexeme hequals⟩
  refine ⟨⟨congrArg Token.lexeme hconst, congrArg Token.lexeme hnamed,
    congrArg Token.lexeme hcolon, htype⟩, hvalue, fun hflaw => ?_⟩
  unfold Cursor.atValue at hvalue ⊢
  rw [Cursor.advanced_flaw (by rw [hvalue, hflaw]), Cursor.advanced_flaw (by rw [hequals]),
    Cursor.advanced_flaw (by rw [hclosing]), Cursor.advanced_flaw (by rw [hopening]),
    Cursor.advanced_flaw (by rw [htyped]), Cursor.advanced_flaw (by rw [hcolon]),
    Cursor.advanced_flaw (by rw [hnamed])]

/-- At the start of a source `in` is an operator anyway. -/
theorem fullAssignment_start (r : Rules) (c : Cursor) :
    r.fullAssignment.run (Mode.start markup) c = r.assignment.run (Mode.start markup) c := rfl

/-- A constant that is an item declares its array. -/
theorem declaresArray_of_item {depth pos : Nat} {pieces : List (Piece Element)} {c d : Cursor}
    {w : Text} (hword : c.token.lexeme = .word w)
    (hitem : ((rules depth).item true).run (Mode.start markup) c = .done [.declaration
      [.mk (some name) true [] (some (Piece.array pieces (pos + Text.size before)))]] d)
    (hdone : d.token.lexeme = .done) (hflaw : d.flaw = c.flaw) (hbefore : 0 < before.length) :
    ∃ all d, DeclaresArray markup depth name before after pieces pos c all d := by
  refine ⟨_, d, .cons (itemStep_word hword hitem) (.nil d), hdone, hflaw, ?_, ?_, ?_⟩
  · rw [List.length_singleton]
    omega
  · rw [List.flatten_singleton, Piece.array]
    rfl
  · rw [List.flatten_singleton, Piece.array, Part.allImports, Declarator.allImports,
      Part.allImports, Declarator.allImports, Expr.imports, List.nil_append, List.append_nil,
      List.append_nil]

theorem depth_of_head {head : Text} {depth : Nat} {pieces : List (Piece Element)}
    (hhead : 0 < head.length)
    (hdepth : depthFor (head ++ (Piece.bracketed '[' ']' pieces ++ after)) ≤ depth) :
    ∃ n, depth = n + 7 ∧ depthFor (Piece.bracketed '[' ']' pieces) ≤ n + 5 := by
  unfold depthFor at hdepth ⊢
  rw [List.length_append, List.length_append] at hdepth
  obtain ⟨n, rfl⟩ : ∃ n, depth = n + 7 := Nat.exists_eq_add_of_le' (by omega)
  exact ⟨n, rfl, by omega⟩

/-- The word at the start of a constant. -/
theorem after_constantHead (broken : Bool) (pos : Nat) (rest : Text) :
    ∃ stop, Token.after broken ⟨pos, constantHead name type ++ rest⟩ =
      ⟨.word "const", ⟨pos, constantHead name type ++ rest⟩, stop, broken, none⟩ :=
  ⟨_, after_word (w := "const") (by decide)
    (show runsOn (' ' :: (name ++ (": " ++ (type ++ "[] = ")) ++ rest)) = false from rfl) broken pos⟩

section Constant

variable (hname : isPlainWord name = true) (hbound : isBindable name = true)
  (htype : isPlainWord type = true) (hown : startsLower type = false) (hafter : IsClosing after)
include hname hbound htype hown hafter

/-- The declaration of a constant is read to the end of the file. -/
theorem constant_run {n pos : Nat} {broken : Bool} {pieces : List (Piece Element)} {c : Cursor}
    (hread : ∀ piece ∈ pieces, piece.IsRead Rules.element markup)
    (hlist : Piece.isList true pieces = true)
    (hdepth : depthFor (Piece.bracketed '[' ']' pieces) ≤ n + 5)
    (hc : c.token = Token.after broken
      ⟨pos, constantHead name type ++ (Piece.bracketed '[' ']' pieces ++ after)⟩) :
    c.AtArrayConstant name type ∧ ∃ d,
      (rules (n + 5)).variableDeclaration.run (Mode.start markup) c = .done [.declaration [.mk
        (some name) true [] (some (Piece.array pieces (pos + Text.size (constantHead name type))))]] d ∧
      d.token.lexeme = .done ∧ d.flaw = c.flaw := by
  obtain ⟨hat, hvalue, hflaw⟩ := atArrayConstant hname htype hown hc
  have hend := hafter.endsFile (pos + Text.size (constantHead name type) +
    Text.size (Piece.bracketed '[' ']' pieces))
  obtain ⟨d, hrun, hd, hkept⟩ := @array_gives _ _ false _ _ _ hread hlist hdepth hend.stops _
    hvalue
  obtain ⟨e, hsemicolon, hdone, hlast⟩ := hend.ends (Mode.start markup) d hd
  have hclean : (Token.next ⟨pos + Text.size (constantHead name type),
      Piece.bracketed '[' ']' pieces ++ after⟩).flaw = none :=
    congrArg Token.flaw (after_sign (by decide) false _ _)
  have hcomma : d.token.isSign "," = false := by
    rw [hd]
    exact hend.comma
  rw [fullAssignment_start] at hrun
  refine ⟨hat, e, variableDeclaration_run hbound hat n hrun hcomma hsemicolon, hdone, ?_⟩
  rw [hlast, hkept hend.flaw, hflaw hclean]

/-- A constant stands around an array. -/
theorem isFrame_constant : IsFrame markup name (constantHead name type) after := by
  refine ⟨fun broken pos rest => ?_, fun broken pos rest => ?_,
    fun depth pos broken pieces c hread hlist hdepth hc => ?_⟩
  · obtain ⟨stop, hconst⟩ := @after_constantHead name type broken pos ('[' :: rest)
    rw [hconst]
    exact Token.isSign_of_word rfl _
  · obtain ⟨stop, hconst⟩ := @after_constantHead name type broken pos ('[' :: rest)
    rw [hconst]
  · have hhead : 0 < (constantHead name type).length := List.length_pos_of_ne_nil nofun
    obtain ⟨n, rfl, hn⟩ := depth_of_head hhead hdepth
    obtain ⟨hat, d, hrun, hdone, hflaw⟩ :=
      constant_run hname hbound htype hown hafter hread hlist hn hc
    exact declaresArray_of_item hat.word (item_run_const hbound hat (n + 4) hrun) hdone hflaw hhead

/-- A constant that is exported stands around an array. -/
theorem isFrame_export : IsFrame markup name ("export " ++ constantHead name type) after := by
  have hwords : ("export " : Text) = "export" ++ [' '] := by decide
  have htoken : ∀ (broken : Bool) (pos : Nat) (rest : Text),
      Token.after broken ⟨pos, "export " ++ constantHead name type ++ rest⟩ =
        ⟨.word "export", ⟨pos, "export" ++ ' ' :: (constantHead name type ++ rest)⟩,
          ⟨pos + Text.size "export", ' ' :: (constantHead name type ++ rest)⟩, broken, none⟩ := by
    intro broken pos rest
    have htext : "export " ++ constantHead name type ++ rest =
        "export" ++ ' ' :: (constantHead name type ++ rest) := by
      rw [hwords]
      simp only [List.append_assoc, List.cons_append, List.nil_append]
    rw [htext]
    exact after_word (by decide) rfl broken pos
  refine ⟨fun broken pos rest => ?_, fun broken pos rest => ?_,
    fun depth pos broken pieces c hread hlist hdepth hc => ?_⟩
  · rw [htoken]
    exact Token.isSign_of_word rfl _
  · rw [htoken]
  · have hhead : 0 < ("export " ++ constantHead name type).length := List.length_pos_of_ne_nil nofun
    obtain ⟨n, rfl, hn⟩ := depth_of_head hhead hdepth
    have hexport : c.token = _ := hc.trans (htoken _ _ _)
    have hsize : pos + Text.size ("export " ++ constantHead name type) =
        pos + Text.size "export" + 1 + Text.size (constantHead name type) := by
      have hsizes : Text.size "export " = 7 ∧ Text.size "export" = 6 := by decide
      rw [Text.size_append, hsizes.1, hsizes.2]
      omega
    have hconst : c.advanced.token = Token.after false ⟨pos + Text.size "export" + 1, _⟩ :=
      Cursor.advanced_token hexport (next_space _ _)
    obtain ⟨hat, d, hrun, hdone, hflaw⟩ := constant_run hname hbound htype hown hafter hread hlist
      (Nat.le_succ_of_le hn) hconst
    rw [← hsize] at hrun
    have hclean : c.advanced.flaw = c.flaw := by
      obtain ⟨stop, hword⟩ := @after_constantHead name type false
        (pos + Text.size "export" + 1) (Piece.bracketed '[' ']' pieces ++ after)
      exact Cursor.advanced_flaw (congrArg Token.flaw (hconst.trans hword))
    exact declaresArray_of_item (congrArg Token.lexeme hexport)
      (item_run_export hbound hat (congrArg Token.lexeme hexport) rfl (n + 6) hrun) hdone
      (hflaw.trans hclean) hhead

end Constant

end Frame

/-! ## The whole text -/

/-- The first token of the frame follows what stands above. At the top no line names an
interpreter. -/
inductive OpensOn (markup : Bool) : (above before : Text) → Prop
  | behind {above before : Text} (hprologue : IsPrologue markup above)
      (hbreak : BeginsWithBreak before) : OpensOn markup above before
  | atTop {before : Text} (hhead : before.head? ≠ some '#') : OpensOn markup [] before

/-- The items of a text whose route array stands in a frame: no array is declared before it, and
imports end between characters of the text above or are declared in the array. -/
structure ReadsArray (markup : Bool) (name above before after : Text)
    (pieces : List (Piece Element)) (all : List (List Part)) : Prop where
  items : parseItems markup (above ++ (before ++ (Piece.bracketed '[' ']' pieces ++ after))) = .ok all
  array : Part.firstArray? all.flatten = some
    ⟨name, Piece.values (Text.size above + Text.size before + 1) pieces,
      ⟨Text.size above + Text.size before,
        Text.size above + Text.size before + Text.size (Piece.bracketed '[' ']' pieces)⟩⟩
  imports : ∀ i ∈ Part.allImports all.flatten, above.isBoundary i.span.stop = true ∨
    i ∈ Element.allImports (Piece.values (Text.size above + Text.size before + 1) pieces)

section Whole

variable {markup : Bool} {name above before after : Text} {pieces : List (Piece Element)}
  (hframe : IsFrame markup name before after)
  (hread : ∀ piece ∈ pieces, piece.IsRead Rules.element markup)
  (hlist : Piece.isList true pieces = true)
include hframe hread hlist

theorem readsArray_behind (hprologue : IsPrologue markup above) (hbreak : BeginsWithBreak before) :
    ∃ all, ReadsArray markup name above before after pieces all := by
  have hlength : (above ++ (before ++ (Piece.bracketed '[' ']' pieces ++ after))).length =
      above.length + (before ++ (Piece.bracketed '[' ']' pieces ++ after)).length :=
    List.length_append
  have hdepth : depthFor above ≤
      depthFor (above ++ (before ++ (Piece.bracketed '[' ']' pieces ++ after))) ∧
      depthFor (before ++ (Piece.bracketed '[' ']' pieces ++ after)) ≤
        depthFor (above ++ (before ++ (Piece.bracketed '[' ']' pieces ++ after))) := by
    unfold depthFor
    omega
  have hbelow : BeginsWithBreak (before ++ (Piece.bracketed '[' ']' pieces ++ after)) := by
    obtain ⟨c, hc, hcases⟩ := hbreak
    exact ⟨c, List.mem_head?_append_of_mem_head? hc, hcases⟩
  obtain ⟨first, c, hfirst, hc, hclear, hfew, hnone, hends⟩ := hprologue _ _ hdepth.1 hbelow
    (hframe.sign false _ _) (hframe.flaw false _ _)
  obtain ⟨more, d, hmore, hdone, hflaw, hfew', harray, himports⟩ :=
    hframe.declares _ (Text.size above) false pieces c hread hlist hdepth.2 hc
  refine ⟨first ++ more, parseItems_of_runs (hfirst.append hmore) hdone (hflaw.trans hclear) ?_,
    ?_, fun i hi => ?_⟩
  · unfold depthFor
    rw [List.length_append, hlength, List.length_append, List.length_append]
    omega
  · rw [List.flatten_append, firstArray?_append, hnone, Option.none_or, harray]
  · rw [List.flatten_append, allImports_append, himports] at hi
    rcases List.mem_append.1 hi with hi | hi
    · exact .inl (hends i hi)
    · exact .inr hi

theorem readsArray_atTop (hhead : before.head? ≠ some '#') :
    ∃ all, ReadsArray markup name [] before after pieces all := by
  have hstart : (Cursor.start (before ++ (Piece.bracketed '[' ']' pieces ++ after))).token =
      Token.after false ⟨0, before ++ (Piece.bracketed '[' ']' pieces ++ after)⟩ := by
    have hnot : Place.at? ⟨0, before ++ (Piece.bracketed '[' ']' pieces ++ after)⟩ "#!" = false := by
      cases before with
      | nil => rfl
      | cons c before =>
        have hc : '#' ≠ c := fun heq => hhead (congrArg some heq.symm)
        show ('#' == c && _) = false
        rw [beq_eq_false_iff_ne.2 hc, Bool.false_and]
    unfold Cursor.start skipInterpreterLine
    rw [hnot]
    rfl
  obtain ⟨all, d, hruns, hdone, hflaw, hfew, harray, himports⟩ :=
    hframe.declares _ 0 false pieces _ hread hlist (Nat.le_refl _) hstart
  have hclear : (Cursor.start (before ++ (Piece.bracketed '[' ']' pieces ++ after))).flaw = none :=
    (congrArg Token.flaw hstart).trans (hframe.flaw false 0 _)
  refine ⟨all, parseItems_of_runs hruns hdone (hflaw.trans hclear) ?_, harray, fun i hi => ?_⟩
  · unfold depthFor
    rw [List.nil_append, List.length_append, List.length_append]
    omega
  · rw [himports] at hi
    exact .inr hi

/-- Whatever the array is, the text is read with it. -/
theorem OpensOn.readsArray (h : OpensOn markup above before) :
    ∃ all, ReadsArray markup name above before after pieces all := by
  cases h with
  | behind hprologue hbreak => exact readsArray_behind hframe hread hlist hprologue hbreak
  | atTop hhead => exact readsArray_atTop hframe hread hlist hhead

end Whole

end RoutePages.Script
