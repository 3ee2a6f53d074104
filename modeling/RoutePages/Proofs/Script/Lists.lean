import RoutePages.Proofs.Script.Names
import RoutePages.Proofs.Script.Spacing

/-!
# Lists that are laid out

A text can be read alone where what is read of it depends on nothing but its place, as long as a
comma or a closing sign follows. The elements of an array and the properties of an object are then
read one by one, whatever white space and comments stand between them.
-/
namespace RoutePages.Script

open Script.Parser

variable {α : Type} {s tail : Text} {pos : Nat} {broken : Bool}

/-! ## Texts that are read alone -/

/-- A comma or a closing sign. -/
def Token.Separates (t : Token) : Prop :=
  t.lexeme = .sign "," ∨ t.lexeme = .sign "]" ∨ t.lexeme = .sign "\x7d"

/-- The token separates or ends nothing, and has no flaw. -/
structure Token.Begins (t : Token) : Prop where
  separates : ¬ t.Separates
  done : t.lexeme ≠ .done
  flaw : t.flaw = none

theorem Token.Separates.stops {t : Token} (h : t.Separates) : t.Stops := by
  rcases h with h | h | h
  · exact Token.stops_of_sign h (by decide)
  · exact Token.stops_of_sign h (by decide)
  · exact Token.stops_of_sign h (by decide)

theorem Token.Begins.isSign {t : Token} (h : t.Begins) {s : Text}
    (hs : s = "," ∨ s = "]" ∨ s = "\x7d") : t.isSign s = false := by
  unfold Token.isSign
  split
  · rename_i text htext
    apply beq_eq_false_iff_ne.2
    rintro rfl
    refine h.separates ?_
    unfold Token.Separates
    rw [htext]
    rcases hs with rfl | rfl | rfl
    · exact .inl rfl
    · exact .inr (.inl rfl)
    · exact .inr (.inr rfl)
  · rfl

/-- A comma or a closing sign follows, and no word goes on at the place. -/
structure SeparatesAt (p : Place) : Prop where
  token : (Token.next p).Separates
  ends : runsOn p.rest = false

/-- The text is read alone: wherever a separating token follows it, it is read as a value that
depends on nothing but its place. -/
structure ReadsAlone (run : Rules → Parser α) (markup : Bool) (text : Text) (read : Nat → α) :
    Prop where
  ne_nil : text ≠ []
  begins : ∀ (broken : Bool) (pos : Nat) (tail : Text),
    SeparatesAt ⟨pos + Text.size text, tail⟩ →
      (Token.after broken ⟨pos, text ++ tail⟩).Begins
  gives : ∀ (depth : Nat) (broken : Bool) (pos : Nat) (tail : Text), depthFor text ≤ depth →
    SeparatesAt ⟨pos + Text.size text, tail⟩ →
      (run (rules depth)).GivesAt (Mode.start markup) (Token.after broken ⟨pos, text ++ tail⟩)
        (read pos) (Token.next ⟨pos + Text.size text, tail⟩)

/-! ## Lists -/

/-- A piece of a list: what stands between its tokens, a comma, or an item with its text. -/
inductive Piece (α : Type) where
  | space (text : Text)
  | comma
  | item (text : Text) (read : Nat → α)

def Piece.text : Piece α → Text
  | space text => text
  | comma => ","
  | item text _ => text

def Piece.isItem : Piece α → Bool
  | item _ _ => true
  | _ => false

def Piece.isComma : Piece α → Bool
  | comma => true
  | _ => false

def Piece.isSpace : Piece α → Bool
  | space _ => true
  | _ => false

/-- Are there as many commas as items? -/
def Piece.isEven (pieces : List (Piece α)) : Bool :=
  pieces.countP Piece.isComma = pieces.countP Piece.isItem

/-- The text of a list without its brackets. -/
def Piece.allText (pieces : List (Piece α)) : Text := pieces.flatMap Piece.text

/-- The items of a list that stands at a place. -/
def Piece.values : Nat → List (Piece α) → List α
  | _, [] => []
  | pos, .item text read :: rest => read pos :: values (pos + Text.size text) rest
  | pos, .comma :: rest => values (pos + 1) rest
  | pos, .space text :: rest => values (pos + Text.size text) rest

/-- Does one comma stand between each item and the next, and perhaps one behind the last? At first
either an item is expected or a comma. -/
def Piece.isList : (expectsItem : Bool) → List (Piece α) → Bool
  | _, [] => true
  | expectsItem, .space _ :: rest => isList expectsItem rest
  | true, .item _ _ :: rest => isList false rest
  | false, .comma :: rest => isList true rest
  | _, _ => false

/-- What follows the first pieces of a list is a list, and an item is expected where there are more
commas than items. -/
theorem Piece.exists_isList {first rest : List (Piece α)} {expects : Bool}
    (h : isList expects (first ++ rest) = true) : ∃ later, isList later rest = true ∧
      first.countP isItem + later.toNat = first.countP isComma + expects.toNat := by
  induction first generalizing expects with
  | nil => exact ⟨expects, h, rfl⟩
  | cons piece first ih =>
    cases piece with
    | space text => exact ih h
    | comma =>
      cases expects with
      | true => cases h
      | false =>
        obtain ⟨later, hlater, hcount⟩ := ih h
        refine ⟨later, hlater, ?_⟩
        rw [List.countP_cons_of_neg Bool.false_ne_true, List.countP_cons_of_pos rfl, hcount]
        rfl
    | item text read =>
      cases expects with
      | false => cases h
      | true =>
        obtain ⟨later, hlater, hcount⟩ := ih h
        refine ⟨later, hlater, ?_⟩
        rw [List.countP_cons_of_pos rfl, List.countP_cons_of_neg Bool.false_ne_true,
          Nat.add_right_comm, hcount]
        rfl

/-- A list is left where as many commas are taken from it as items. -/
theorem Piece.isList_behind {first rest : List (Piece α)} {expects : Bool}
    (h : isList expects (first ++ rest) = true) (heven : isEven first = true) :
    isList expects rest = true := by
  obtain ⟨later, hlater, hcount⟩ := exists_isList h
  have hcounts := of_decide_eq_true heven
  have hnat : later.toNat = expects.toNat := by omega
  have hsame : later = expects := by
    revert hnat
    cases later <;> cases expects <;> decide
  exact hsame ▸ hlater

/-- Nothing but spacing is always a list. -/
theorem Piece.isList_spaces {pieces : List (Piece α)} (h : pieces.all isSpace = true)
    (expects : Bool) : isList expects pieces = true := by
  induction pieces with
  | nil => cases expects <;> rfl
  | cons piece pieces ih =>
    obtain ⟨hpiece, hmore⟩ := Bool.and_eq_true_iff.1 h
    cases piece with
    | space text => cases expects <;> exact ih hmore
    | comma => cases hpiece
    | item text read => cases hpiece

/-- The pieces can be read with the parser of the items. -/
def Piece.IsRead (run : Rules → Parser α) (markup : Bool) : Piece α → Prop
  | space text => IsSpacing text
  | comma => True
  | item text read => ReadsAlone run markup text read

@[simp] theorem Piece.allText_nil : Piece.allText ([] : List (Piece α)) = [] := rfl

@[simp] theorem Piece.allText_cons (piece : Piece α) (rest : List (Piece α)) :
    Piece.allText (piece :: rest) = piece.text ++ Piece.allText rest := rfl

theorem Piece.allText_append (first rest : List (Piece α)) :
    Piece.allText (first ++ rest) = Piece.allText first ++ Piece.allText rest :=
  List.flatMap_append

theorem Piece.values_append (first rest : List (Piece α)) (pos : Nat) :
    Piece.values pos (first ++ rest) =
      Piece.values pos first ++ Piece.values (pos + Text.size (Piece.allText first)) rest := by
  induction first generalizing pos with
  | nil => rfl
  | cons piece first ih =>
    have hcomma : Text.size "," = 1 := by decide
    rw [List.cons_append, Piece.allText_cons, Text.size_append, ← Nat.add_assoc]
    cases piece with
    | space text => exact ih _
    | comma =>
      rw [Piece.text, hcomma]
      exact ih _
    | item text read => exact congrArg (read pos :: ·) (ih _)

/-- Where there are no items nothing is read. -/
theorem Piece.values_between {between : List (Piece α)} (h : between.any Piece.isItem = false)
    (pos : Nat) : Piece.values pos between = [] := by
  induction between generalizing pos with
  | nil => rfl
  | cons piece between ih =>
    obtain ⟨hpiece, hmore⟩ := Bool.or_eq_false_iff.1 h
    cases piece with
    | space text => exact ih hmore _
    | comma => exact ih hmore _
    | item text read => cases hpiece

/-- One step of the loop over a list: at the closing sign it ends, and else it reads an item and the
comma behind it. -/
structure IsListStep (step : Parser (Option α)) (item : Parser α) (m : Mode) (closing : Char) :
    Prop where
  closes : closing = ']' ∨ closing = '\x7d'
  atEnd : ∀ c : Cursor, c.token.lexeme = .sign [closing] → step.run m c = .done none c
  atItem : ∀ (c d : Cursor) (a : α), c.token.Begins → item.run m c = .done a d →
    step.run m c = (do commaUnless [closing]; return some a : Parser (Option α)).run m d

section Loop

variable {closing : Char} {m : Mode} {pieces : List (Piece α)} {run : Rules → Parser α}
  {markup : Bool} {depth : Nat} {step : Parser (Option α)}

theorem after_closing (hclosing : closing = ']' ∨ closing = '\x7d') (broken : Bool) (pos : Nat)
    (tail : Text) : Token.after broken ⟨pos, closing :: tail⟩ =
      ⟨.sign [closing], ⟨pos, closing :: tail⟩, ⟨pos + 1, tail⟩, broken, none⟩ := by
  rcases hclosing with rfl | rfl
  · exact after_sign (by decide) _ _ _
  · exact after_sign (by decide) _ _ _

/-- The token behind an item is a comma or the closing sign. -/
theorem separates_pieces (hclosing : closing = ']' ∨ closing = '\x7d')
    (hread : ∀ piece ∈ pieces, piece.IsRead run markup) (hlist : Piece.isList false pieces = true) :
    (Token.after broken ⟨pos, Piece.allText pieces ++ closing :: tail⟩).Separates := by
  induction pieces generalizing pos broken with
  | nil =>
    rw [Piece.allText_nil, List.nil_append, after_closing hclosing]
    rcases hclosing with rfl | rfl
    · exact .inr (.inl rfl)
    · exact .inr (.inr rfl)
  | cons piece rest ih =>
    cases piece with
    | space text =>
      obtain ⟨brk, hspace⟩ := IsSpacing.after (hread (.space text) List.mem_cons_self)
      rw [Piece.allText_cons, Piece.text, List.append_assoc, hspace]
      exact ih (fun p hp => hread p (List.mem_cons_of_mem _ hp)) hlist
    | comma =>
      have hcomma : Token.after broken ⟨pos, ',' :: (Piece.allText rest ++ closing :: tail)⟩ = _ :=
        after_sign (by decide) _ _ _
      exact .inl (congrArg Token.lexeme hcomma)
    | item text read => cases hlist

/-- No word goes on behind an item. -/
theorem not_runsOn_pieces (hclosing : closing = ']' ∨ closing = '\x7d')
    (hread : ∀ piece ∈ pieces, piece.IsRead run markup) (hlist : Piece.isList false pieces = true) :
    runsOn (Piece.allText pieces ++ closing :: tail) = false := by
  induction pieces with
  | nil =>
    rw [Piece.allText_nil, List.nil_append]
    rcases hclosing with rfl | rfl
    · exact (by decide : runsOn [']'] = false)
    · exact (by decide : runsOn ['\x7d'] = false)
  | cons piece rest ih =>
    cases piece with
    | space text =>
      have hspace : IsSpacing text := hread (.space text) List.mem_cons_self
      rw [Piece.allText_cons, Piece.text, List.append_assoc]
      apply hspace.not_runsOn_append
      exact ih (fun p hp => hread p (List.mem_cons_of_mem _ hp)) hlist
    | comma => exact (by decide : runsOn [','] = false)
    | item text read => cases hlist

theorem separates_behind (hclosing : closing = ']' ∨ closing = '\x7d')
    (hread : ∀ piece ∈ pieces, piece.IsRead run markup) (hlist : Piece.isList false pieces = true) :
    SeparatesAt ⟨pos, Piece.allText pieces ++ closing :: tail⟩ :=
  ⟨@separates_pieces _ tail pos false _ _ _ _ hclosing hread hlist, not_runsOn_pieces hclosing hread hlist⟩

/-- The token at which a list is read on has no flaw. -/
theorem flaw_pieces (hclosing : closing = ']' ∨ closing = '\x7d')
    (hread : ∀ piece ∈ pieces, piece.IsRead run markup) {expects : Bool}
    (hlist : Piece.isList expects pieces = true) :
    (Token.after broken ⟨pos, Piece.allText pieces ++ closing :: tail⟩).flaw = none := by
  induction pieces generalizing pos broken with
  | nil =>
    rw [Piece.allText_nil, List.nil_append, after_closing hclosing]
  | cons piece rest ih =>
    have hrest : ∀ piece ∈ rest, piece.IsRead run markup := fun p hp =>
      hread p (List.mem_cons_of_mem _ hp)
    cases piece with
    | space text =>
      obtain ⟨brk, hspace⟩ := IsSpacing.after (hread (.space text) List.mem_cons_self)
      rw [Piece.allText_cons, Piece.text, List.append_assoc, hspace]
      exact ih hrest hlist
    | comma =>
      have hcomma : Token.after broken ⟨pos, ',' :: (Piece.allText rest ++ closing :: tail)⟩ = _ :=
        after_sign (by decide) _ _ _
      exact congrArg Token.flaw hcomma
    | item text read =>
      cases expects with
      | false => cases hlist
      | true =>
        have hitem : ReadsAlone run markup text read := hread (.item text read) List.mem_cons_self
        rw [Piece.allText_cons, Piece.text, List.append_assoc]
        exact (hitem.begins broken pos _ (separates_behind hclosing hrest hlist)).flaw

/-- Nothing is passed before a closing sign. -/
theorem commaUnless_run_closing {c : Cursor} (h : c.token.lexeme = .sign [closing]) :
    (commaUnless [closing]).run m c = .done () c := by
  have hsign : c.token.isSign [closing] = true := by
    rw [Token.isSign_of_sign h]
    exact beq_self_eq_true _
  simp only [commaUnless, bind_run, isSign_run, hsign, Bool.not_true, Bool.false_eq_true, if_false,
    pure_run]

theorem commaUnless_run_comma (hclosing : closing = ']' ∨ closing = '\x7d') {c : Cursor}
    (h : c.token.lexeme = .sign ",") : (commaUnless [closing]).run m c = .done () c.advanced := by
  have hsign : c.token.isSign [closing] = false := by
    rw [Token.isSign_of_sign h]
    rcases hclosing with rfl | rfl
    · decide
    · decide
  have hcomma : c.token.isSign "," = true := by
    rw [Token.isSign_of_sign h]
    decide
  simp only [commaUnless, expect, bind_run, isSign_run, hsign, hcomma, Bool.not_false, if_true,
    advance_run]

/-- At the closing sign the loop ends, and no comma is needed before it. -/
theorem many_gives_closing {item : Parser α} (hstep : IsListStep step item m closing) {t : Token}
    (ht : t.lexeme = .sign [closing]) (fuel : Nat) :
    (many step (fuel + 1)).GivesAt m t [] t ∧
      (do commaUnless [closing]; many step (fuel + 1)).GivesAt m t [] t := by
  have hnone : ∀ c : Cursor, c.token = t → (many step (fuel + 1)).run m c = .done [] c := by
    intro c hc
    exact many_run_none m c (Nat.succ_pos fuel) (hstep.atEnd c (hc ▸ ht))
  constructor
  · intro c hc
    exact ⟨c, hnone c hc, hc, fun _ => rfl⟩
  · intro c hc
    refine ⟨c, ?_, hc, fun _ => rfl⟩
    rw [bind_run, commaUnless_run_closing (hc ▸ ht)]
    exact hnone c hc

/-- Behind a comma the loop goes on. -/
theorem gives_comma {β : Type} {p : Parser β} {b : β} {u : Token}
    (hclosing : closing = ']' ∨ closing = '\x7d')
    (h : p.GivesAt m (Token.after false ⟨pos + 1, s⟩) b u)
    (hflaw : (Token.after false ⟨pos + 1, s⟩).flaw = none) :
    (do commaUnless [closing]; p).GivesAt m (Token.after broken ⟨pos, ',' :: s⟩) b u := by
  intro c hc
  have hcomma : c.token = _ := hc.trans (after_sign (by decide) broken pos s)
  have hadvanced : c.advanced.token = Token.after false ⟨pos + 1, s⟩ :=
    Cursor.advanced_token hcomma rfl
  obtain ⟨d, hrun, hd, hkeeps⟩ := h c.advanced hadvanced
  refine ⟨d, ?_, hd, fun hnone => (hkeeps hnone).trans (Cursor.advanced_flaw ?_)⟩
  · rw [bind_run, commaUnless_run_comma hclosing (congrArg Token.lexeme hcomma)]
    exact hrun
  · rw [hadvanced]
    exact hflaw

/-- An item comes before what the loop reads behind it. -/
theorem many_gives_item {item : Parser α} (hstep : IsListStep step item m closing) {t u v : Token}
    {a : α} {l : List α} {fuel : Nat} (hbegins : t.Begins) (hitem : item.GivesAt m t a u)
    (hflaw : u.flaw = none) (hmore : (do commaUnless [closing]; many step fuel).GivesAt m u l v) :
    (many step (fuel + 1)).GivesAt m t (a :: l) v := by
  intro c hc
  obtain ⟨d, hrun, hd, hkeeps⟩ := hitem c hc
  obtain ⟨e, hrest, he, hkeeps'⟩ := hmore d hd
  obtain ⟨u', f, hcomma, hloop⟩ := (bind_eq_done _ _).1 hrest
  have hread := hstep.atItem c d a (hc ▸ hbegins) hrun
  refine ⟨e, ?_, he, fun hnone => (hkeeps' hnone).trans (hkeeps hflaw)⟩
  simp only [many, bind_run, hread, hcomma, pure_run, hloop]

/-- What the loop over a list reads: in the one case an item is expected, in the other the comma
behind one. -/
theorem many_gives (hstep : IsListStep step (run (rules depth)) (Mode.start markup) closing)
    (hread : ∀ piece ∈ pieces, piece.IsRead run markup)
    (hdepth : depthFor (Piece.allText pieces) ≤ depth) {fuel : Nat}
    (hfuel : (Piece.allText pieces).length < fuel) :
    (Piece.isList true pieces = true → ∃ brk, (many step fuel).GivesAt (Mode.start markup)
      (Token.after broken ⟨pos, Piece.allText pieces ++ closing :: tail⟩) (Piece.values pos pieces)
      (Token.after brk ⟨pos + Text.size (Piece.allText pieces), closing :: tail⟩)) ∧
    (Piece.isList false pieces = true → ∃ brk,
      (do commaUnless [closing]; many step fuel).GivesAt (Mode.start markup)
        (Token.after broken ⟨pos, Piece.allText pieces ++ closing :: tail⟩)
        (Piece.values pos pieces)
        (Token.after brk ⟨pos + Text.size (Piece.allText pieces), closing :: tail⟩)) := by
  induction pieces generalizing pos broken fuel with
  | nil =>
    obtain ⟨fuel, rfl⟩ := Nat.exists_eq_succ_of_ne_zero (Nat.ne_of_gt hfuel)
    have hend : (Token.after broken ⟨pos, closing :: tail⟩).lexeme = .sign [closing] :=
      congrArg Token.lexeme (after_closing hstep.closes broken pos tail)
    obtain ⟨hloop, hcomma⟩ := many_gives_closing hstep hend fuel
    exact ⟨fun _ => ⟨broken, hloop⟩, fun _ => ⟨broken, hcomma⟩⟩
  | cons piece rest ih =>
    have hrest : ∀ piece ∈ rest, piece.IsRead run markup := fun p hp =>
      hread p (List.mem_cons_of_mem _ hp)
    rw [Piece.allText_cons] at hfuel hdepth ⊢
    rw [List.length_append] at hfuel
    rw [depthFor, List.length_append] at hdepth
    have hinner : depthFor (Piece.allText rest) ≤ depth := by
      unfold depthFor
      omega
    have hsize : pos + Text.size (piece.text ++ Piece.allText rest) =
        pos + Text.size piece.text + Text.size (Piece.allText rest) := by
      rw [Text.size_append, Nat.add_assoc]
    rw [hsize, List.append_assoc]
    cases piece with
    | space between =>
      obtain ⟨brk, hspace⟩ := IsSpacing.after (hread (.space between) List.mem_cons_self)
      rw [Piece.text, hspace]
      exact ih hrest hinner (by omega)
    | comma =>
      have hexpects : Piece.isList true (.comma :: rest) ≠ true := by
        intro hlist
        cases hlist
      refine ⟨fun hlist => absurd hlist hexpects, fun hlist => ?_⟩
      obtain ⟨brk, hgives⟩ := (@ih (pos + 1) false hrest hinner fuel (by omega)).1 hlist
      exact ⟨brk, gives_comma hstep.closes hgives (flaw_pieces hstep.closes hrest hlist)⟩
    | item text read =>
      have hseparate : Piece.isList false (.item text read :: rest) ≠ true := by
        intro hlist
        cases hlist
      refine ⟨fun hlist => ?_, fun hlist => absurd hlist hseparate⟩
      have hitem : ReadsAlone run markup text read := hread (.item text read) List.mem_cons_self
      have hpositive : 0 < text.length := List.length_pos_iff.2 hitem.ne_nil
      rw [Piece.text] at hfuel hdepth ⊢
      obtain ⟨fuel, rfl⟩ : ∃ n, fuel = n + 1 := Nat.exists_eq_add_of_le' (by omega)
      have hown : depthFor text ≤ depth := by
        unfold depthFor
        omega
      obtain ⟨brk, hgives⟩ :=
        (@ih (pos + Text.size text) false hrest hinner fuel (by omega)).2 hlist
      have hseparates : SeparatesAt ⟨pos + Text.size text, Piece.allText rest ++ closing :: tail⟩ :=
        separates_behind hstep.closes hrest hlist
      exact ⟨brk, many_gives_item hstep (hitem.begins broken pos _ hseparates)
        (hitem.gives depth broken pos _ hown hseparates) (flaw_pieces hstep.closes hrest hlist)
        hgives⟩

/-- A list with its brackets. -/
def bracketed (step : Parser (Option α)) (fuel : Nat) (closing : Char)
    (make : List α → Span → Expr) : Parser Expr := do
  let start ← here
  advance
  let items ← many step fuel
  expect [closing]
  return make items (← spanFrom start)

/-- Brackets around a list: the items, and the span from the one bracket to the other. -/
theorem bracketed_gives {opening : Char} (hopening : opening = '[' ∨ opening = '\x7b')
    (hstep : IsListStep step (run (rules depth)) (Mode.start markup) closing)
    (hread : ∀ piece ∈ pieces, piece.IsRead run markup) (hlist : Piece.isList true pieces = true)
    (hdepth : depthFor (Piece.allText pieces) ≤ depth) (make : List α → Span → Expr) :
    (bracketed step depth closing make).GivesAt (Mode.start markup)
        (Token.after broken ⟨pos, opening :: (Piece.allText pieces ++ closing :: tail)⟩)
        (make (Piece.values (pos + 1) pieces) ⟨pos, pos + 1 + Text.size (Piece.allText pieces) + 1⟩)
        (Token.next ⟨pos + 1 + Text.size (Piece.allText pieces) + 1, tail⟩) := by
  intro c hc
  have hopens : Token.after broken ⟨pos, opening :: (Piece.allText pieces ++ closing :: tail)⟩ =
      ⟨.sign [opening], ⟨pos, opening :: (Piece.allText pieces ++ closing :: tail)⟩,
        ⟨pos + 1, Piece.allText pieces ++ closing :: tail⟩, broken, none⟩ := by
    rcases hopening with rfl | rfl
    · exact after_sign (by decide) _ _ _
    · exact after_sign (by decide) _ _ _
  have htoken : c.token = _ := hc.trans hopens
  have hadvanced : c.advanced.token =
      Token.after false ⟨pos + 1, Piece.allText pieces ++ closing :: tail⟩ :=
    Cursor.advanced_token htoken rfl
  have hfuel : (Piece.allText pieces).length < depth := by
    unfold depthFor at hdepth
    omega
  obtain ⟨brk, hgives⟩ :=
    (@many_gives α tail (pos + 1) false closing pieces run markup depth step hstep hread hdepth depth
      hfuel).1 hlist
  obtain ⟨d, hrun, hd, hflaw⟩ := hgives c.advanced hadvanced
  have hclosing : d.token = _ := hd.trans (after_closing hstep.closes _ _ _)
  have hexpect : (expect [closing]).run (Mode.start markup) d = .done () d.advanced := by
    have hsign : d.token.isSign [closing] = true := by
      rw [hclosing]
      exact beq_self_eq_true _
    simp only [expect, bind_run, isSign_run, hsign, if_true, advance_run]
  have hlast : d.advanced.lastStop = pos + 1 + Text.size (Piece.allText pieces) + 1 := by
    have hstop : d.advanced.lastStop = d.token.stop.pos := rfl
    rw [hstop, hclosing]
  refine ⟨d.advanced, ?_, Cursor.advanced_token hclosing rfl, fun hnone => ?_⟩
  · simp only [bracketed, bind_run, here_run, advance_run, hrun, hexpect, spanFrom_run, pure_run,
      hlast, htoken]
  · have hsame : d.flaw = c.advanced.flaw := hflaw (by rw [after_closing hstep.closes])
    rw [Cursor.advanced_flaw (by rw [Cursor.advanced_token hclosing rfl]; exact hnone), hsame]
    exact Cursor.advanced_flaw (by rw [hadvanced]; exact flaw_pieces hstep.closes hread hlist)

end Loop

/-! ## Arrays and objects -/

/-- An element of an array. -/
def Rules.element (r : Rules) : Parser Element := do
  if ← eat "..." then return .spread (← r.fullAssignment)
  else return .item (← r.fullAssignment)

def Rules.elementStep (r : Rules) : Parser (Option Element) := do
  if (← isDone) || (← isSign "]") then return none
  if ← eat "," then return some Element.hole
  let element ← if ← eat "..." then pure (Element.spread (← r.fullAssignment))
    else pure (Element.item (← r.fullAssignment))
  commaUnless "]"
  return some element

theorem arrayLiteral_eq (n : Nat) :
    (rules n).arrayLiteral = bracketed (rules n).elementStep n ']' Expr.array := by
  cases n with
  | zero => rfl
  | succ n => rfl

def Rules.propertyStep (r : Rules) : Parser (Option Property) := do
  if ← isSign "\x7d" then return none
  let property ← r.objectProperty
  commaUnless "\x7d"
  return some property

/-- In the mode at the start of a source no colon ends an expression anyway. -/
theorem objectLiteral_run (n : Nat) (markup : Bool) (c : Cursor) :
    (rules n).objectLiteral.run (Mode.start markup) c =
      (bracketed (rules n).propertyStep n '\x7d' Expr.object).run (Mode.start markup) c := by
  cases n with
  | zero => rfl
  | succ n => rfl

theorem isListStep_element (r : Rules) (m : Mode) : IsListStep r.elementStep r.element m ']' := by
  refine ⟨.inl rfl, fun c hc => ?_, fun c d a hbegins hrun => ?_⟩
  · have hdone : c.token.isDone = false := by
      rw [Token.isDone, hc]
      rfl
    have hsign : c.token.isSign "]" = true := by
      rw [Token.isSign_of_sign hc]
      decide
    simp only [Rules.elementStep, isDone, bind_run, token_run, pure_run, isSign_run, hdone, hsign,
      Bool.false_or, if_true]
  · have hdone : c.token.isDone = false := decide_eq_false hbegins.done
    have hsign : c.token.isSign "]" = false := hbegins.isSign (.inr (.inl rfl))
    have hcomma : c.token.isSign "," = false := hbegins.isSign (.inl rfl)
    unfold Rules.element at hrun
    rw [bind_run] at hrun
    cases hspread : c.token.isSign "..." with
    | true =>
      rw [eat_run_true _ _ hspread] at hrun
      obtain ⟨value, e, hvalue, hgive⟩ := (bind_eq_done _ _).1 hrun
      cases hgive
      simp only [Rules.elementStep, isDone, bind_run, token_run, pure_run, isSign_run, hdone, hsign,
        eat_run_false _ _ hcomma, eat_run_true _ _ hspread, hvalue, Bool.or_self,
        Bool.false_eq_true, if_false, if_true]
      rfl
    | false =>
      rw [eat_run_false _ _ hspread] at hrun
      obtain ⟨value, e, hvalue, hgive⟩ := (bind_eq_done _ _).1 hrun
      cases hgive
      simp only [Rules.elementStep, isDone, bind_run, token_run, pure_run, isSign_run, hdone, hsign,
        eat_run_false _ _ hcomma, eat_run_false _ _ hspread, hvalue, Bool.or_self,
        Bool.false_eq_true, if_false]
      rfl

theorem isListStep_property (r : Rules) (m : Mode) :
    IsListStep r.propertyStep r.objectProperty m '\x7d' := by
  refine ⟨.inr rfl, fun c hc => ?_, fun c d a hbegins hrun => ?_⟩
  · have hsign : c.token.isSign "\x7d" = true := by
      rw [Token.isSign_of_sign hc]
      decide
    simp only [Rules.propertyStep, bind_run, isSign_run, hsign, if_true, pure_run]
  · have hsign : c.token.isSign "\x7d" = false := hbegins.isSign (.inr (.inr rfl))
    simp only [Rules.propertyStep, bind_run, isSign_run, hsign, Bool.false_eq_true, if_false, hrun]
    rfl

theorem isOperand_of_sign {t : Token} {x : Text} (h : t.lexeme = .sign x)
    (hx : x ∈ Text.texts ["[", "\x7b"]) : t.IsOperand := by
  refine ⟨fun y hy => ?_, fun w hw => ?_, fun offset hfault => ?_⟩
  · cases h.symm.trans hy
    exact hx
  · cases h.symm.trans hw
  · cases h.symm.trans hfault

/-- A bracket begins the literal of its list. -/
theorem primary_run_array (n : Nat) (m : Mode) {c : Cursor} (h : c.token.lexeme = .sign "[") :
    (rules n).primary.run m c = (bracketed (rules n).elementStep n ']' Expr.array).run m c := by
  unfold Rules.primary
  rw [bind_run, token_run, ← arrayLiteral_eq]
  dsimp only
  rw [h]
  rfl

theorem primary_run_object (n : Nat) (markup : Bool) {c : Cursor}
    (h : c.token.lexeme = .sign "\x7b") : (rules n).primary.run (Mode.start markup) c =
      (bracketed (rules n).propertyStep n '\x7d' Expr.object).run (Mode.start markup) c := by
  unfold Rules.primary
  rw [bind_run, token_run, ← objectLiteral_run]
  dsimp only
  rw [h]
  rfl

section Literal

variable {markup : Bool} {depth : Nat} {opening closing : Char} {pieces : List (Piece α)}
  {run : Rules → Parser α} {step : Rules → Parser (Option α)} {make : List α → Span → Expr}

/-- A list with its brackets is read as a value where no expression goes on behind it. -/
theorem list_gives (hopening : opening = '[' ∨ opening = '\x7b')
    (hform : ∀ items span, (make items span).form? = none)
    (hstep : ∀ r m, IsListStep (step r) (run r) m closing)
    (hprimary : ∀ n c, c.token.lexeme = .sign [opening] →
      (rules n).primary.run (Mode.start markup) c =
        (bracketed (step (rules n)) n closing make).run (Mode.start markup) c)
    (hread : ∀ piece ∈ pieces, piece.IsRead run markup) (hlist : Piece.isList true pieces = true)
    (hdepth : depthFor (opening :: (Piece.allText pieces ++ [closing])) ≤ depth)
    (hstops : (Token.next ⟨pos + 1 + Text.size (Piece.allText pieces) + 1, tail⟩).Stops) :
    (rules depth).fullAssignment.GivesAt (Mode.start markup)
      (Token.after broken ⟨pos, opening :: (Piece.allText pieces ++ closing :: tail)⟩)
      (make (Piece.values (pos + 1) pieces) ⟨pos, pos + 1 + Text.size (Piece.allText pieces) + 1⟩)
      (Token.next ⟨pos + 1 + Text.size (Piece.allText pieces) + 1, tail⟩) := by
  have hlength : (opening :: (Piece.allText pieces ++ [closing])).length =
      (Piece.allText pieces).length + 2 := by simp
  obtain ⟨n, rfl⟩ : ∃ n, depth = n + 5 := Nat.exists_eq_add_of_le' (by
    unfold depthFor at hdepth
    omega)
  have hinner : depthFor (Piece.allText pieces) ≤ n + 1 := by
    unfold depthFor at hdepth ⊢
    omega
  have hopens : (Token.after broken
      ⟨pos, opening :: (Piece.allText pieces ++ closing :: tail)⟩).lexeme = .sign [opening] := by
    rcases hopening with rfl | rfl
    · rw [after_sign (by decide)]
    · rw [after_sign (by decide)]
  have hoperand : (Token.after broken
      ⟨pos, opening :: (Piece.allText pieces ++ closing :: tail)⟩).IsOperand := by
    apply isOperand_of_sign hopens
    rcases hopening with rfl | rfl
    · decide
    · decide
  apply fullAssignment_gives hoperand hstops (hform _ _)
  intro c hc
  obtain ⟨d, hrun, hd⟩ := bracketed_gives hopening (hstep _ _) hread hlist hinner make c hc
  exact ⟨d, (hprimary _ _ (by rw [hc, hopens])).trans hrun, hd⟩

end Literal

/-- The text of a list between its brackets. -/
def Piece.bracketed (opening closing : Char) (pieces : List (Piece α)) : Text :=
  opening :: (Piece.allText pieces ++ [closing])

theorem Piece.size_bracketed {opening closing : Char} (hopening : opening = '[' ∨ opening = '\x7b')
    (hclosing : closing = ']' ∨ closing = '\x7d') (pieces : List (Piece α)) :
    Text.size (Piece.bracketed opening closing pieces) =
      1 + Text.size (Piece.allText pieces) + 1 := by
  have hsize : opening.utf8Size = 1 ∧ closing.utf8Size = 1 := by
    rcases hopening with rfl | rfl <;> rcases hclosing with rfl | rfl <;> decide
  simp only [Piece.bracketed, Text.size, Text.size_append]
  omega

/-- An array literal at a place. -/
def Piece.array (pieces : List (Piece Element)) (pos : Nat) : Expr :=
  .array (Piece.values (pos + 1) pieces)
    ⟨pos, pos + Text.size (Piece.bracketed '[' ']' pieces)⟩

/-- An object literal at a place. -/
def Piece.object (pieces : List (Piece Property)) (pos : Nat) : Expr :=
  .object (Piece.values (pos + 1) pieces)
    ⟨pos, pos + Text.size (Piece.bracketed '\x7b' '\x7d' pieces)⟩

section Literal

variable {markup : Bool} {depth : Nat}

theorem array_gives {pieces : List (Piece Element)}
    (hread : ∀ piece ∈ pieces, piece.IsRead Rules.element markup)
    (hlist : Piece.isList true pieces = true)
    (hdepth : depthFor (Piece.bracketed '[' ']' pieces) ≤ depth)
    (hstops : (Token.next ⟨pos + Text.size (Piece.bracketed '[' ']' pieces), tail⟩).Stops) :
    (rules depth).fullAssignment.GivesAt (Mode.start markup)
      (Token.after broken ⟨pos, Piece.bracketed '[' ']' pieces ++ tail⟩) (Piece.array pieces pos)
      (Token.next ⟨pos + Text.size (Piece.bracketed '[' ']' pieces), tail⟩) := by
  have htext : Piece.bracketed '[' ']' pieces ++ tail =
      '[' :: (Piece.allText pieces ++ ']' :: tail) := by
    simp [Piece.bracketed]
  have hsize : pos + Text.size (Piece.bracketed '[' ']' pieces) =
      pos + 1 + Text.size (Piece.allText pieces) + 1 := by
    rw [Piece.size_bracketed (.inl rfl) (.inl rfl)]
    omega
  rw [Piece.array, htext]
  rw [hsize] at hstops ⊢
  exact list_gives (.inl rfl) (fun _ _ => rfl) isListStep_element
    (fun n c h => primary_run_array n _ h) hread hlist hdepth hstops

theorem object_gives {pieces : List (Piece Property)}
    (hread : ∀ piece ∈ pieces, piece.IsRead Rules.objectProperty markup)
    (hlist : Piece.isList true pieces = true)
    (hdepth : depthFor (Piece.bracketed '\x7b' '\x7d' pieces) ≤ depth)
    (hstops : (Token.next ⟨pos + Text.size (Piece.bracketed '\x7b' '\x7d' pieces), tail⟩).Stops) :
    (rules depth).fullAssignment.GivesAt (Mode.start markup)
      (Token.after broken ⟨pos, Piece.bracketed '\x7b' '\x7d' pieces ++ tail⟩)
      (Piece.object pieces pos)
      (Token.next ⟨pos + Text.size (Piece.bracketed '\x7b' '\x7d' pieces), tail⟩) := by
  have htext : Piece.bracketed '\x7b' '\x7d' pieces ++ tail =
      '\x7b' :: (Piece.allText pieces ++ '\x7d' :: tail) := by
    simp [Piece.bracketed]
  have hsize : pos + Text.size (Piece.bracketed '\x7b' '\x7d' pieces) =
      pos + 1 + Text.size (Piece.allText pieces) + 1 := by
    rw [Piece.size_bracketed (.inr rfl) (.inr rfl)]
    omega
  rw [Piece.object, htext]
  rw [hsize] at hstops ⊢
  exact list_gives (.inr rfl) (fun _ _ => rfl) isListStep_property
    (fun n c h => primary_run_object n _ h) hread hlist hdepth hstops

end Literal

end RoutePages.Script
