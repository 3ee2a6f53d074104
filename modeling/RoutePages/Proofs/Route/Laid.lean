import RoutePages.Edit.Removal
import RoutePages.Proofs.Edit.Replace
import RoutePages.Proofs.Route.Settle
import RoutePages.Proofs.Script.Values

/-!
# Route arrays that are laid out

The text of a route array is cut into pieces: what is kept, what a rewrite removes, and what it
replaces. From the pieces follow the tree that is read, the edits, and the text and tree that are
left.
-/
namespace RoutePages

open Script

/-- The directive that a property is, with its range. -/
def Script.Property.directive? : Property → Option DirectiveSpan
  | .field key value => (key.text?.bind Directive.ofKey?).map (⟨·, ⟨key.span.start, value.stop⟩⟩)
  | _ => none

mutual

/-- What stands between the brackets of a route array. -/
inductive Layout.Entries where
  | done
  | space (text : Text) (rest : Layout.Entries)
  | comma (rest : Layout.Entries)
  /-- an entry with its braces -/
  | entry (fields : Layout.Fields) (rest : Layout.Entries)
  /-- an element that is no entry -/
  | other (text : Text) (read : Nat → Element) (rest : Layout.Entries)

/-- What stands between the braces of an entry. -/
inductive Layout.Fields where
  | done
  | space (text : Text) (rest : Layout.Fields)
  | comma (rest : Layout.Fields)
  /-- what is removed at once: a run of directives, and what goes with it on both sides -/
  | cut (left run right : List (Piece Property)) (rest : Layout.Fields)
  /-- a page that is planned, whose identifier replaces the text behind the key -/
  | page (head : Text) (key : Nat → Key) (text : Text) (read : Nat → Expr) (identifier : Text)
      (rest : Layout.Fields)
  /-- the array of the entries below, behind its key -/
  | children (head : Text) (key : Nat → Key) (entries : Layout.Entries) (rest : Layout.Fields)
  | other (text : Text) (read : Nat → Property) (rest : Layout.Fields)

end

namespace Layout

/-- A property at a place, with its value behind the text of the key. -/
def behind (head : Text) (key : Nat → Key) (read : Nat → Expr) (pos : Nat) : Property :=
  .field (key pos) (read (pos + Text.size head))

/-- An identifier at a place. -/
def named (identifier : Text) (pos : Nat) : Expr :=
  .ident identifier ⟨pos, pos + Text.size identifier⟩

mutual

/-- The pieces in which the elements are read. -/
def Entries.pieces : Entries → List (Piece Element)
  | .done => []
  | .space text rest => .space text :: rest.pieces
  | .comma rest => .comma :: rest.pieces
  | .entry fields rest =>
    .item (Piece.bracketed '\x7b' '\x7d' fields.pieces)
      (fun pos => .item (Piece.object fields.pieces pos)) :: rest.pieces
  | .other text read rest => .item text read :: rest.pieces

/-- The pieces in which the properties are read. -/
def Fields.pieces : Fields → List (Piece Property)
  | .done => []
  | .space text rest => .space text :: rest.pieces
  | .comma rest => .comma :: rest.pieces
  | .cut left run right rest => left ++ run ++ right ++ rest.pieces
  | .page head key text read _ rest => .item (head ++ text) (behind head key read) :: rest.pieces
  | .children head key entries rest =>
    .item (head ++ Piece.bracketed '[' ']' entries.pieces)
      (behind head key (Piece.array entries.pieces)) :: rest.pieces
  | .other text read rest => .item text read :: rest.pieces

end

mutual

/-- What a rewrite leaves. -/
def Entries.settle : Entries → Entries
  | .done => .done
  | .space text rest => .space text rest.settle
  | .comma rest => .comma rest.settle
  | .entry fields rest => .entry fields.settle rest.settle
  | .other text read rest => .other text read rest.settle

def Fields.settle : Fields → Fields
  | .done => .done
  | .space text rest => .space text rest.settle
  | .comma rest => .comma rest.settle
  | .cut _ _ _ rest => rest.settle
  | .page head key _ _ identifier rest =>
    .other (head ++ identifier) (behind head key (named identifier)) rest.settle
  | .children head key entries rest => .children head key entries.settle rest.settle
  | .other text read rest => .other text read rest.settle

end

mutual

/-- What a rewrite does to the text at a place, from its start to its end. -/
def Entries.edits : Entries → Nat → List Edit
  | .done, _ => []
  | .space text rest, pos => rest.edits (pos + Text.size text)
  | .comma rest, pos => rest.edits (pos + 1)
  | .entry fields rest, pos => fields.edits (pos + 1) ++
    rest.edits (pos + Text.size (Piece.bracketed '\x7b' '\x7d' fields.pieces))
  | .other text _ rest, pos => rest.edits (pos + Text.size text)

def Fields.edits : Fields → Nat → List Edit
  | .done, _ => []
  | .space text rest, pos => rest.edits (pos + Text.size text)
  | .comma rest, pos => rest.edits (pos + 1)
  | .cut left run right rest, pos =>
    ⟨⟨pos, pos + Text.size (Piece.allText (left ++ run ++ right))⟩, []⟩ ::
      rest.edits (pos + Text.size (Piece.allText (left ++ run ++ right)))
  | .page head _ text _ identifier rest, pos =>
    ⟨⟨pos + Text.size head, pos + Text.size head + Text.size text⟩, identifier⟩ ::
      rest.edits (pos + Text.size (head ++ text))
  | .children head _ entries rest, pos => entries.edits (pos + Text.size head + 1) ++
    rest.edits (pos + Text.size (head ++ Piece.bracketed '[' ']' entries.pieces))
  | .other text _ rest, pos => rest.edits (pos + Text.size text)

end

mutual

/-- In all brackets commas stand between the items. -/
def Entries.isListed : Entries → Bool
  | .done => true
  | .space _ rest | .comma rest | .other _ _ rest => rest.isListed
  | .entry fields rest => Piece.isList true fields.pieces && fields.isListed && rest.isListed

def Fields.isListed : Fields → Bool
  | .done => true
  | .space _ rest | .comma rest | .cut _ _ _ rest | .page _ _ _ _ _ rest | .other _ _ rest =>
    rest.isListed
  | .children _ _ entries rest =>
    Piece.isList true entries.pieces && entries.isListed && rest.isListed

end

mutual

/-- One comma goes with each directive that is removed, or nothing but spacing is behind it in its
entry. -/
def Entries.isEven : Entries → Bool
  | .done => true
  | .space _ rest | .comma rest | .other _ _ rest => rest.isEven
  | .entry fields rest => fields.isEven && rest.isEven

def Fields.isEven : Fields → Bool
  | .done => true
  | .space _ rest | .comma rest | .page _ _ _ _ _ rest | .other _ _ rest => rest.isEven
  | .cut left run right rest =>
    (Piece.isEven (left ++ run ++ right) || rest.pieces.all Piece.isSpace) && rest.isEven
  | .children _ _ entries rest => entries.isEven && rest.isEven

end

mutual

/-- The texts are read as the pieces say. -/
def Entries.IsRead (markup : Bool) : Entries → Prop
  | .done => True
  | .space text rest => IsSpacing text ∧ rest.IsRead markup
  | .comma rest => rest.IsRead markup
  | .entry fields rest => fields.IsRead markup ∧ rest.IsRead markup
  | .other text read rest => ReadsAlone Rules.element markup text read ∧ rest.IsRead markup

def Fields.IsRead (markup : Bool) : Fields → Prop
  | .done => True
  | .space text rest => IsSpacing text ∧ rest.IsRead markup
  | .comma rest => rest.IsRead markup
  | .cut left run right rest =>
    (∀ piece ∈ left ++ run ++ right, piece.IsRead Rules.objectProperty markup) ∧ rest.IsRead markup
  | .page head key text read _ rest => IsFieldHead markup head key ∧
    ReadsAlone Rules.fullAssignment markup text read ∧ rest.IsRead markup
  | .children head key entries rest => IsFieldHead markup head key ∧ entries.IsRead markup ∧
    rest.IsRead markup
  | .other text read rest => ReadsAlone Rules.objectProperty markup text read ∧ rest.IsRead markup

end

/-- The text is a directive from its start to its end. -/
def IsDirective (text : Text) (read : Nat → Property) : Prop :=
  text ≠ [] ∧ ∀ pos, ∃ directive,
    (read pos).directive? = some ⟨directive, ⟨pos, pos + Text.size text⟩⟩

/-- Directives with just a comma between each and the next. -/
inductive IsRun : List (Piece Property) → Prop
  | one {text : Text} {read : Nat → Property} (hfirst : IsDirective text read) :
    IsRun [.item text read]
  | more {text : Text} {read : Nat → Property} {between run : List (Piece Property)}
    (hfirst : IsDirective text read) (hbetween : between.any Piece.isItem = false)
    (hcomma : Removal.isComma (Piece.allText between) = true) (hrun : IsRun run) :
    IsRun (.item text read :: (between ++ run))

/-- A run of directives, with nothing but spacing and commas around it. -/
structure IsCut (left run right : List (Piece Property)) : Prop where
  left : left.any Piece.isItem = false
  run : IsRun run
  right : right.any Piece.isItem = false

mutual

/-- The pieces at a place are what the names of pages make of them: the pages that are named are
replaced, the directives are removed, and all else is kept. -/
def Entries.Settles (names : PageNames) : Entries → Nat → Prop
  | .done, _ => True
  | .space text rest, pos => rest.Settles names (pos + Text.size text)
  | .comma rest, pos => rest.Settles names (pos + 1)
  | .entry fields rest, pos => fields.Settles names (pos + 1) ∧
    rest.Settles names (pos + Text.size (Piece.bracketed '\x7b' '\x7d' fields.pieces))
  | .other text read rest, pos => (read pos).settle names = read pos ∧
    (∀ p, (read p).bare = (read pos).bare) ∧ rest.Settles names (pos + Text.size text)

def Fields.Settles (names : PageNames) : Fields → Nat → Prop
  | .done, _ => True
  | .space text rest, pos => rest.Settles names (pos + Text.size text)
  | .comma rest, pos => rest.Settles names (pos + 1)
  | .cut left run right rest, pos => IsCut left run right ∧
    rest.Settles names (pos + Text.size (Piece.allText (left ++ run ++ right)))
  | .page head key text read identifier rest, pos => (key pos).text? = some ("component" : Text) ∧
    (∀ p, (key p).bare = (key pos).bare) ∧ (∃ value, Component.ofExpr (read (pos + Text.size head)) =
      .path value ⟨pos + Text.size head, pos + Text.size head + Text.size text⟩) ∧
    names ⟨pos + Text.size head, pos + Text.size head + Text.size text⟩ = some identifier ∧
      rest.Settles names (pos + Text.size (head ++ text))
  | .children head key entries rest, pos =>
    (∃ name, (key pos).text? = some name ∧ holdsChildren name = true) ∧
    (∀ p, (key p).bare = (key pos).bare) ∧ entries.Settles names (pos + Text.size head + 1) ∧
      rest.Settles names (pos + Text.size (head ++ Piece.bracketed '[' ']' entries.pieces))
  | .other text read rest, pos => Property.settleAll names [read pos] = [read pos] ∧
    (∀ p, (read p).bare = (read pos).bare) ∧ rest.Settles names (pos + Text.size text)

end

/-! ## What is cut out -/

theorem IsRun.ne_nil {run : List (Piece Property)} (h : IsRun run) : Piece.allText run ≠ [] := by
  have hfirst : ∀ text rest : Text, text ≠ [] → text ++ rest ≠ [] :=
    fun text rest htext => List.append_ne_nil_of_left_ne_nil htext rest
  cases h with
  | one hdirective => exact hfirst _ _ hdirective.1
  | more hdirective => exact hfirst _ _ hdirective.1

/-- All that is read of a run are directives. -/
theorem IsRun.values {run : List (Piece Property)} (h : IsRun run) (pos : Nat) :
    ∀ p ∈ Piece.values pos run, p.directive?.isSome = true := by
  have hsome : ∀ {text : Text} {read : Nat → Property} (pos : Nat), IsDirective text read →
      (read pos).directive?.isSome = true := by
    intro text read pos hdirective
    obtain ⟨directive, hread⟩ := hdirective.2 pos
    rw [hread]
    rfl
  induction h generalizing pos with
  | one hdirective => exact List.forall_mem_singleton.2 (hsome pos hdirective)
  | more hdirective hbetween _ _ ih =>
    rw [Piece.values, Piece.values_append, Piece.values_between hbetween]
    exact List.forall_mem_cons.2 ⟨hsome pos hdirective, ih _⟩

theorem IsCut.values {left run right : List (Piece Property)} (h : IsCut left run right)
    (pos : Nat) : Piece.values pos (left ++ run ++ right) =
      Piece.values (pos + Text.size (Piece.allText left)) run := by
  rw [Piece.values_append, Piece.values_append, Piece.values_between h.left,
    Piece.values_between h.right, List.nil_append, List.append_nil]

theorem IsCut.ne_nil {left run right : List (Piece Property)} (h : IsCut left run right) :
    Piece.allText (left ++ run ++ right) ≠ [] := by
  rw [Piece.allText_append, Piece.allText_append]
  exact List.append_ne_nil_of_left_ne_nil (List.append_ne_nil_of_right_ne_nil _ h.run.ne_nil) _

/-- A directive is removed. -/
theorem settleAll_directive (names : PageNames) {p : Property} (h : p.directive?.isSome = true)
    (rest : List Property) :
    Property.settleAll names (p :: rest) = Property.settleAll names rest := by
  cases p with
  | field key value =>
    rw [Script.Property.directive?, Option.isSome_map] at h
    obtain ⟨directive, hdirective⟩ := Option.isSome_iff_exists.1 h
    obtain ⟨name, hkey, hname⟩ := Option.bind_eq_some_iff.1 hdirective
    have hsome : (Directive.ofKey? name).isSome = true := Option.isSome_iff_exists.2 ⟨_, hname⟩
    have hholds : holdsChildren name = false := by
      cases Directive.ofKey?_eq_some.1 hname
      cases directive <;> decide
    rw [settleAll_field value rest hkey hholds, Property.settleField, if_pos hsome, List.nil_append]
  | shorthand name span => cases h
  | spread value => cases h
  | default name value span => cases h
  | method parts span => cases h

theorem IsCut.settleAll {names : PageNames} {left run right : List (Piece Property)}
    (h : IsCut left run right) (pos : Nat) :
    Property.settleAll names (Piece.values pos (left ++ run ++ right)) = [] := by
  have hall : ∀ l : List Property, (∀ p ∈ l, p.directive?.isSome = true) →
      Property.settleAll names l = [] := by
    intro l hl
    induction l with
    | nil => rfl
    | cons p l ih =>
      obtain ⟨hp, hmore⟩ := List.forall_mem_cons.1 hl
      rw [settleAll_directive names hp, ih hmore]
  rw [h.values]
  exact hall _ (h.run.values _)

/-! ## How a layout is read -/

section Read

variable {markup : Bool}

mutual

theorem Entries.pieces_isRead : (entries : Entries) → entries.IsRead markup →
    entries.isListed = true → ∀ piece ∈ entries.pieces, piece.IsRead Rules.element markup
  | .done, _, _ => nofun
  | .space _ rest, hread, hlisted =>
    List.forall_mem_cons.2 ⟨hread.1, Entries.pieces_isRead rest hread.2 hlisted⟩
  | .comma rest, hread, hlisted =>
    List.forall_mem_cons.2 ⟨trivial, Entries.pieces_isRead rest hread hlisted⟩
  | .entry fields rest, hread, hlisted => by
    rw [Entries.isListed, Bool.and_eq_true, Bool.and_eq_true] at hlisted
    obtain ⟨⟨hlist, hfields⟩, hrest⟩ := hlisted
    exact List.forall_mem_cons.2
      ⟨readsAlone_entry (Fields.pieces_isRead fields hread.1 hfields) hlist,
        Entries.pieces_isRead rest hread.2 hrest⟩
  | .other _ _ rest, hread, hlisted =>
    List.forall_mem_cons.2 ⟨hread.1, Entries.pieces_isRead rest hread.2 hlisted⟩

theorem Fields.pieces_isRead : (fields : Fields) → fields.IsRead markup →
    fields.isListed = true → ∀ piece ∈ fields.pieces, piece.IsRead Rules.objectProperty markup
  | .done, _, _ => nofun
  | .space _ rest, hread, hlisted =>
    List.forall_mem_cons.2 ⟨hread.1, Fields.pieces_isRead rest hread.2 hlisted⟩
  | .comma rest, hread, hlisted =>
    List.forall_mem_cons.2 ⟨trivial, Fields.pieces_isRead rest hread hlisted⟩
  | .cut _ _ _ rest, hread, hlisted =>
    List.forall_mem_append.2 ⟨hread.1, Fields.pieces_isRead rest hread.2 hlisted⟩
  | .page _ _ text read _ rest, hread, hlisted =>
    List.forall_mem_cons.2 ⟨hread.1 text read hread.2.1,
      Fields.pieces_isRead rest hread.2.2 hlisted⟩
  | .children _ _ entries rest, hread, hlisted => by
    rw [Fields.isListed, Bool.and_eq_true, Bool.and_eq_true] at hlisted
    obtain ⟨⟨hlist, hentries⟩, hrest⟩ := hlisted
    have hbelow := Entries.pieces_isRead entries hread.2.1 hentries
    exact List.forall_mem_cons.2 ⟨hread.1 _ _ (readsAlone_array hbelow hlist),
      Fields.pieces_isRead rest hread.2.2 hrest⟩
  | .other _ _ rest, hread, hlisted =>
    List.forall_mem_cons.2 ⟨hread.1, Fields.pieces_isRead rest hread.2 hlisted⟩

end

/-! ### Properties as they are mostly written -/

/-- A directive, for the ranges that are removed. -/
def flag (directive : Directive) (value : Bool) : Piece Property :=
  .item (fieldHead directive.key ++ flagText value)
    (behind (fieldHead directive.key) (wordKey directive.key) (flagAt value))

/-- A property that holds a text and is kept. -/
def Fields.text (word value : Text) : Fields → Fields :=
  .other (fieldHead word ++ quoted '\'' value)
    (behind (fieldHead word) (wordKey word) (stringAt '\'' value))

/-- A page that is bound already. -/
def Fields.bound (identifier : Text) : Fields → Fields :=
  .other (fieldHead "component" ++ identifier)
    (behind (fieldHead "component") (wordKey "component") (named identifier))

/-- The path of a page that is planned. -/
def Fields.path (value identifier : Text) : Fields → Fields :=
  .page (fieldHead "component") (wordKey "component") (quoted '\'' value) (stringAt '\'' value)
    identifier

theorem flag_isRead (directive : Directive) (value : Bool) :
    (flag directive value).IsRead Rules.objectProperty markup := by
  have hword : isPlainWord directive.key = true := by
    cases directive <;> decide
  exact isFieldHead_fieldHead hword _ _ (readsAlone_flag value)

theorem flag_isDirective (directive : Directive) (value : Bool) :
    IsDirective (fieldHead directive.key ++ flagText value)
      (behind (fieldHead directive.key) (wordKey directive.key) (flagAt value)) := by
  refine ⟨fun hnil => ?_, fun pos => ⟨directive, ?_⟩⟩
  · cases directive <;> cases hnil
  · have hfound : (wordKey directive.key pos).text?.bind Directive.ofKey? = some directive :=
      Directive.ofKey?_eq_some.2 rfl
    rw [behind, Property.directive?, hfound, Text.size_append, ← Nat.add_assoc]
    rfl

theorem Fields.text_isRead {word value : Text} {rest : Fields} (hword : isPlainWord word = true)
    (hvalue : isPlainBetween '\'' value = true) (hrest : rest.IsRead markup) :
    (Fields.text word value rest).IsRead markup :=
  ⟨isFieldHead_fieldHead hword _ _ (readsAlone_quoted (.inl rfl) hvalue), hrest⟩

theorem Fields.bound_isRead {identifier : Text} {rest : Fields}
    (hword : isPlainWord identifier = true) (hown : startsLower identifier = false)
    (hrest : rest.IsRead markup) : (Fields.bound identifier rest).IsRead markup :=
  ⟨isFieldHead_fieldHead (by decide) _ _ (readsAlone_name hword hown), hrest⟩

theorem Fields.path_isRead {value identifier : Text} {rest : Fields}
    (hvalue : isPlainBetween '\'' value = true) (hrest : rest.IsRead markup) :
    (Fields.path value identifier rest).IsRead markup :=
  ⟨isFieldHead_fieldHead (by decide), readsAlone_quoted (.inl rfl) hvalue, hrest⟩

/-! ### Settled layouts -/

/-- No element is removed. -/
theorem Entries.isList_settle : (entries : Entries) → (expects : Bool) →
    Piece.isList expects entries.settle.pieces = Piece.isList expects entries.pieces
  | .done, _ => rfl
  | .space _ rest, expects => by cases expects <;> exact Entries.isList_settle rest _
  | .comma rest, expects => by
    cases expects with
    | false => exact Entries.isList_settle rest true
    | true => rfl
  | .entry _ rest, expects | .other _ _ rest, expects => by
    cases expects with
    | false => rfl
    | true => exact Entries.isList_settle rest false

/-- Where the commas go with the directives a list of properties is left. -/
theorem Fields.isList_settle : (fields : Fields) → (expects : Bool) →
    Piece.isList expects fields.pieces = true → fields.isEven = true →
    Piece.isList expects fields.settle.pieces = true
  | .done, expects, h, _ => h
  | .space _ rest, expects, h, heven => by
    cases expects <;> exact Fields.isList_settle rest _ h heven
  | .comma rest, expects, h, heven => by
    cases expects with
    | false => exact Fields.isList_settle rest true h heven
    | true => cases h
  | .cut left run right rest, expects, h, heven => by
    obtain ⟨hcut, hrest⟩ := Bool.and_eq_true_iff.1 heven
    refine Fields.isList_settle rest expects ?_ hrest
    rcases Bool.or_eq_true_iff.1 hcut with hown | hlast
    · exact Piece.isList_behind h hown
    · exact Piece.isList_spaces hlast expects
  | .page _ _ _ _ _ rest, expects, h, heven | .other _ _ rest, expects, h, heven => by
    cases expects with
    | false => cases h
    | true => exact Fields.isList_settle rest false h heven
  | .children _ _ _ rest, expects, h, heven => by
    cases expects with
    | false => cases h
    | true => exact Fields.isList_settle rest false h (Bool.and_eq_true_iff.1 heven).2

mutual

/-- What is left is a list in all brackets. -/
theorem Entries.isListed_settle : (entries : Entries) → entries.isListed = true →
    entries.isEven = true → entries.settle.isListed = true
  | .done, _, _ => rfl
  | .space _ rest, hlisted, heven | .comma rest, hlisted, heven
  | .other _ _ rest, hlisted, heven => Entries.isListed_settle rest hlisted heven
  | .entry fields rest, hlisted, heven => by
    rw [Entries.isListed, Bool.and_eq_true, Bool.and_eq_true] at hlisted
    obtain ⟨⟨hlist, hfields⟩, hrest⟩ := hlisted
    obtain ⟨hown, hlater⟩ := Bool.and_eq_true_iff.1 heven
    rw [Entries.settle, Entries.isListed, Bool.and_eq_true, Bool.and_eq_true]
    exact ⟨⟨Fields.isList_settle fields true hlist hown, Fields.isListed_settle fields hfields hown⟩,
      Entries.isListed_settle rest hrest hlater⟩

theorem Fields.isListed_settle : (fields : Fields) → fields.isListed = true →
    fields.isEven = true → fields.settle.isListed = true
  | .done, _, _ => rfl
  | .space _ rest, hlisted, heven | .comma rest, hlisted, heven
  | .page _ _ _ _ _ rest, hlisted, heven | .other _ _ rest, hlisted, heven =>
    Fields.isListed_settle rest hlisted heven
  | .cut _ _ _ rest, hlisted, heven =>
    Fields.isListed_settle rest hlisted (Bool.and_eq_true_iff.1 heven).2
  | .children _ _ entries rest, hlisted, heven => by
    rw [Fields.isListed, Bool.and_eq_true, Bool.and_eq_true] at hlisted
    obtain ⟨⟨hlist, hentries⟩, hrest⟩ := hlisted
    obtain ⟨hown, hlater⟩ := Bool.and_eq_true_iff.1 heven
    rw [Fields.settle, Fields.isListed, Bool.and_eq_true, Bool.and_eq_true, Entries.isList_settle]
    exact ⟨⟨hlist, Entries.isListed_settle entries hentries hown⟩,
      Fields.isListed_settle rest hrest hlater⟩

end

/-- The names of pages are names of the language that are none of its own words. -/
def AreNames (names : PageNames) : Prop :=
  ∀ span identifier, names span = some identifier →
    isPlainWord identifier = true ∧ startsLower identifier = false

variable {names : PageNames}

mutual

/-- What is left is read in its turn. -/
theorem Entries.isRead_settle (hnames : AreNames names) : (entries : Entries) → (pos : Nat) →
    entries.IsRead markup → entries.Settles names pos → entries.settle.IsRead markup
  | .done, _, _, _ => trivial
  | .space _ rest, _, hread, hsettles => ⟨hread.1, Entries.isRead_settle hnames rest _ hread.2 hsettles⟩
  | .comma rest, _, hread, hsettles => Entries.isRead_settle hnames rest _ hread hsettles
  | .entry fields rest, _, hread, hsettles =>
    ⟨Fields.isRead_settle hnames fields _ hread.1 hsettles.1,
      Entries.isRead_settle hnames rest _ hread.2 hsettles.2⟩
  | .other _ _ rest, _, hread, hsettles =>
    ⟨hread.1, Entries.isRead_settle hnames rest _ hread.2 hsettles.2.2⟩

theorem Fields.isRead_settle (hnames : AreNames names) : (fields : Fields) → (pos : Nat) →
    fields.IsRead markup → fields.Settles names pos → fields.settle.IsRead markup
  | .done, _, _, _ => trivial
  | .space _ rest, _, hread, hsettles => ⟨hread.1, Fields.isRead_settle hnames rest _ hread.2 hsettles⟩
  | .comma rest, _, hread, hsettles => Fields.isRead_settle hnames rest _ hread hsettles
  | .cut _ _ _ rest, _, hread, hsettles => Fields.isRead_settle hnames rest _ hread.2 hsettles.2
  | .page _ _ _ _ identifier rest, _, hread, hsettles => by
    obtain ⟨-, -, -, hname, hrest⟩ := hsettles
    obtain ⟨hword, hown⟩ := hnames _ _ hname
    exact ⟨hread.1 identifier (named identifier) (readsAlone_name hword hown),
      Fields.isRead_settle hnames rest _ hread.2.2 hrest⟩
  | .children _ _ entries rest, _, hread, hsettles => by
    obtain ⟨-, -, hentries, hrest⟩ := hsettles
    exact ⟨hread.1, Entries.isRead_settle hnames entries _ hread.2.1 hentries,
      Fields.isRead_settle hnames rest _ hread.2.2 hrest⟩
  | .other _ _ rest, _, hread, hsettles =>
    ⟨hread.1, Fields.isRead_settle hnames rest _ hread.2 hsettles.2.2⟩

end

end Read

/-! ## What a rewrite leaves -/

/-- Brackets around what is replaced are kept. -/
theorem replaced_bracketed {α : Type} {opening closing : Char}
    (hopening : opening = '[' ∨ opening = '\x7b') {pieces left : List (Piece α)} {pos : Nat}
    {edits : List Edit}
    (h : Edit.Replaced (pos + 1) (Piece.allText pieces) edits (Piece.allText left)) :
    Edit.Replaced pos (Piece.bracketed opening closing pieces) edits
      (Piece.bracketed opening closing left) := by
  have hsize : Text.size [opening] = 1 := by
    rcases hopening with rfl | rfl
    · decide
    · decide
  have hclosed := h.append (.keep _ [closing])
  rw [List.append_nil] at hclosed
  exact Edit.Replaced.prepend [opening] (hsize.symm ▸ hclosed)

mutual

/-- The edits of a layout make what is left of its text. -/
theorem Entries.replaced : (entries : Entries) → (pos : Nat) →
    Edit.Replaced pos (Piece.allText entries.pieces) (entries.edits pos)
      (Piece.allText entries.settle.pieces)
  | .done, pos => .keep pos []
  | .space text rest, _ => (Entries.replaced rest _).prepend text
  | .comma rest, _ => (Entries.replaced rest _).prepend ","
  | .entry fields rest, pos =>
    (replaced_bracketed (.inr rfl) (Fields.replaced fields (pos + 1))).append
      (Entries.replaced rest _)
  | .other text _ rest, _ => (Entries.replaced rest _).prepend text

theorem Fields.replaced : (fields : Fields) → (pos : Nat) →
    Edit.Replaced pos (Piece.allText fields.pieces) (fields.edits pos)
      (Piece.allText fields.settle.pieces)
  | .done, pos => .keep pos []
  | .space text rest, _ => (Fields.replaced rest _).prepend text
  | .comma rest, _ => (Fields.replaced rest _).prepend ","
  | .cut left run right rest, pos => by
    have hcut := (Edit.Replaced.whole pos (Piece.allText (left ++ run ++ right)) []).append
      (Fields.replaced rest (pos + Text.size (Piece.allText (left ++ run ++ right))))
    rw [Fields.pieces, Piece.allText_append]
    exact hcut
  | .page head key text read identifier rest, pos => by
    have hpage := (Edit.Replaced.whole (pos + Text.size head) text identifier).prepend head
    exact hpage.append (Fields.replaced rest _)
  | .children head key entries rest, pos => by
    have hbelow : Edit.Replaced (pos + Text.size head) (Piece.bracketed '[' ']' entries.pieces) _
        (Piece.bracketed '[' ']' entries.settle.pieces) :=
      replaced_bracketed (.inl rfl) (Entries.replaced entries (pos + Text.size head + 1))
    exact (hbelow.prepend head).append (Fields.replaced rest _)
  | .other text _ rest, _ => (Fields.replaced rest _).prepend text

end

section Edits

variable {markup : Bool} {names : PageNames}

theorem lt_add_size {s : Text} (h : s ≠ []) (pos : Nat) : pos < pos + Text.size s := by
  have hsize : Text.size s ≠ 0 := mt Text.size_eq_zero h
  omega

mutual

/-- No edit of a layout is a mere insertion. -/
theorem Entries.edits_cut : (entries : Entries) → (pos : Nat) → entries.IsRead markup →
    entries.Settles names pos → ∀ e ∈ entries.edits pos, e.span.start < e.span.stop
  | .done, _, _, _ => nofun
  | .space _ rest, _, hread, hsettles => Entries.edits_cut rest _ hread.2 hsettles
  | .comma rest, _, hread, hsettles => Entries.edits_cut rest _ hread hsettles
  | .entry fields rest, _, hread, hsettles => List.forall_mem_append.2
    ⟨Fields.edits_cut fields _ hread.1 hsettles.1, Entries.edits_cut rest _ hread.2 hsettles.2⟩
  | .other _ _ rest, _, hread, hsettles => Entries.edits_cut rest _ hread.2 hsettles.2.2

theorem Fields.edits_cut : (fields : Fields) → (pos : Nat) → fields.IsRead markup →
    fields.Settles names pos → ∀ e ∈ fields.edits pos, e.span.start < e.span.stop
  | .done, _, _, _ => nofun
  | .space _ rest, _, hread, hsettles => Fields.edits_cut rest _ hread.2 hsettles
  | .comma rest, _, hread, hsettles => Fields.edits_cut rest _ hread hsettles
  | .cut _ _ _ rest, pos, hread, hsettles => List.forall_mem_cons.2
    ⟨lt_add_size hsettles.1.ne_nil pos, Fields.edits_cut rest _ hread.2 hsettles.2⟩
  | .page head _ _ _ _ rest, pos, hread, hsettles => List.forall_mem_cons.2
    ⟨lt_add_size hread.2.1.ne_nil (pos + Text.size head),
      Fields.edits_cut rest _ hread.2.2 hsettles.2.2.2.2⟩
  | .children _ _ entries rest, _, hread, hsettles => List.forall_mem_append.2
    ⟨Entries.edits_cut entries _ hread.2.1 hsettles.2.2.1,
      Fields.edits_cut rest _ hread.2.2 hsettles.2.2.2⟩
  | .other _ _ rest, _, hread, hsettles => Fields.edits_cut rest _ hread.2 hsettles.2.2

end

end Edits

theorem settleAll_cons (names : PageNames) (p : Property) (rest : List Property) :
    Property.settleAll names (p :: rest) =
      Property.settleAll names [p] ++ Property.settleAll names rest := by
  cases p with
  | field key value =>
    obtain ⟨elements, span, rfl⟩ | harray := exists_array value
    · rw [Property.settleAll, Property.settleAll]
      cases key.text? with
      | none => rfl
      | some name =>
        dsimp only
        split
        · rfl
        · rw [List.append_assoc]
          rfl
    · rw [Property.settleAll, Property.settleAll]
      · cases key.text? with
        | none => rfl
        | some name =>
          dsimp only
          rw [List.append_assoc]
          rfl
      · exact harray
      · exact harray
  | shorthand name span => rfl
  | spread value => rfl
  | default name value span => rfl
  | method parts span => rfl

theorem settleAll_append (names : PageNames) (first rest : List Property) :
    Property.settleAll names (first ++ rest) =
      Property.settleAll names first ++ Property.settleAll names rest := by
  induction first with
  | nil => rfl
  | cons p first ih =>
    rw [List.cons_append, settleAll_cons, ih, settleAll_cons names p first, List.append_assoc]

/-- The entries below are settled in their place. -/
theorem settleAll_children {key : Key} {name : Text} (names : PageNames) (hkey : key.text? = some name)
    (hname : holdsChildren name = true) (elements : List Element) (span : Span) :
    Property.settleAll names [.field key (.array elements span)] =
      [.field key (.array (Element.settleAll names elements) span)] := by
  simp only [Property.settleAll, hkey, hname, if_true]

/-- A page that is named is replaced. -/
theorem settleAll_page {key : Key} {value : Expr} {page identifier : Text} {span : Span}
    {names : PageNames} (hkey : key.text? = some ("component" : Text))
    (hvalue : Component.ofExpr value = .path page span) (hname : names span = some identifier) :
    Property.settleAll names [.field key value] = [.field key (.ident identifier span)] := by
  have hsettle : value.settle names = .ident identifier span := by
    unfold Script.Expr.settle
    rw [hvalue]
    dsimp only
    rw [hname]
  have hdirective : (Directive.ofKey? "component").isSome = false := by decide
  rw [settleAll_field value [] hkey (by decide), Property.settleField, hdirective]
  simp only [Bool.false_eq_true, if_false, beq_self_eq_true, if_true, hsettle]
  rfl

mutual

/-- The elements that are left are those that were read, settled. -/
theorem Entries.values_settle {names : PageNames} : (entries : Entries) → (pos place : Nat) →
    entries.Settles names pos →
    Element.allBare (Piece.values place entries.settle.pieces) =
      Element.allBare (Element.settleAll names (Piece.values pos entries.pieces))
  | .done, _, _, _ => rfl
  | .space _ rest, _, _, h => Entries.values_settle rest _ _ h
  | .comma rest, _, _, h => Entries.values_settle rest _ _ h
  | .entry fields rest, pos, place, h => by
    have hfields := Fields.values_settle fields (pos + 1) (place + 1) h.1
    have hrest := Entries.values_settle rest _
      (place + Text.size (Piece.bracketed '\x7b' '\x7d' fields.settle.pieces)) h.2
    simp only [Entries.settle, Entries.pieces, Piece.values, Element.settleAll, Element.allBare,
      Element.bare, Piece.object, Element.settle, Expr.bare, hfields, hrest]
  | .other text read rest, pos, place, h => by
    obtain ⟨hkept, hbare, hrest⟩ := h
    have hlater := Entries.values_settle rest _ (place + Text.size text) hrest
    simp only [Entries.settle, Entries.pieces, Piece.values, Element.settleAll, Element.allBare,
      hkept, hbare place, hlater]

theorem Fields.values_settle {names : PageNames} : (fields : Fields) → (pos place : Nat) →
    fields.Settles names pos →
    Property.allBare (Piece.values place fields.settle.pieces) =
      Property.allBare (Property.settleAll names (Piece.values pos fields.pieces))
  | .done, _, _, _ => rfl
  | .space _ rest, _, _, h => Fields.values_settle rest _ _ h
  | .comma rest, _, _, h => Fields.values_settle rest _ _ h
  | .cut _ _ _ rest, pos, place, h => by
    rw [Fields.pieces, Piece.values_append, settleAll_append, h.1.settleAll]
    exact Fields.values_settle rest _ place h.2
  | .page head key text read identifier rest, pos, place, h => by
    obtain ⟨hkey, hbare, ⟨value, hvalue⟩, hname, hrest⟩ := h
    have hlater := Fields.values_settle rest _ (place + Text.size (head ++ identifier)) hrest
    rw [Fields.pieces, Piece.values, settleAll_cons, behind, settleAll_page hkey hvalue hname]
    simp only [Fields.settle, Fields.pieces, Piece.values, List.singleton_append, Property.allBare,
      behind, named, Property.bare, Expr.bare, hbare place, hlater]
  | .children head key entries rest, pos, place, h => by
    obtain ⟨⟨name, hkey, hname⟩, hbare, hentries, hrest⟩ := h
    have hbelow := Entries.values_settle entries _ (place + Text.size head + 1) hentries
    have hlater := Fields.values_settle rest _
      (place + Text.size (head ++ Piece.bracketed '[' ']' entries.settle.pieces)) hrest
    rw [Fields.pieces, Piece.values, settleAll_cons, behind, Piece.array,
      settleAll_children names hkey hname]
    simp only [Fields.settle, Fields.pieces, Piece.values, List.singleton_append, Property.allBare,
      behind, Piece.array, Property.bare, Expr.bare, hbare place, hbelow, hlater]
  | .other text read rest, pos, place, h => by
    obtain ⟨hkept, hbare, hrest⟩ := h
    have hlater := Fields.values_settle rest _ (place + Text.size text) hrest
    rw [Fields.pieces, Piece.values, settleAll_cons, hkept]
    simp only [Fields.settle, Fields.pieces, Piece.values, List.singleton_append, Property.allBare,
      hbare place, hlater]

end

end Layout
end RoutePages
