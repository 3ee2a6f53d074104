import RoutePages.Proofs.Edit.Layout
import RoutePages.Proofs.Script.Quotes
import RoutePages.Proofs.Script.Run

/-!
# Rewriting a text that has changed

The spans of a table are used on whatever text is given. A rewrite looks at the first and last
character of each component and at how each directive begins, so it also accepts a range in which
a first literal is closed early and another one ends, or in which a longer word begins with the
key. What it accepts is one literal, or one property, exactly if the text between the quotes, or
behind the key, is as it should be.
-/
namespace RoutePages

open Script

namespace Script

/-- A colon and one value, and nothing behind it. -/
structure IsColonValue (markup : Bool) (p : Place) : Prop where
  colon : (Token.next p).isSign ":" = true
  flawless : (Token.next p).flaw = none
  value : ∃ depth value c, (rules depth).fullAssignment.run (Mode.start markup)
      (Cursor.at (Token.next p).stop) = .done value c ∧ c.token.isDone = true ∧ c.flaw = none

/-- The text is one property with the key, which is not computed, and a value. -/
structure IsOneProperty (markup : Bool) (key found : Text) : Prop where
  key : (Token.next ⟨0, found⟩).lexeme = .word key ∨ (Token.next ⟨0, found⟩).lexeme = .string key
  flawless : (Token.next ⟨0, found⟩).flaw = none
  value : IsColonValue markup (Token.next ⟨0, found⟩).stop

variable {markup : Bool} {key s : Text} {quote : Char} {pos : Nat}

/-- A key without quotes is the key of the property if the word ends with it. -/
theorem isOneProperty_bare (hkey : isPlainWord key = true) : IsOneProperty markup key (key ++ s) ↔
    runsOn s = false ∧ IsColonValue markup ⟨Text.size key, s⟩ := by
  constructor
  · rintro ⟨hlexeme, -, hvalue⟩
    rw [Token.next, gap_plainWord hkey, Gap.token] at hlexeme
    dsimp only [Read.token] at hlexeme
    rw [lexemeAt_plainWord hkey] at hlexeme
    have hword : (word ⟨0, key ++ s⟩).lexeme ≠ .string key := by
      intro hstring
      unfold word at hstring
      dsimp only at hstring
      split at hstring
      · cases hstring
      · split at hstring <;> cases hstring
    have hends := (word_eq_iff hkey).1 (hlexeme.resolve_right hword)
    rw [next_plainWord hkey hends, Nat.zero_add] at hvalue
    exact ⟨hends, hvalue⟩
  · rintro ⟨hends, hvalue⟩
    have hnext : Token.next ⟨0, key ++ s⟩ = _ := next_plainWord hkey hends
    refine ⟨?_, ?_, ?_⟩
    · rw [hnext]
      exact .inl rfl
    · rw [hnext]
    · rw [hnext, Nat.zero_add]
      exact hvalue

/-- A key between quotes is always the key of the property. -/
theorem isOneProperty_quoted (hquote : quote = '\'' ∨ quote = '"')
    (hkey : isPlainWord key = true) :
    IsOneProperty markup key (quote :: (key ++ quote :: s)) ↔
      IsColonValue markup ⟨Text.size (quote :: (key ++ [quote])), s⟩ := by
  have hplain : isPlainBetween quote key = true := by
    refine List.all_eq_true.2 fun c hc => ?_
    have hpart := List.all_eq_true.1 (isPlainWord_parts hkey) c hc
    have hend : c ≠ quote := by
      rcases hquote with rfl | rfl
      · exact ne_of_isIdentifierPart hpart (by decide)
      · exact ne_of_isIdentifierPart hpart (by decide)
    simp only [Bool.and_eq_true, decide_eq_true_eq]
    exact ⟨⟨⟨hend, ne_of_isIdentifierPart hpart (by decide)⟩,
      ne_of_isIdentifierPart hpart (by decide)⟩, ne_of_isIdentifierPart hpart (by decide)⟩
  have hnext : Token.next ⟨0, quote :: (key ++ quote :: s)⟩ = _ := next_quoted hquote hplain
  rw [Nat.zero_add] at hnext
  constructor
  · rintro ⟨-, -, hvalue⟩
    rw [hnext] at hvalue
    exact hvalue
  · intro hvalue
    refine ⟨?_, ?_, ?_⟩
    · rw [hnext]
      exact .inr rfl
    · rw [hnext]
    · rw [hnext]
      exact hvalue

end Script

namespace Rewrite

/-- Whatever stands between two equal quotes is accepted in place of a component. -/
theorem isBetweenQuotes_iff {found : Text} : isBetweenQuotes found = true ↔
    ∃ quote body, isQuote quote = true ∧ found = quote :: (body ++ [quote]) := by
  match found with
  | [] =>
    refine ⟨nofun, ?_⟩
    rintro ⟨_, _, _, h⟩
    cases h
  | [c] =>
    refine ⟨nofun, ?_⟩
    rintro ⟨_, body, _, h⟩
    cases body <;> cases h
  | c :: d :: rest =>
    rw [isBetweenQuotes, Bool.and_eq_true, beq_iff_eq, List.getLast?_eq_some_iff]
    · constructor
      · rintro ⟨hquote, body, hbody⟩
        exact ⟨c, body, hquote, by rw [hbody]⟩
      · rintro ⟨quote, body, hquote, h⟩
        obtain ⟨rfl, hbody⟩ := List.cons.inj h
        exact ⟨hquote, body, hbody⟩
    · nofun

/-- A plan whose page is named between quotes in the text. -/
theorem isQuoted_iff {text : Text} {plan : PagePlan} : IsQuoted text plan ↔
    ∃ quote body, isQuote quote = true ∧
      text.slice? plan.componentSpan.start plan.componentSpan.stop =
        some (quote :: (body ++ [quote])) := by
  rw [IsQuoted, isBetweenQuotes_iff]
  cases text.slice? plan.componentSpan.start plan.componentSpan.stop with
  | none =>
    refine ⟨?_, ?_⟩
    · rintro ⟨_, _, _, h⟩
      cases h
    · rintro ⟨_, _, _, h⟩
      cases h
  | some found => simp only [Option.getD_some, Option.some.injEq]

/-- What stands between the quotes decides whether it is one literal. -/
theorem isOneLiteral_quoted {quote : Char} {body : Text} (hquote : isQuote quote = true) :
    IsOneLiteral (quote :: (body ++ [quote])) ↔ IsBody quote body := by
  rw [isOneLiteral_iff]
  constructor
  · rintro ⟨other, inner, -, h, hinner⟩
    obtain ⟨rfl, h⟩ := List.cons.inj h
    rw [List.append_cancel_right h]
    exact hinner
  · exact fun h => ⟨quote, body, hquote, rfl, h⟩

/-- The ways to write a key that are recognised. -/
def spellings (key : Text) : List Text := [key, "'" ++ key ++ "'", "\"" ++ key ++ "\""]

theorem beginsWithKey_iff {found key : Text} : Removal.beginsWithKey found key = true ↔
    ∃ spelled ∈ spellings key, ∃ behind, found = spelled ++ behind := by
  simp only [Removal.beginsWithKey, Text.startsWith, Bool.or_eq_true, List.isPrefixOf_iff_prefix,
    spellings, List.exists_mem_cons_iff, List.not_mem_nil, false_and, exists_false, or_false,
    List.IsPrefix, eq_comm (a := found), or_assoc]

/-- A directive whose key is recognised in the text. -/
theorem isKeyed_iff {text : Text} {d : DirectiveSpan} : Removal.IsKeyed text d ↔
    ∃ spelled ∈ spellings d.directive.key, ∃ behind,
      text.slice? d.span.start d.span.stop = some (spelled ++ behind) := by
  rw [Removal.IsKeyed, beginsWithKey_iff]
  cases text.slice? d.span.start d.span.stop with
  | none =>
    have hspelled : ∀ spelled ∈ spellings d.directive.key, spelled ≠ [] := by
      cases d.directive <;> decide
    refine ⟨?_, ?_⟩
    · rintro ⟨spelled, hmem, behind, h⟩
      exact absurd (List.append_eq_nil_iff.1 h.symm).1 (hspelled spelled hmem)
    · rintro ⟨_, _, _, h⟩
      cases h
  | some found => simp only [Option.getD_some, Option.some.injEq]

theorem isPlainWord_key (d : Directive) : isPlainWord d.key = true := by
  cases d <;> decide

/-- What stands behind the key decides whether it is one property. -/
theorem isOneProperty_spelled {markup : Bool} {spelled behind : Text} (d : Directive)
    (hspelled : spelled ∈ spellings d.key) :
    IsOneProperty markup d.key (spelled ++ behind) ↔
      (spelled = d.key → runsOn behind = false) ∧
        IsColonValue markup ⟨Text.size spelled, behind⟩ := by
  have hkey := isPlainWord_key d
  have hquoted : ∀ {quote : Char}, quote = '\'' ∨ quote = '"' →
      spelled = quote :: (d.key ++ [quote]) → (IsOneProperty markup d.key (spelled ++ behind) ↔
        (spelled = d.key → runsOn behind = false) ∧
          IsColonValue markup ⟨Text.size spelled, behind⟩) := by
    rintro quote hquote rfl
    have hlonger : quote :: (d.key ++ [quote]) ≠ d.key := fun h => by
      have hlength := congrArg List.length h
      simp only [List.length_cons, List.length_append] at hlength
      omega
    rw [List.cons_append, List.append_assoc, List.singleton_append,
      isOneProperty_quoted hquote hkey]
    exact ⟨fun h => ⟨fun heq => absurd heq hlonger, h⟩, And.right⟩
  simp only [spellings, List.mem_cons, List.not_mem_nil, or_false] at hspelled
  rcases hspelled with rfl | hsingle | hdouble
  · rw [isOneProperty_bare hkey]
    exact and_congr_left' ⟨fun h _ => h, fun h => h rfl⟩
  · exact hquoted (.inl rfl) hsingle
  · exact hquoted (.inr rfl) hdouble

/-- A text that a table and its plans can be used on: the checks pass, the edits lie apart, and
the imports can be put where the last one ended in the text that was read. -/
structure IsUsable (text : Text) (t : RouteTable) (plans : List PagePlan) (pagesAlias : Text) :
    Prop where
  spaced : IsWellSpaced text t plans pagesAlias
  anchored : missingImports t pagesAlias [] plans ≠ [] → ∀ n, t.importAnchor = some n →
    text.isBoundary n = true

section Planned

variable {dialect : Dialect} {source planAlias : Text} {t : RouteTable} {plans : List PagePlan}
  (h : IsPlanned dialect source planAlias t plans)
include h

theorem rewrite_text_isOk_iff (text pagesAlias : Text) :
    (∃ r, rewrite text t plans pagesAlias = .ok r) ↔ IsUsable text t plans pagesAlias := by
  have hmarks := planPages_apart h.read h.plan
  rw [List.pairwise_append] at hmarks
  obtain ⟨hcomponents, hdirectives, -⟩ := hmarks
  have hown : ∀ directives ∈ directivesOf t.entries,
      (directives.map DirectiveSpan.span).Pairwise Span.Apart := by
    intro directives hmem
    rw [List.map_flatten] at hdirectives
    exact (List.pairwise_flatten.1 hdirectives).1 _ (List.mem_map_of_mem hmem)
  rw [rewrite_isOk hown, Edit.applyAll_isOk_iff, edits_pairwise_iff hcomponents]
  constructor
  · rintro ⟨hquoted, hkeyed, hfits, hapart, hclear, hanchor⟩
    refine ⟨⟨hquoted, hkeyed, hapart, hclear, hanchor⟩, fun himports n hn => ?_⟩
    have hinserted : importEdits text t.importAnchor (missingImports t pagesAlias [] plans) =
        [⟨⟨n, n⟩, (missingImports t pagesAlias [] plans).flatMap (lineBreak text ++ ·)⟩] := by
      rw [hn, importEdits, if_neg (by rwa [List.isEmpty_iff])]
    have hplace := hfits _ (List.mem_append_right _ (hinserted ▸ List.mem_cons_self))
    exact (Edit.fits_iff.1 hplace).2.1
  · rintro ⟨⟨hquoted, hkeyed, hapart, hclear, hanchor⟩, hinside⟩
    -- the checks put all other edits inside the text: only the imports could be left outside
    refine ⟨hquoted, hkeyed, fun e he => ?_, hapart, hclear, hanchor⟩
    have hremovals : ∀ s ∈ removals text t, Edit.fits text s = true := by
      intro s hs
      rw [removals_eq] at hs
      obtain ⟨directives, hmem, hs⟩ := List.mem_flatMap.1 hs
      exact Removal.ranges_fits (hkeyed directives hmem) (hown directives hmem) s hs
    cases hfits : Edit.fits text e.span with
    | true => rfl
    | false =>
      obtain ⟨n, -, himports, hn, hout⟩ := anchor_of_not_fits hquoted hremovals he hfits
      rw [hinside himports n hn] at hout
      cases hout

/-- The table and the plans of a source on any other text. The rewrite succeeds exactly if each
component stands between two equal quotes, the key of each directive stands at the start of its
range, the edits lie apart and the imports can be put at their place; else it gives an error and no
text. Where it succeeds, a component is one literal exactly if no character behind its first quote
closes the literal before the last one, and a directive is one property exactly if no word goes on
behind its key and a colon and one value make up the rest. -/
theorem rewrite_text_decides (text pagesAlias : Text) :
    ((∃ r, rewrite text t plans pagesAlias = .ok r) ↔ IsUsable text t plans pagesAlias) ∧
    ((∃ e, rewrite text t plans pagesAlias = .error e) ↔ ¬ IsUsable text t plans pagesAlias) ∧
    (IsUsable text t plans pagesAlias →
      (∀ plan ∈ plans, ∃ quote body, isQuote quote = true ∧
        text.slice? plan.componentSpan.start plan.componentSpan.stop =
          some (quote :: (body ++ [quote])) ∧
        (IsOneLiteral (quote :: (body ++ [quote])) ↔ IsBody quote body)) ∧
      ∀ directives ∈ directivesOf t.entries, ∀ d ∈ directives,
        ∃ spelled ∈ spellings d.directive.key, ∃ behind,
          text.slice? d.span.start d.span.stop = some (spelled ++ behind) ∧
          (IsOneProperty dialect.hasMarkup d.directive.key (spelled ++ behind) ↔
            (spelled = d.directive.key → runsOn behind = false) ∧
              IsColonValue dialect.hasMarkup ⟨Text.size spelled, behind⟩)) := by
  have hok := rewrite_text_isOk_iff h text pagesAlias
  refine ⟨hok, ?_, fun husable => ⟨?_, ?_⟩⟩
  · rw [← hok]
    cases rewrite text t plans pagesAlias with
    | ok r => exact ⟨nofun, fun hnone => absurd ⟨r, rfl⟩ hnone⟩
    | error e => exact ⟨fun _ => nofun, fun _ => ⟨e, rfl⟩⟩
  · intro plan hplan
    obtain ⟨quote, body, hquote, hslice⟩ := isQuoted_iff.1 (husable.spaced.quoted plan hplan)
    exact ⟨quote, body, hquote, hslice, isOneLiteral_quoted hquote⟩
  · intro directives hmem d hd
    obtain ⟨spelled, hspelled, behind, hslice⟩ :=
      isKeyed_iff.1 (husable.spaced.keyed directives hmem d hd)
    exact ⟨spelled, hspelled, behind, hslice, isOneProperty_spelled d.directive hspelled⟩

end Planned

/-- Can the source be read and planned, and does the check hold of its table and plans? -/
def holdsOfPlanned (dialect : Dialect) (source pagesAlias : Text)
    (check : RouteTable → List PagePlan → Bool) : Bool :=
  match parseTable dialect source with
  | .error _ => false
  | .ok t =>
    match planPages t (.ofTable t pagesAlias) pagesAlias with
    | .error _ => false
    | .ok plans => check t plans

theorem exists_of_holdsOfPlanned {dialect : Dialect} {source pagesAlias : Text}
    {check : RouteTable → List PagePlan → Bool}
    (h : holdsOfPlanned dialect source pagesAlias check = true) :
    ∃ t plans, IsPlanned dialect source pagesAlias t plans ∧ check t plans = true := by
  unfold holdsOfPlanned at h
  split at h
  · cases h
  · rename_i t ht
    split at h
    · cases h
    · rename_i plans hplans
      exact ⟨t, plans, ⟨ht, hplans⟩, h⟩

/-- Another page of the same length stands in the text, and another value of the directive. -/
theorem rewrite_text_decides_renamed :
    let source : Text := "const r: R[] = [\x7b name: 'a', component: '/user', table: true \x7d]"
    let text : Text := "const r: R[] = [\x7b name: 'b', component: \"/page\", table: 1 > 0 \x7d]"
    ∃ t plans, IsPlanned .ts source "@/pages" t plans ∧ IsUsable text t plans "@/pages" := by
  intro source text
  have h : holdsOfPlanned .ts source "@/pages"
      (fun t plans => (rewrite text t plans "@/pages").toOption.isSome) = true := by decide +kernel
  obtain ⟨t, plans, hplanned, hsome⟩ := exists_of_holdsOfPlanned h
  obtain ⟨r, hr⟩ := Option.isSome_iff_exists.1 hsome
  exact ⟨t, plans, hplanned,
    (rewrite_text_decides hplanned text "@/pages").1.1 ⟨r, toOption_eq_some.1 hr⟩⟩

/-- A sum of two strings stands where a component was, and a longer key where a directive was: the
rewrite puts the page in place of the first and removes the second. -/
theorem rewrite_accepts_stale :
    (let source : Text := "const r: R[]=[\x7bname:'a',component:'/aaaaa'\x7d]"
      let text : Text := "const r: R[]=[\x7bname:'a',component:'a'+'bc'\x7d]"
      ∃ t plans, IsPlanned .ts source "@/pages" t plans ∧
        (∃ r, rewrite text t plans "@/pages" = .ok r) ∧
        ∃ plan ∈ plans, ∃ found,
          text.slice? plan.componentSpan.start plan.componentSpan.stop = some found ∧
            ¬ IsOneLiteral found) ∧
    let source : Text := "const r: R[]=[\x7btable: true\x7d]"
    let text : Text := "const r: R[]=[\x7btables:true\x7d]"
    ∃ t plans, IsPlanned .ts source "@/pages" t plans ∧
      (∃ r, rewrite text t plans "@/pages" = .ok r) ∧
      ∃ directives ∈ directivesOf t.entries, ∃ d ∈ directives, ∃ found,
        text.slice? d.span.start d.span.stop = some found ∧
          ¬ IsOneProperty false d.directive.key found := by
  constructor
  · intro source text
    have h : holdsOfPlanned .ts source "@/pages" (fun t plans =>
        (rewrite text t plans "@/pages").toOption.isSome &&
          plans.any fun plan => decide (text.slice? plan.componentSpan.start
            plan.componentSpan.stop = some "'a'+'bc'".toList)) = true := by decide +kernel
    obtain ⟨t, plans, hplanned, hcheck⟩ := exists_of_holdsOfPlanned h
    rw [Bool.and_eq_true, List.any_eq_true] at hcheck
    obtain ⟨hsome, plan, hplan, hslice⟩ := hcheck
    obtain ⟨r, hr⟩ := Option.isSome_iff_exists.1 hsome
    refine ⟨t, plans, hplanned, ⟨r, toOption_eq_some.1 hr⟩, plan, hplan, _,
      of_decide_eq_true hslice, fun hone => ?_⟩
    have hquoted : "'a'+'bc'".toList = '\'' :: (['a', '\'', '+', '\'', 'b', 'c'] ++ ['\'']) := by
      decide
    rw [hquoted, isOneLiteral_quoted (by decide)] at hone
    cases hone with
    | char _ _ hs =>
      cases hs with
      | char _ hends _ => exact absurd hends (by decide)
  · intro source text
    have h : holdsOfPlanned .ts source "@/pages" (fun t plans =>
        (rewrite text t plans "@/pages").toOption.isSome &&
          (directivesOf t.entries).flatten.any fun d => d.directive = .table &&
            decide (text.slice? d.span.start d.span.stop = some "tables:true".toList)) = true := by
      decide +kernel
    obtain ⟨t, plans, hplanned, hcheck⟩ := exists_of_holdsOfPlanned h
    rw [Bool.and_eq_true, List.any_eq_true] at hcheck
    obtain ⟨hsome, d, hd, hfound⟩ := hcheck
    rw [Bool.and_eq_true, decide_eq_true_eq, decide_eq_true_eq] at hfound
    obtain ⟨r, hr⟩ := Option.isSome_iff_exists.1 hsome
    obtain ⟨directives, hmem, hd⟩ := List.mem_flatten.1 hd
    refine ⟨t, plans, hplanned, ⟨r, toOption_eq_some.1 hr⟩, directives, hmem, d, hd, _,
      hfound.2, fun hone => ?_⟩
    have hkey := hone.key
    rw [hfound.1] at hkey
    exact absurd hkey (by decide +kernel)

end Rewrite
end RoutePages
