import RoutePages.Proofs.Route.Marks
import RoutePages.Proofs.Script.FlatStatements

/-!
# Which array is the route array

The route array is the first declarator outside functions and classes that annotates a plain
name with an array type and gives it an array literal. A getter or setter of an object
literal is no function to the search, so what its body declares may come first; nothing else
does.
-/
namespace RoutePages

open Script
open Script.Part (AllFlat)

mutual

/-- The parts of the methods, getters and setters of the objects in the expression, as far as these
stand in no function, class or other method. -/
def Script.Expr.methods : Expr → List (List Part)
  | .template _ holes _ => Expr.allMethods holes
  | .paren inner _ => inner.methods
  | .asType inner _ => inner.methods
  | .asConst inner _ => inner.methods
  | .minus operand _ => operand.methods
  | .array elements _ => Element.allMethods elements
  | .object props _ => Property.allMethods props
  | .compound _ parts _ => Part.allMethods parts
  | _ => []

def Script.Expr.allMethods : List Expr → List (List Part)
  | [] => []
  | e :: rest => e.methods ++ Expr.allMethods rest

def Script.Element.allMethods : List Element → List (List Part)
  | [] => []
  | .hole :: rest => Element.allMethods rest
  | .item e :: rest => e.methods ++ Element.allMethods rest
  | .spread e :: rest => e.methods ++ Element.allMethods rest

def Script.Property.allMethods : List Property → List (List Part)
  | [] => []
  | .field key e :: rest => (key.methods ++ e.methods) ++ Property.allMethods rest
  | .shorthand _ _ :: rest => Property.allMethods rest
  | .spread e :: rest => e.methods ++ Property.allMethods rest
  | .default _ e _ :: rest => e.methods ++ Property.allMethods rest
  | .method parts _ :: rest => parts :: Property.allMethods rest

def Script.Key.methods : Key → List (List Part)
  | .computed parts _ => Part.allMethods parts
  | _ => []

def Script.Part.allMethods : List Part → List (List Part)
  | [] => []
  | .expr e :: rest => e.methods ++ Part.allMethods rest
  | .declaration declarators :: rest => Declarator.allMethods declarators ++ Part.allMethods rest
  | .imports _ _ _ :: rest => Part.allMethods rest
  | .scope _ :: rest => Part.allMethods rest

def Script.Declarator.allMethods : List Declarator → List (List Part)
  | [] => []
  | .mk _ _ inPattern none :: rest => Part.allMethods inPattern ++ Declarator.allMethods rest
  | .mk _ _ inPattern (some e) :: rest =>
    (Part.allMethods inPattern ++ e.methods) ++ Declarator.allMethods rest

end

/-- The first route array in some methods. -/
def firstHidden? (methods : List (List Part)) : Option RouteArray :=
  methods.findSome? Part.firstArray?

theorem firstHidden?_append (l l' : List (List Part)) :
    firstHidden? (l ++ l') = (firstHidden? l).or (firstHidden? l') := List.findSome?_append

/-! ## Expressions -/

mutual

/-- In an expression route arrays are met only in methods. -/
theorem Script.Expr.routeArray?_eq : (e : Expr) → e.declarators = [] →
    e.routeArray? = firstHidden? e.methods
  | .template _ holes _, h => Expr.firstArray?_eq holes h
  | .paren inner _, h | .asType inner _, h | .asConst inner _, h | .minus inner _, h =>
    Expr.routeArray?_eq inner h
  | .array elements _, h => Element.firstArray?_eq elements h
  | .object props _, h => Property.firstArray?_eq props h
  | .compound _ parts _, h => Part.firstArray?_eq parts h
  | .null _, _ | .bool _ _, _ | .number _ _, _ | .bigint _, _ | .string _ _, _ | .regex _, _
  | .ident _ _, _ => rfl

theorem Script.Expr.firstArray?_eq : (l : List Expr) → Expr.allDeclarators l = [] →
    Expr.firstArray? l = firstHidden? (Expr.allMethods l)
  | [], _ => rfl
  | e :: rest, h => by
    obtain ⟨he, hrest⟩ := List.append_eq_nil_iff.1 h
    rw [Expr.firstArray?, Expr.allMethods, firstHidden?_append, Expr.routeArray?_eq e he,
      Expr.firstArray?_eq rest hrest]

theorem Script.Element.firstArray?_eq : (l : List Element) → Element.allDeclarators l = [] →
    Element.firstArray? l = firstHidden? (Element.allMethods l)
  | [], _ => rfl
  | .hole :: rest, h => Element.firstArray?_eq rest h
  | .item e :: rest, h | .spread e :: rest, h => by
    obtain ⟨he, hrest⟩ := List.append_eq_nil_iff.1 h
    rw [Element.firstArray?, Element.allMethods, firstHidden?_append, Expr.routeArray?_eq e he,
      Element.firstArray?_eq rest hrest]

theorem Script.Property.firstArray?_eq : (l : List Property) → Property.allDeclarators l = [] →
    Property.firstArray? l = firstHidden? (Property.allMethods l)
  | [], _ => rfl
  | .shorthand _ _ :: rest, h => Property.firstArray?_eq rest h
  | .field key e :: rest, h => by
    obtain ⟨hfield, hrest⟩ := List.append_eq_nil_iff.1 h
    obtain ⟨hkey, he⟩ := List.append_eq_nil_iff.1 hfield
    rw [Property.firstArray?, Property.allMethods, firstHidden?_append, firstHidden?_append,
      Key.routeArray?_eq key hkey, Expr.routeArray?_eq e he, Property.firstArray?_eq rest hrest]
  | .spread e :: rest, h | .default _ e _ :: rest, h => by
    obtain ⟨he, hrest⟩ := List.append_eq_nil_iff.1 h
    rw [Property.firstArray?, Property.allMethods, firstHidden?_append, Expr.routeArray?_eq e he,
      Property.firstArray?_eq rest hrest]
  | .method parts _ :: rest, h => by
    rw [Property.firstArray?, Property.allMethods, Property.firstArray?_eq rest h, firstHidden?,
      firstHidden?, List.findSome?_cons]
    cases Part.firstArray? parts <;> rfl

theorem Script.Key.routeArray?_eq : (k : Key) → k.declarators = [] →
    k.routeArray? = firstHidden? k.methods
  | .computed parts _, h => Part.firstArray?_eq parts h
  | .name _ _, _ | .string _ _, _ | .number _ _, _ | .bigint _, _ => rfl

theorem Script.Part.firstArray?_eq : (l : List Part) → Part.allDeclarators l = [] →
    Part.firstArray? l = firstHidden? (Part.allMethods l)
  | [], _ => rfl
  | .imports _ _ _ :: rest, h | .scope _ :: rest, h => Part.firstArray?_eq rest h
  | .expr e :: rest, h => by
    obtain ⟨he, hrest⟩ := List.append_eq_nil_iff.1 h
    rw [Part.firstArray?, Part.allMethods, firstHidden?_append, Expr.routeArray?_eq e he,
      Part.firstArray?_eq rest hrest]
  | .declaration [] :: rest, h => Part.firstArray?_eq rest h
  | .declaration (_ :: _) :: _, h => nomatch h

end

/-- In declarators without declarations in them, route arrays are met only in methods. -/
theorem Script.Declarator.firstArray?_eq {l : List Declarator} (h : ∀ d ∈ l, d.nested = []) :
    Declarator.firstArray? l = firstHidden? (Declarator.allMethods l) := by
  induction l with
  | nil => rfl
  | cons d rest ih =>
    obtain ⟨hd, hrest⟩ := List.forall_mem_cons.1 h
    obtain ⟨name, isArray, inPattern, _ | e⟩ := d
    · rw [Declarator.firstArray?, Declarator.allMethods, firstHidden?_append,
        Part.firstArray?_eq inPattern hd, ih hrest]
    · obtain ⟨hpattern, he⟩ := List.append_eq_nil_iff.1 hd
      rw [Declarator.firstArray?, Declarator.allMethods, firstHidden?_append, firstHidden?_append,
        Part.firstArray?_eq inPattern hpattern, Expr.routeArray?_eq e he, ih hrest]

theorem Script.Declarator.allDeclarators_eq {l : List Declarator} (h : ∀ d ∈ l, d.nested = []) :
    Declarator.allDeclarators l = l := by
  induction l with
  | nil => rfl
  | cons d rest ih =>
    obtain ⟨hd, hrest⟩ := List.forall_mem_cons.1 h
    rw [Declarator.allDeclarators, hd, ih hrest, List.nil_append]

/-! ## Modules -/

/-- Among flat parts there is no route array where none is declared at their level and none in a
method. -/
theorem Script.Part.firstArray?_eq_none {l : List Part} (h : AllFlat l) :
    Part.firstArray? l = none ↔
      (Part.allDeclarators l).findSome? Declarator.routeArray? = none ∧
      firstHidden? (Part.allMethods l) = none := by
  induction l with
  | nil => exact ⟨fun _ => ⟨rfl, rfl⟩, fun _ => rfl⟩
  | cons p rest ih =>
    obtain ⟨hp, hrest⟩ := Part.allFlat_cons.1 h
    have ih := ih hrest
    cases p with
    | expr e =>
      have he : e.declarators = [] := Part.isFlat_expr.1 hp
      rw [Part.firstArray?, Part.allDeclarators, Part.declarators, Part.allMethods, he,
        firstHidden?_append, Expr.routeArray?_eq e he, Option.or_eq_none_iff, Option.or_eq_none_iff,
        ih, List.nil_append]
      tauto
    | declaration declarators =>
      have hd : ∀ d ∈ declarators, d.nested = [] := Part.isFlat_declaration.1 hp
      rw [Part.firstArray?, Part.allDeclarators, Part.declarators, Part.allMethods,
        Declarator.allDeclarators_eq hd, Declarator.firstArray?_eq hd, firstHidden?_append,
        List.findSome?_append]
      simp only [Option.or_eq_none_iff, ih]
      tauto
    | imports locals source span => exact ih
    | scope parts => exact ih

/-- Where no method declares a route array, the one among flat parts is the first that is declared
at their level. -/
theorem Script.Part.firstArray?_of_flat {l : List Part} (h : AllFlat l)
    (hmethods : firstHidden? (Part.allMethods l) = none) :
    Part.firstArray? l = (Part.allDeclarators l).findSome? Declarator.routeArray? := by
  induction l with
  | nil => rfl
  | cons p rest ih =>
    obtain ⟨hp, hrest⟩ := Part.allFlat_cons.1 h
    cases p with
    | expr e =>
      have he : e.declarators = [] := Part.isFlat_expr.1 hp
      rw [Part.allMethods, firstHidden?_append, Option.or_eq_none_iff] at hmethods
      rw [Part.firstArray?, Part.allDeclarators, Part.declarators, he, Expr.routeArray?_eq e he,
        hmethods.1, ih hrest hmethods.2]
      rfl
    | declaration declarators =>
      have hd : ∀ d ∈ declarators, d.nested = [] := Part.isFlat_declaration.1 hp
      rw [Part.allMethods, firstHidden?_append, Option.or_eq_none_iff] at hmethods
      rw [Part.firstArray?, Part.allDeclarators, Part.declarators, Declarator.allDeclarators_eq hd,
        Declarator.firstArray?_eq hd, hmethods.1, ih hrest hmethods.2, List.findSome?_append,
        Option.or_none]
    | imports locals source span => exact ih hrest hmethods
    | scope parts => exact ih hrest hmethods

theorem Script.Declarator.routeArray?_eq_some {d : Declarator} {a : RouteArray} :
    d.routeArray? = some a ↔
      ∃ inPattern, d = .mk (some a.binding) true inPattern (some (.array a.elements a.span)) := by
  constructor
  · intro h
    unfold routeArray? at h
    split at h
    · cases h
      exact ⟨_, rfl⟩
    · cases h
  · rintro ⟨inPattern, rfl⟩
    rfl

theorem readEntries_ne_missing (source : Text) (elements : List Element) :
    readEntries source elements ≠ .error .missingArray := by
  intro h
  unfold readEntries at h
  split at h
  · cases h
  · unfold locate at h
    split at h <;> cases h

theorem importAnchor_ne_missing (source : Text) (imports : List Import) :
    importAnchor source imports ≠ .error .missingArray := by
  intro h
  unfold importAnchor at h
  split at h
  · cases h
  · rw [map_eq_error] at h
    unfold lineEnd at h
    split at h
    · cases h
    · dsimp only at h
      split at h <;> cases h

/-- Only a module without route array lacks one. -/
theorem tableOf_eq_missing {source : Text} {parts : List Part} :
    tableOf source parts = .error .missingArray ↔ Part.firstArray? parts = none := by
  unfold tableOf
  cases Part.firstArray? parts with
  | none => exact ⟨fun _ => rfl, fun _ => rfl⟩
  | some array =>
    refine ⟨fun h => ?_, nofun⟩
    rcases bind_eq_error.1 h with h | ⟨_, -, h⟩
    · exact absurd h (readEntries_ne_missing _ _)
    rcases bind_eq_error.1 h with h | ⟨_, -, h⟩
    · exact absurd h (importAnchor_ne_missing _ _)
    · cases h

theorem tableOf_eq_ok {source : Text} {parts : List Part} {t : RouteTable}
    (h : tableOf source parts = .ok t) :
    ∃ elements, Part.firstArray? parts = some ⟨t.binding, elements, t.arraySpan⟩ ∧
      entriesOf elements = .ok t.entries := by
  unfold tableOf at h
  split at h
  · cases h
  · rename_i array harray
    obtain ⟨entries, hentries, h⟩ := bind_eq_ok.1 h
    obtain ⟨anchor, -, h⟩ := bind_eq_ok.1 h
    cases h
    exact ⟨array.elements, harray, readEntries_eq_ok.1 hentries⟩

theorem parseTable_of_read {dialect : Dialect} {source : Text} {parts : List Part}
    (hread : readModule dialect source = .ok parts) :
    parseTable dialect source = tableOf source parts := by
  rw [parseTable, hread]
  rfl

theorem firstHidden?_eq_none {methods : List (List Part)} :
    firstHidden? methods = none ↔ ∀ parts ∈ methods, Part.firstArray? parts = none :=
  List.findSome?_eq_none_iff

/-- A module that is read lacks a route array exactly if none of its declarators outside functions,
classes and methods declares one, and no method of an object outside these does. Where no such
method does, the route array is that of the first such declarator. -/
theorem parseTable_picks_first {dialect : Dialect} {source : Text} {parts : List Part}
    (hread : readModule dialect source = .ok parts) :
    (parseTable dialect source = .error .missingArray ↔
      (∀ d ∈ Part.allDeclarators parts, d.routeArray? = none) ∧
      ∀ m ∈ Part.allMethods parts, Part.firstArray? m = none) ∧
    ((∀ m ∈ Part.allMethods parts, Part.firstArray? m = none) →
      Part.firstArray? parts = (Part.allDeclarators parts).findSome? Declarator.routeArray? ∧
      ∀ t, parseTable dialect source = .ok t → ∃ before inPattern elements after,
        Part.allDeclarators parts = before ++
          .mk (some t.binding) true inPattern (some (.array elements t.arraySpan)) :: after ∧
        (∀ d ∈ before, d.routeArray? = none) ∧ entriesOf elements = .ok t.entries) := by
  have hflat : AllFlat parts := parseModule_flat (readModule_eq_ok.1 hread)
  rw [parseTable_of_read hread, tableOf_eq_missing, Part.firstArray?_eq_none hflat,
    firstHidden?_eq_none, List.findSome?_eq_none_iff]
  refine ⟨Iff.rfl, fun hmethods => ?_⟩
  have hfirst := Part.firstArray?_of_flat hflat (firstHidden?_eq_none.2 hmethods)
  refine ⟨hfirst, fun t ht => ?_⟩
  obtain ⟨elements, harray, hentries⟩ := tableOf_eq_ok ht
  rw [hfirst] at harray
  obtain ⟨before, d, after, hsplit, hd, hbefore⟩ := List.findSome?_eq_some_iff.1 harray
  obtain ⟨inPattern, rfl⟩ := Declarator.routeArray?_eq_some.1 hd
  exact ⟨before, inPattern, elements, after, hsplit, hbefore, hentries⟩

theorem parseTable_picks_first_nested :
    let source : Text := "class C \x7bm() \x7bconst a: R[]=[]\x7d\x7d\n" ++
      "const f=() => \x7bconst b: R[]=[]\x7d\nif (f) \x7bconst r: R[]=[]\x7d"
    ∃ parts, (readModule .ts source = .ok parts ∧
        ∀ m ∈ Part.allMethods parts, Part.firstArray? m = none) ∧
      ((Part.allDeclarators parts).findSome? Declarator.routeArray?).map (·.binding) =
        some "r".toList ∧
      parseTable .ts source ≠ .error .missingArray := by
  intro source
  have hcheck : (readModule .ts source).toOption.any (fun parts =>
      (firstHidden? (Part.allMethods parts)).isNone &&
        (Part.firstArray? parts).map (·.binding) == some "r".toList) = true := by decide +kernel
  obtain ⟨parts, hread, hparts⟩ := exists_ok_of_any hcheck
  obtain ⟨hhidden, hname⟩ := Bool.and_eq_true_iff.1 hparts
  have hmethods := firstHidden?_eq_none.1 (Option.isNone_iff_eq_none.1 hhidden)
  obtain ⟨hmissing, hpicks⟩ := parseTable_picks_first hread
  have hfirst := (hpicks hmethods).1
  rw [← eq_of_beq hname, hfirst]
  refine ⟨parts, ⟨hread, hmethods⟩, rfl, fun hlacks => ?_⟩
  have hnone := List.findSome?_eq_none_iff.2 (hmissing.1 hlacks).1
  rw [hfirst, hnone] at hname
  cases eq_of_beq hname

/-- Modules in which an array comes first that is declared inside a getter or setter: one whose
route array is passed over, and one that has none. -/
theorem parseTable_picks_getter :
    (let source : Text := "const o=\x7bget x() \x7bconst q: R[]=[]\x7d\x7d\nconst r: R[]=[]"
      ∃ parts t, readModule .ts source = .ok parts ∧
        ((Part.allDeclarators parts).findSome? Declarator.routeArray?).map (·.binding) =
          some "r".toList ∧
        parseTable .ts source = .ok t ∧ t.binding = "q".toList) ∧
    let source : Text := "const o=\x7bset x(v) \x7bconst q: R[]=[]\x7d\x7d"
    ∃ parts t, readModule .ts source = .ok parts ∧
      (∀ d ∈ Part.allDeclarators parts, d.routeArray? = none) ∧
      parseTable .ts source = .ok t ∧ t.binding = "q".toList := by
  constructor
  · intro source
    have hcheck : (readModule .ts source).toOption.any (fun parts =>
        ((Part.allDeclarators parts).findSome? Declarator.routeArray?).map (·.binding) ==
          some "r".toList &&
        (tableOf source parts).toOption.any (·.binding == "q".toList)) = true := by
      decide +kernel
    obtain ⟨parts, hread, hparts⟩ := exists_ok_of_any hcheck
    obtain ⟨hfirst, htable⟩ := Bool.and_eq_true_iff.1 hparts
    obtain ⟨t, ht, hq⟩ := exists_ok_of_any htable
    exact ⟨parts, t, hread, eq_of_beq hfirst, (parseTable_of_read hread).trans ht, eq_of_beq hq⟩
  · intro source
    have hcheck : (readModule .ts source).toOption.any (fun parts =>
        ((Part.allDeclarators parts).findSome? Declarator.routeArray?).isNone &&
        (tableOf source parts).toOption.any (·.binding == "q".toList)) = true := by
      decide +kernel
    obtain ⟨parts, hread, hparts⟩ := exists_ok_of_any hcheck
    obtain ⟨hnone, htable⟩ := Bool.and_eq_true_iff.1 hparts
    obtain ⟨t, ht, hq⟩ := exists_ok_of_any htable
    have hall := List.findSome?_eq_none_iff.1 (Option.isNone_iff_eq_none.1 hnone)
    exact ⟨parts, t, hread, hall, (parseTable_of_read hread).trans ht, eq_of_beq hq⟩

end RoutePages
