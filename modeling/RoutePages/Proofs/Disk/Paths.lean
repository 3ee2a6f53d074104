import RoutePages.Disk.Access
import RoutePages.Proofs.Text.Parts
import RoutePages.Text.Trim

/-!
# The names of paths

A path that is put behind another one has the names of both. Without links, the names of a path
alone tell its location.
-/
namespace RoutePages

theorem IsFileName.head?_ne {name : Text} (h : IsFileName name) : name.head? ≠ some '/' :=
  fun hhead => h.2.1 (List.mem_of_mem_head? hhead)

namespace FilePath

theorem resolveParts_append (done l₁ l₂ : List Text) :
    resolveParts done (l₁ ++ l₂) = resolveParts (resolveParts done l₁) l₂ := by
  induction l₁ generalizing done with
  | nil => rfl
  | cons name l₁ ih =>
    rw [List.cons_append, resolveParts, resolveParts]
    split
    · exact ih _
    · exact ih _

theorem resolveParts_plain (done : List Text) {names : List Text} (h : ∀ name ∈ names, name ≠ "..") :
    resolveParts done names = done ++ names := by
  induction names generalizing done with
  | nil => exact (List.append_nil done).symm
  | cons name names ih =>
    obtain ⟨hname, hnames⟩ := List.forall_mem_cons.1 h
    rw [resolveParts, if_neg hname, ih _ hnames, List.append_assoc, List.singleton_append]

theorem mem_resolveParts {done names : List Text} {name : Text}
    (h : name ∈ resolveParts done names) : name ∈ done ∨ name ∈ names ∧ name ≠ ".." := by
  induction names generalizing done with
  | nil => exact .inl h
  | cons next names ih =>
    unfold resolveParts at h
    split at h
    · rcases ih h with hdone | ⟨hrest, hne⟩
      · exact .inl (List.dropLast_subset _ hdone)
      · exact .inr ⟨List.mem_cons_of_mem _ hrest, hne⟩
    · rename_i hnext
      rcases ih h with hdone | ⟨hrest, hne⟩
      · rcases List.mem_append.1 hdone with hdone | hsame
        · exact .inl hdone
        · cases List.mem_singleton.1 hsame
          exact .inr ⟨List.mem_cons_self, hnext⟩
      · exact .inr ⟨List.mem_cons_of_mem _ hrest, hne⟩

/-- The location that names lead to from another one. -/
def locationFrom (place : Location) (names : List Text) : Location :=
  resolveParts place (names.filter (· ≠ "."))

theorem locationFrom_append (place : Location) (l₁ l₂ : List Text) :
    locationFrom place (l₁ ++ l₂) = locationFrom (locationFrom place l₁) l₂ := by
  rw [locationFrom, List.filter_append, resolveParts_append]
  rfl

theorem locationFrom_cons (place : Location) (name : Text) (names : List Text) :
    locationFrom place (name :: names) = locationFrom (locationFrom place [name]) names :=
  locationFrom_append place [name] names

theorem locationFrom_here (place : Location) : locationFrom place ["."] = place := rfl

theorem locationFrom_up (place : Location) : locationFrom place [".."] = place.dropLast := rfl

theorem locationFrom_plain (place : Location) {names : List Text}
    (h : ∀ name ∈ names, name ≠ "." ∧ name ≠ "..") : locationFrom place names = place ++ names := by
  have hkept : names.filter (fun name : Text => decide (name ≠ ".")) = names :=
    List.filter_eq_self.2 fun name hname => decide_eq_true (h name hname).1
  rw [locationFrom, hkept, resolveParts_plain place fun name hname => (h name hname).2]

/-- The location of a path. -/
def location (base : Location) (p : FilePath) : Location := locationFrom [] (p.steps base)

variable {base : Location} {absolute : Bool} {dir : FilePath} {name : Text}

theorem names_append (s t : Text) : names ⟨s ++ '/' :: t⟩ = names ⟨s⟩ ++ names ⟨t⟩ := by
  rw [names, Text.splitOn_append, List.filter_append]
  rfl

/-- What does not begin with a slash is put behind one, which may be there already. -/
theorem join_relative (dir : FilePath) (h : name.head? ≠ some '/') :
    (dir.text = [] ∧ dir.join name = ⟨name⟩) ∨
      ∃ s, (dir.text = s ∧ s ≠ [] ∨ dir.text = s ++ ['/']) ∧
        dir.join name = ⟨s ++ '/' :: name⟩ := by
  unfold join
  split
  · exact absurd rfl h
  · split
    · rename_i hlast
      have hempty := List.getLast?_eq_none_iff.1 hlast
      exact .inl ⟨hempty, by rw [hempty]; rfl⟩
    · rename_i hlast
      obtain ⟨s, hs⟩ := List.getLast?_eq_some_iff.1 hlast
      refine .inr ⟨s, .inr hs, ?_⟩
      rw [hs, List.append_assoc, List.singleton_append]
    · rename_i c hlast
      have hne : dir.text ≠ [] := by
        intro hempty
        rw [hempty] at hlast
        cases hlast
      exact .inr ⟨dir.text, .inl ⟨rfl, hne⟩, rfl⟩

theorem names_join (dir : FilePath) (h : name.head? ≠ some '/') :
    (dir.join name).names = dir.names ++ names ⟨name⟩ := by
  rcases join_relative dir h with ⟨hdir, hjoin⟩ | ⟨s, hdir, hjoin⟩
  · rw [hjoin, names, names, hdir]
    rfl
  · have hsame : dir.names = names ⟨s⟩ := by
      rcases hdir with ⟨rfl, -⟩ | hdir
      · rfl
      · rw [names, hdir]
        exact (names_append s []).trans (List.append_nil _)
    rw [hjoin, names_append, hsame]

theorem isAbsolute_join (dir : FilePath) (h : name.head? ≠ some '/') :
    (dir.join name).isAbsolute = dir.isAbsolute := by
  rcases join_relative dir h with ⟨hdir, hjoin⟩ | ⟨s, hdir, hjoin⟩
  · rw [hjoin, isAbsolute, isAbsolute, hdir, decide_eq_false h]
    rfl
  · have hhead : (s ++ '/' :: name).head? = dir.text.head? := by
      rcases hdir with ⟨rfl, hne⟩ | hdir
      · obtain ⟨c, rest, hs⟩ := List.exists_cons_of_ne_nil hne
        rw [hs]
        rfl
      · rw [hdir, List.head?_append, List.head?_append]
        rfl
    rw [hjoin, isAbsolute, isAbsolute, hhead]

theorem getLast?_join (dir : FilePath) (h : name.head? ≠ some '/') (hne : name ≠ []) :
    (dir.join name).text.getLast? = name.getLast? := by
  rcases join_relative dir h with ⟨-, hjoin⟩ | ⟨s, -, hjoin⟩
  · rw [hjoin]
  · have hbehind : s ++ '/' :: name = s ++ ['/'] ++ name := by simp
    rw [hjoin, hbehind]
    cases hlast : name.getLast? with
    | none => exact absurd (List.getLast?_eq_none_iff.1 hlast) hne
    | some c =>
      rw [List.getLast?_append, hlast]
      rfl

/-! ## The directories above a path -/

theorem mem_aboveRoute_cons {q : FilePath} {names : List Text}
    (h : q ∈ aboveRoute absolute (name :: names)) :
    q = ofRoute absolute names.reverse ∨ q ∈ aboveRoute absolute names := by
  cases names with
  | nil =>
    unfold aboveRoute at h
    split at h
    · exact .inl (List.mem_singleton.1 h)
    · cases h
  | cons next names => exact List.mem_cons.1 h

/-- A directory above a path through more names is above the path through the first of them,
or leads through all of those. -/
theorem mem_aboveRoute_append {q : FilePath} {more names : List Text}
    (h : q ∈ aboveRoute absolute (more ++ names)) :
    q ∈ aboveRoute absolute names ∨
      ∃ kept, kept <:+ more ∧ q = ofRoute absolute (names.reverse ++ kept.reverse) := by
  induction more with
  | nil => exact .inl h
  | cons name more ih =>
    have hkept : ∀ {kept}, kept <:+ more → kept <:+ name :: more :=
      fun hkept => hkept.trans (List.suffix_cons name more)
    rcases mem_aboveRoute_cons h with rfl | h
    · exact .inr ⟨more, List.suffix_cons name more,
        congrArg (ofRoute absolute) (@List.reverse_append _ more names)⟩
    · rcases ih h with h | ⟨kept, hsuffix, hq⟩
      · exact .inl h
      · exact .inr ⟨kept, hkept hsuffix, hq⟩

theorem names_ofRoute (absolute : Bool) {names : List Text}
    (h : ∀ name ∈ names, name ≠ [] ∧ '/' ∉ name) :
    (ofRoute absolute names).names = names ∧ (ofRoute absolute names).isAbsolute = absolute := by
  have hkept : names.filter (fun name : Text => decide (name ≠ [])) = names :=
    List.filter_eq_self.2 fun name hname => decide_eq_true (h name hname).1
  have hjoin : FilePath.names ⟨Text.join ['/'] names⟩ = names := by
    cases names with
    | nil => rfl
    | cons name names =>
      rw [FilePath.names, Text.splitOn_join (List.cons_ne_nil _ _) fun part hpart => (h part hpart).2]
      exact hkept
  cases absolute with
  | true =>
    refine ⟨?_, rfl⟩
    exact (names_append [] (Text.join ['/'] names)).trans hjoin
  | false =>
    refine ⟨hjoin, decide_eq_false ?_⟩
    intro hhead
    cases names with
    | nil => cases hhead
    | cons name names =>
      obtain ⟨hne, hslash⟩ := h name List.mem_cons_self
      have hfirst : (Text.join ['/'] (name :: names)).head? = name.head? := by
        cases names with
        | nil => rfl
        | cons next names =>
          cases name with
          | nil => exact absurd rfl hne
          | cons c name => rfl
      exact hslash (List.mem_of_mem_head? (hfirst.symm.trans hhead))

theorem parts_spec {p : FilePath} : ∀ name ∈ p.parts, name ≠ [] ∧ '/' ∉ name := by
  intro name hname
  obtain ⟨hpart, hne⟩ := List.mem_filter.1 (List.mem_filter.1 hname).1
  exact ⟨of_decide_eq_true hne, Text.not_mem_of_mem_splitOn _ _ _ hpart⟩

theorem locationFrom_parts (place : Location) (p : FilePath) :
    locationFrom place p.parts = locationFrom place p.names := by
  rw [locationFrom, locationFrom, parts, List.filter_filter]
  simp only [Bool.and_self]

theorem location_ofRoute {names : List Text} (h : ∀ name ∈ names, name ≠ [] ∧ '/' ∉ name) :
    (ofRoute absolute names).location base =
      locationFrom (locationFrom [] (if absolute then [] else base)) names := by
  obtain ⟨hnames, habsolute⟩ := names_ofRoute absolute h
  rw [location, steps, hnames, habsolute, locationFrom_append]

/-! ## Paths that lead further down -/

/-- A path leads on from another one, through names that lead down. -/
structure Continues (root p : FilePath) (names : List Text) : Prop where
  absolute : p.isAbsolute = root.isAbsolute
  route : p.names = root.names ++ names
  plain : ∀ name ∈ names, name ≠ "." ∧ name ≠ ".."

namespace Continues

variable {root p q : FilePath} {names more : List Text}

theorem refl (root : FilePath) : root.Continues root [] :=
  ⟨rfl, (List.append_nil _).symm, by simp⟩

theorem trans (h : root.Continues p names) (h' : p.Continues q more) :
    root.Continues q (names ++ more) where
  absolute := h'.absolute.trans h.absolute
  route := by rw [h'.route, h.route, List.append_assoc]
  plain := fun name hname => (List.mem_append.1 hname).elim (h.plain name) (h'.plain name)

theorem steps (h : root.Continues p names) (base : Location) :
    p.steps base = root.steps base ++ names := by
  rw [FilePath.steps, FilePath.steps, h.absolute, h.route, List.append_assoc]

theorem location (h : root.Continues p names) (base : Location) :
    p.location base = root.location base ++ names := by
  rw [FilePath.location, FilePath.location, h.steps, locationFrom_append,
    locationFrom_plain _ h.plain]

theorem parts (h : root.Continues p names) : p.parts = root.parts ++ names := by
  have hkept : names.filter (fun name : Text => decide (name ≠ ".")) = names :=
    List.filter_eq_self.2 fun name hname => decide_eq_true (h.plain name hname).1
  rw [FilePath.parts, h.route, List.filter_append, hkept]
  rfl

/-- Of two paths that a third one leads on from, one leads on from the other. -/
theorem comparable {first second : List Text} (h : root.Continues p first)
    (h' : q.Continues p second) :
    (∃ names, q.Continues root names) ∨ ∃ names, root.Continues q names := by
  have habsolute := h.absolute.symm.trans h'.absolute
  rcases List.append_eq_append_iff.1 (h.route.symm.trans h'.route) with
    ⟨names, hq, hnames⟩ | ⟨names, hroot, hnames⟩
  · refine .inr ⟨names, habsolute.symm, hq, fun name hname => h.plain name ?_⟩
    rw [hnames]
    exact List.mem_append_left _ hname
  · refine .inl ⟨names, habsolute, hroot, fun name hname => h'.plain name ?_⟩
    rw [hnames]
    exact List.mem_append_left _ hname

/-- What leads to a path leads to the one that it leads on from, or lies below that one. -/
theorem mem_above (h : root.Continues p names) (base : Location) (hq : q ∈ p.above) :
    q ∈ root.above ∨ ∃ kept, kept <+: names ∧ q.location base = root.location base ++ kept := by
  rw [above, h.parts, h.absolute, List.reverse_append] at hq
  rcases mem_aboveRoute_append hq with hq | ⟨kept, hsuffix, rfl⟩
  · exact .inl hq
  · -- it leads through all names of the root, and then only down
    have hfirst : kept.reverse <+: names := by
      rw [← List.reverse_suffix, List.reverse_reverse]
      exact hsuffix
    have hparts : ∀ name ∈ root.parts ++ kept.reverse, name ≠ [] ∧ '/' ∉ name := by
      intro name hname
      refine parts_spec (p := p) name ?_
      rw [h.parts]
      exact (List.mem_append.1 hname).elim (List.mem_append_left _)
        fun hkept => List.mem_append_right _ (hfirst.subset hkept)
    have hroot : root.location base = locationFrom
        (locationFrom [] (if root.isAbsolute then [] else base)) root.parts := by
      rw [locationFrom_parts, FilePath.location, FilePath.steps, locationFrom_append]
    rw [List.reverse_reverse, location_ofRoute hparts, locationFrom_append, ← hroot,
      locationFrom_plain _ fun name hname => h.plain name (hfirst.subset hname)]
    exact .inr ⟨kept.reverse, hfirst, rfl⟩

end Continues

theorem head?_join_names {names : List Text} (h : ∀ name ∈ names, IsFileName name) :
    (Text.join "/" names).head? ≠ some '/' :=
  of_decide_eq_false (names_ofRoute false fun name hname =>
    ⟨(h name hname).1, (h name hname).2.1⟩).2

/-- Names of files are put behind a path. -/
theorem continues_join (dir : FilePath) {names : List Text} (h : ∀ name ∈ names, IsFileName name) :
    dir.Continues (dir.join (Text.join "/" names)) names := by
  have hroute : FilePath.names ⟨Text.join "/" names⟩ = names :=
    (names_ofRoute false fun name hname => ⟨(h name hname).1, (h name hname).2.1⟩).1
  refine ⟨isAbsolute_join dir (head?_join_names h), ?_, fun name hname => (h name hname).2.2⟩
  rw [names_join dir (head?_join_names h), hroute]

theorem continues_name (dir : FilePath) (h : IsFileName name) :
    dir.Continues (dir.join name) [name] :=
  continues_join dir fun _ hname => List.mem_singleton.1 hname ▸ h

/-- Names of files are put behind a path one by one. -/
theorem continues_foldl (dir : FilePath) {names : List Text} (h : ∀ name ∈ names, IsFileName name) :
    dir.Continues (names.foldl join dir) names := by
  induction names generalizing dir with
  | nil => exact .refl dir
  | cons name names ih =>
    obtain ⟨hname, hnames⟩ := List.forall_mem_cons.1 h
    exact (continues_name dir hname).trans (ih (dir.join name) hnames)

theorem steps_ofParts (base : Location) {names : List Text}
    (h : ∀ name ∈ names, name ≠ [] ∧ '/' ∉ name) : (ofParts names).steps base = names := by
  have hkept : names.filter (fun name : Text => decide (name ≠ [])) = names :=
    List.filter_eq_self.2 fun name hname => decide_eq_true (h name hname).1
  cases names with
  | nil => rfl
  | cons first rest =>
    have hsplit := Text.splitOn_flatMap fun name hname => (h name hname).2
    have hnames : FilePath.names ⟨(first :: rest).flatMap ('/' :: ·)⟩ = first :: rest := by
      rw [FilePath.names, hsplit, List.filter_cons_of_neg (by decide)]
      exact hkept
    exact hnames

/-- A cleaned path leads down by each of its names. -/
theorem isClean_clean (p : FilePath) : p.clean.IsClean := by
  have hkept : ∀ name ∈ resolveParts [] p.parts, name ∈ p.parts ∧ name ≠ ".." :=
    fun name hname => (mem_resolveParts hname).resolve_left List.not_mem_nil
  have hnames := steps_ofParts [] fun name hname => parts_spec name (hkept name hname).1
  have habsolute : (ofParts (resolveParts [] p.parts)).isAbsolute = true := by
    unfold ofParts
    cases resolveParts [] p.parts <;> rfl
  refine ⟨habsolute, fun name hname => ?_⟩
  rw [steps, habsolute, if_pos rfl, List.nil_append] at hnames
  rw [clean, hnames] at hname
  obtain ⟨hpart, hup⟩ := hkept name hname
  exact ⟨of_decide_eq_true (List.mem_filter.1 hpart).2, hup⟩

namespace IsClean

variable {root q : FilePath}

theorem parts (h : root.IsClean) : root.parts = root.names :=
  List.filter_eq_self.2 fun name hname => decide_eq_true (h.plain name hname).1

theorem up_not_mem_steps (h : root.IsClean) (base : Location) : (".." : Text) ∉ root.steps base := by
  rw [steps, h.absolute, if_pos rfl, List.nil_append]
  exact fun hup => (h.plain _ hup).2 rfl

theorem location (h : root.IsClean) (base : Location) : root.location base = root.names := by
  rw [FilePath.location, steps, h.absolute, if_pos rfl, List.nil_append]
  exact locationFrom_plain [] h.plain

theorem continues {p : FilePath} {names : List Text} (h : root.IsClean)
    (hp : root.Continues p names) : p.IsClean := by
  refine ⟨hp.absolute.trans h.absolute, fun name hname => ?_⟩
  rw [hp.route] at hname
  exact (List.mem_append.1 hname).elim (h.plain name) (hp.plain name)

/-- A clean path lies below the directories that lead to it. -/
theorem continues_of_mem_above (h : root.IsClean) (hq : q ∈ root.above) :
    ∃ names, q.Continues root names := by
  rw [above, h.parts, ← List.append_nil root.names.reverse] at hq
  rcases mem_aboveRoute_append hq with hq | ⟨kept, hkept, rfl⟩
  · cases hq
  · obtain ⟨names, hnames⟩ : kept.reverse <+: root.names := by
      rw [← List.reverse_suffix, List.reverse_reverse]
      exact hkept
    have hproper : ∀ name ∈ kept.reverse, name ≠ [] ∧ '/' ∉ name := by
      intro name hname
      refine parts_spec (p := root) name ?_
      rw [h.parts, ← hnames]
      exact List.mem_append_left _ hname
    obtain ⟨hroute, habsolute⟩ := names_ofRoute root.isAbsolute hproper
    refine ⟨names, habsolute.symm, ?_, fun name hname => h.plain name ?_⟩
    · rw [List.reverse_nil, List.nil_append, hroute, hnames]
    · rw [← hnames]
      exact List.mem_append_right _ hname

end IsClean
end FilePath
end RoutePages
