import RoutePages.Proofs.Host.Journey
import RoutePages.Proofs.Project.Start
import RoutePages.Proofs.Text.Order

/-!
# The way through a template

Starting a project goes through the entries of the template in the order of their names. Where
nothing new comes to stand in its directories before they are listed, a walk meets what was there at
the start.
-/
namespace RoutePages

open World Disk

namespace Start

/-- The entry is a file. -/
def isFile (s : Start) (names : List Text) : Bool :=
  (s.held? names).map Node.kind = some .file

/-- What a walk leaves at the copy of an entry. -/
structure IsCopied (s : Start) (title : Text) (d : Disk) (names : List Text) : Prop where
  directory : (s.copyPath names).text ≠ [] → s.held? names = some .directory →
    d.kind? s.base (s.copyPath names) = some .directory
  file : ∀ content, s.held? names = some (.file content) →
    d.kind? s.base (s.copyPath names) = some .file
  filled : s.IsApart → ∀ content, s.held? names = some (.file content) →
    d.get? (s.copy names) = some (.file (fillIn title content))

/-- A journey under way to an entry: the disk has changed since the start only as a walk through the
entries before it changes it. -/
structure IsUnderWay (s : Start) (next : List Text) (j : Journey) : Prop where
  base : j.world.workingDirectory = s.base
  fills : s.Fills (fun names => (s.held? names).isSome = true ∧ names < next) s.disk j.world.disk

/-- A journey that meets some entries of the template in their order, and copies them unless it
fails. -/
structure Meets (s : Start) (title : Text) (seen : List (List Text)) (j j' : Journey)
    (result : Except InitError (List FilePath)) : Prop where
  base : j'.world.workingDirectory = s.base
  visited : j'.visited = j.visited ++ seen.map s.sourcePath
  fills : s.Fills (· ∈ seen) j.world.disk j'.world.disk
  present : ∀ names ∈ seen, (s.held? names).isSome = true
  ordered : seen.Pairwise (· < ·)
  copies : ∀ copies, result = .ok copies → copies = (seen.filter s.isFile).map s.copyPath
  copied : ∀ copies, result = .ok copies → ∀ names ∈ seen, s.IsCopied title j'.world.disk names

/-- A journey that meets entries below some names only, and all of them unless it fails. -/
def Walks (s : Start) (title : Text) (tops : List (List Text)) (j j' : Journey)
    (result : Except InitError (List FilePath)) : Prop :=
  ∃ seen, s.Meets title seen j j' result ∧
    (∀ names ∈ seen, ∃ top ∈ tops, top <+: names) ∧
    ∀ copies, result = .ok copies → ∀ top ∈ tops, ∀ names, top <+: names →
      (s.held? names).isSome = true → names ∈ seen

variable {s : Start} {title : Text} {names dir next later : List Text} {seen more tops : List (List Text)}
  {d d' : Disk} {j j' j₁ : Journey} {result : Except InitError (List FilePath)}
  {copies : List FilePath}

theorem isFile_iff : s.isFile names = true ↔ ∃ content, s.held? names = some (.file content) := by
  rw [isFile, decide_eq_true_eq, Node.map_kind_eq_file]

/-- A copy stays what it is while other entries are copied. -/
theorem IsCopied.fills (h : s.IsCopied title d names) {copied : List Text → Prop}
    (hfills : s.Fills copied d d') (hother : ¬ copied names) : s.IsCopied title d' names where
  directory := fun htext hentry => hfills.keeps.kind? (h.directory htext hentry)
  file := fun content hentry => hfills.keeps.kind? (h.file content hentry)
  filled := by
    intro hapart content hentry
    have hold := h.filled hapart content hentry
    rcases hfills.changed (s.copy names) with hsame | ⟨other, hcopied, hplace⟩ | ⟨-, hnone, -⟩
    · exact hsame.trans hold
    · exact absurd (copy_injective hplace ▸ hcopied) hother
    · cases hnone.symm.trans hold

theorem IsUnderWay.meets (h : s.IsUnderWay next j) (hmeets : s.Meets title seen j j' result)
    (hless : ∀ names ∈ seen, names < later) (hlater : next ≤ later) : s.IsUnderWay later j' := by
  refine ⟨hmeets.base, (h.fills.imp fun names hnames => ?_).trans
    (hmeets.fills.imp fun names hseen => ⟨hmeets.present names hseen, hless names hseen⟩)⟩
  exact ⟨hnames.1, lt_of_lt_of_le hnames.2 hlater⟩

theorem IsUnderWay.plain (h : s.IsUnderWay next j) (hs : s.IsProper) : j.world.disk.IsPlain :=
  h.fills.plain hs.plain

/-- One journey behind the other. -/
theorem Meets.append (h : s.Meets title seen j j₁ (.ok copies))
    (h' : s.Meets title more j₁ j' result) (hless : ∀ a ∈ seen, ∀ b ∈ more, a < b) :
    s.Meets title (seen ++ more) j j' (result.map (copies ++ ·)) where
  base := h'.base
  visited := by rw [h'.visited, h.visited, List.append_assoc, List.map_append]
  fills := (h.fills.imp fun _ hseen => List.mem_append_left _ hseen).trans
    (h'.fills.imp fun _ hmore => List.mem_append_right _ hmore)
  present := fun names hnames => (List.mem_append.1 hnames).elim (h.present names) (h'.present names)
  ordered := List.pairwise_append.2 ⟨h.ordered, h'.ordered, hless⟩
  copies := by
    intro all hall
    obtain ⟨rest, hrest, rfl⟩ := map_eq_ok.1 hall
    rw [List.filter_append, List.map_append, ← h.copies copies rfl, ← h'.copies rest hrest]
  copied := by
    intro all hall names hnames
    obtain ⟨rest, hrest, -⟩ := map_eq_ok.1 hall
    rcases List.mem_append.1 hnames with hseen | hmore
    · exact (h.copied copies rfl names hseen).fills h'.fills
        fun hmore => lt_irrefl names (hless names hseen names hmore)
    · exact h'.copied rest hrest names hmore

theorem Walks.cons {top : List Text} (h : s.Walks title [top] j j₁ (.ok copies))
    (h' : s.Walks title tops j₁ j' result)
    (hless : ∀ a b, top <+: a → (∃ other ∈ tops, other <+: b) → a < b) :
    s.Walks title (top :: tops) j j' (result.map (copies ++ ·)) := by
  obtain ⟨seen, hmeets, hbelow, hall⟩ := h
  obtain ⟨more, hmeets', hbelow', hall'⟩ := h'
  refine ⟨seen ++ more, hmeets.append hmeets' fun a ha b hb => ?_, fun names hnames => ?_, ?_⟩
  · obtain ⟨other, hother, hextends⟩ := hbelow a ha
    exact hless a b (List.mem_singleton.1 hother ▸ hextends) (hbelow' b hb)
  · rcases List.mem_append.1 hnames with hseen | hmore
    · obtain ⟨other, hother, hextends⟩ := hbelow names hseen
      exact ⟨top, List.mem_cons_self, List.mem_singleton.1 hother ▸ hextends⟩
    · obtain ⟨other, hother, hextends⟩ := hbelow' names hmore
      exact ⟨other, List.mem_cons_of_mem _ hother, hextends⟩
  · intro all hresult other hother names hextends hpresent
    obtain ⟨rest, hrest, -⟩ := map_eq_ok.1 hresult
    rcases List.mem_cons.1 hother with rfl | hother
    · exact List.mem_append_left _
        (hall copies rfl other List.mem_cons_self names hextends hpresent)
    · exact List.mem_append_right _ (hall' rest hrest other hother names hextends hpresent)

/-- A directory is met before what is in it. -/
theorem Walks.directory (h' : s.Walks title tops j₁ j' result)
    (h : s.Meets title [dir] j j₁ (.ok [])) (htops : ∀ top ∈ tops, dir <+: top ∧ top ≠ dir)
    (hcover : ∀ names, dir <+: names → names ≠ dir → (s.held? names).isSome = true →
      ∃ top ∈ tops, top <+: names) : s.Walks title [dir] j j' result := by
  obtain ⟨seen, hmeets, hbelow, hall⟩ := h'
  have hdir : ∀ names ∈ seen, dir <+: names ∧ names ≠ dir := by
    intro names hnames
    obtain ⟨top, htop, hextends⟩ := hbelow names hnames
    obtain ⟨hfirst, hne⟩ := htops top htop
    refine ⟨hfirst.trans hextends, ?_⟩
    rintro rfl
    exact hne (hextends.eq_of_length_le hfirst.length_le)
  have hsame : result.map (([] : List FilePath) ++ ·) = result := by
    cases result <;> rfl
  refine ⟨[dir] ++ seen, hsame ▸ h.append hmeets fun a ha b hb => ?_, fun names hnames => ?_, ?_⟩
  · rw [List.mem_singleton.1 ha]
    exact lt_of_extends (hdir b hb).1 (hdir b hb).2
  · refine ⟨dir, List.mem_cons_self, ?_⟩
    rcases List.mem_cons.1 hnames with rfl | hseen
    · exact List.prefix_rfl
    · exact (hdir names hseen).1
  · intro copies hresult top htop names hextends hpresent
    rw [List.mem_singleton.1 htop] at hextends
    by_cases heq : names = dir
    · exact heq ▸ List.mem_cons_self
    · obtain ⟨other, hother, hextends'⟩ := hcover names hextends heq hpresent
      exact List.mem_cons_of_mem _ (hall copies hresult other hother names hextends' hpresent)

theorem Meets.walks (h : s.Meets title [names] j j' result)
    (hfile : ∀ copies, result = .ok copies → s.isFile names = true) :
    s.Walks title [names] j j' result := by
  refine ⟨[names], h, fun other hother => ⟨other, hother, List.prefix_rfl⟩, ?_⟩
  intro copies hresult top htop other hextends hpresent
  rw [List.mem_singleton.1 htop] at hextends
  refine List.mem_singleton.2 (Decidable.byContradiction fun hne => ?_)
  obtain ⟨content, hentry⟩ := isFile_iff.1 (hfile copies hresult)
  cases hentry.symm.trans (directory_of_extends hextends hne hpresent)

/-! ## One entry -/

/-- What is met on the way is an entry of the template. -/
structure Holds (s : Start) (met : Met) : Prop where
  path : met.path = s.sourcePath met.names
  kind : (s.held? met.names).map Node.kind = some met.kind

variable {met : Met}

theorem Holds.isSome (h : s.Holds met) : (s.held? met.names).isSome = true := by
  obtain ⟨node, hnode, -⟩ := Option.map_eq_some_iff.1 h.kind
  exact Option.isSome_of_mem hnode

theorem Holds.child {name : Text} {kind : Kind} (h : s.Holds met)
    (hkind : (s.held? (met.names ++ [name])).map Node.kind = some kind) :
    s.Holds (met.child name kind) :=
  ⟨by rw [Met.child, sourcePath_concat, h.path], hkind⟩

/-- The entry is met, and then something fails. -/
theorem meets_of_error {e : InitError} (hpresent : (s.held? names).isSome = true)
    (hbase : j'.world.workingDirectory = s.base)
    (hvisited : j'.visited = j.visited ++ [s.sourcePath names])
    (hfills : s.Fills (· ∈ [names]) j.world.disk j'.world.disk) :
    s.Meets title [names] j j' (.error e) where
  base := hbase
  visited := hvisited
  fills := hfills
  present := fun _ hother => List.mem_singleton.1 hother ▸ hpresent
  ordered := List.pairwise_singleton _ _
  copies := nofun
  copied := nofun

/-- The entry is met, and its copy is written. -/
theorem meets_of_write {old content : Bytes} (hs : s.IsProper) (hplain : j.world.disk.IsPlain)
    (hentry : s.held? names = some (.file old)) (hsame : s.IsApart → content = old)
    (hbase : j'.world.workingDirectory = s.base)
    (hvisited : j'.visited = j.visited ++ [s.sourcePath names])
    (hwrite : j.world.disk.write s.base (s.copyPath names) (fillIn title content) =
      .ok j'.world.disk) : s.Meets title [names] j j' (.ok [s.copyPath names]) where
  base := hbase
  visited := hvisited
  fills := write_fills hplain (Option.isSome_of_mem hentry) List.mem_cons_self hwrite
  present := fun _ hother => List.mem_singleton.1 hother ▸ Option.isSome_of_mem hentry
  ordered := List.pairwise_singleton _ _
  copies := by
    intro copies hcopies
    cases hcopies
    rw [List.filter_cons_of_pos (isFile_iff.2 ⟨old, hentry⟩)]
    rfl
  copied := by
    intro copies _ other hother
    cases List.mem_singleton.1 hother
    have hnames := isFileName_of_isSome (Option.isSome_of_mem hentry)
    have hwritten := hplain.written hwrite
    refine ⟨fun _ hdir => ?_, fun _ _ => ?_, fun hapart known hknown => ?_⟩
    · cases hentry.symm.trans hdir
    · refine hwritten.kind? (s.getLast?_copyPath hnames ?_)
      rintro rfl
      cases hentry.symm.trans hs.root
    · cases hentry.symm.trans hknown
      rw [← s.location_copyPath hnames, hwritten.get?_location, hsame hapart]

/-- A file is read; then something fails and the disk stays as it is, or its copy is written. -/
theorem copyFile_cases {target : FilePath}
    (h : j.run (copyFile target title met) = (result, j')) :
    j'.visited = j.visited ++ [met.path] ∧
      j'.world.workingDirectory = j.world.workingDirectory ∧
      ((∃ e, result = .error e) ∧ j'.world.disk = j.world.disk ∨
        ∃ content, j.world.disk.read j.world.workingDirectory met.path = .ok content ∧
          j.world.disk.write j.world.workingDirectory (target.join (Text.join "/" met.names))
            (fillIn title content) = .ok j'.world.disk ∧
          result = .ok [target.join (Text.join "/" met.names)]) := by
  rcases Journey.run_andThen h with ⟨e, hread, rfl⟩ | ⟨content, j₁, hread, h⟩
  · rw [Journey.run_read] at hread
    cases congrArg Prod.snd hread
    exact ⟨rfl, rfl, .inl ⟨⟨e, rfl⟩, rfl⟩⟩
  rw [Journey.run_read] at hread
  cases congrArg Prod.snd hread
  have hcontent := mapError_eq_ok.1 (congrArg Prod.fst hread)
  let step : Disk → Location → Except Fault Disk :=
    (Disk.write · · (target.join (Text.join "/" met.names)) (fillIn title content))
  rcases Journey.run_andThen h with ⟨e, hwrite, rfl⟩ | ⟨_, j₂, hwrite, h⟩
  · obtain ⟨hvisited, hbase, ⟨-, hdisk⟩ | ⟨⟨⟩, -⟩⟩ := Journey.run_change step hwrite
    exact ⟨hvisited, hbase, .inl ⟨⟨e, rfl⟩, hdisk⟩⟩
  obtain ⟨hvisited, hbase, ⟨⟨e, ⟨⟩⟩, -⟩ | ⟨-, hstep⟩⟩ := Journey.run_change step hwrite
  rcases Journey.run_andThen h with ⟨e, hreport, rfl⟩ | ⟨_, j₃, hreport, h⟩
  · cases congrArg Prod.fst hreport
  cases congrArg Prod.snd hreport
  cases h
  exact ⟨hvisited, hbase, .inr ⟨content, hcontent, hstep, rfl⟩⟩

theorem copyFile_meets (hs : s.IsProper) (hmet : s.Holds met) (hfile : met.kind = .file)
    (hunder : s.IsUnderWay next j) (h : j.run (copyFile s.target title met) = (result, j')) :
    s.Meets title [met.names] j j' result := by
  have hpresent := hmet.isSome
  have hplain := hunder.plain hs
  obtain ⟨hvisited, hbase, hcases⟩ := copyFile_cases h
  rw [hmet.path] at hvisited
  rcases hcases with ⟨⟨e, rfl⟩, hdisk⟩ | ⟨content, hread, hwrite, rfl⟩
  · refine meets_of_error hpresent (hbase.trans hunder.base) hvisited ?_
    rw [hdisk]
    exact .refl _
  obtain ⟨old, hentry⟩ : ∃ old, s.held? met.names = some (.file old) := by
    rw [← isFile_iff, isFile, hmet.kind, hfile]
    rfl
  have hcontent := hplain.read_eq_ok hread
  rw [hunder.base, hmet.path, s.location_sourcePath (isFileName_of_isSome hpresent)] at hcontent
  rw [hunder.base] at hwrite
  refine meets_of_write hs hplain hentry (fun hapart => ?_) (hbase.trans hunder.base) hvisited hwrite
  rw [hapart.get?_source hs.plain hunder.fills, hentry] at hcontent
  cases hcontent
  rfl

/-! ## The whole tree -/

/-- A directory of the template lists what it held at the start. -/
theorem IsUnderWay.mem_entries (hunder : s.IsUnderWay names j) (hs : s.IsProper)
    (hclear : s.IsClear) (hstart : names = [] → j.world.disk = s.disk)
    (hdir : s.held? names = some .directory) {name : Text} {kind : Kind} :
    (name, kind) ∈ j.world.disk.entries (s.source names) ↔
      (s.held? (names ++ [name])).map Node.kind = some kind := by
  have hplain := hunder.plain hs
  rw [Disk.mem_entries, hplain.map_kind, ← source_append]
  suffices hsame : (j.world.disk.get? (s.source (names ++ [name]))).map Node.kind =
      (s.held? (names ++ [name])).map Node.kind by rw [hsame]
  by_cases hne : names = []
  · rw [hstart hne]
    rfl
  · cases hentry : s.held? (names ++ [name]) with
    | some node =>
      exact hs.plain.map_kind_of_keeps hplain hunder.fills.keeps
        (congrArg (Option.map Node.kind) hentry)
    | none =>
      obtain ⟨habove, hbefore⟩ := hclear names name hne hdir hentry
      rcases hunder.fills.changed (s.source (names ++ [name])) with
        hsame | ⟨other, ⟨hpresent, hless⟩, hplace⟩ |
          ⟨hmade | ⟨other, kept, ⟨hpresent, hless⟩, hkept, hplace⟩, -, -⟩
      · rw [hsame]
        exact congrArg (Option.map Node.kind) hentry
      · exact absurd hplace (hbefore other hpresent hless)
      · exact absurd hmade habove
      · exact absurd hplace
          (hbefore kept (isSome_of_extends hkept hpresent) ((le_of_extends hkept).trans_lt hless))

theorem Walks.of_error {top : List Text} {e : InitError} (h : s.Walks title [top] j j' (.error e)) :
    s.Walks title (top :: tops) j j' (.error e) := by
  obtain ⟨seen, hmeets, hbelow, -⟩ := h
  refine ⟨seen, hmeets, fun names hnames => ?_, nofun⟩
  obtain ⟨other, hother, hextends⟩ := hbelow names hnames
  exact ⟨top, List.mem_cons_self, List.mem_singleton.1 hother ▸ hextends⟩

/-- What is in a directory is walked through name by name. -/
theorem walks_mapM {f : Text × Kind → ExceptT InitError (StateM Journey) (List FilePath)}
    {children : List (Text × Kind)} {result : Except InitError (List (List FilePath))}
    (hsorted : children.Pairwise (fun a b => a.1 < b.1))
    (hstep : ∀ child ∈ children, ∀ {j j' : Journey} {result}, s.IsUnderWay (dir ++ [child.1]) j →
      j.run (f child) = (result, j') → s.Walks title [dir ++ [child.1]] j j' result)
    (hbase : j.world.workingDirectory = s.base)
    (hunder : ∀ child ∈ children, s.IsUnderWay (dir ++ [child.1]) j)
    (h : j.run (children.mapM f) = (result, j')) :
    s.Walks title (children.map fun child => dir ++ [child.1]) j j' (result.map List.flatten) := by
  induction children generalizing j result with
  | nil =>
    rw [List.mapM_nil] at h
    cases h
    refine ⟨[], ⟨hbase, (List.append_nil _).symm, .refl _, nofun, .nil, ?_, nofun⟩, nofun, nofun⟩
    intro copies hcopies
    cases hcopies
    rfl
  | cons child children ih =>
    obtain ⟨hfirst, hsorted⟩ := List.pairwise_cons.1 hsorted
    obtain ⟨hchild, hstep⟩ := List.forall_mem_cons.1 hstep
    obtain ⟨hbegun, hunder⟩ := List.forall_mem_cons.1 hunder
    have hless : ∀ a b, dir ++ [child.1] <+: a →
        (∃ top ∈ children.map fun child => dir ++ [child.1], top <+: b) → a < b := by
      rintro a b ha ⟨top, htop, hb⟩
      obtain ⟨other, hother, rfl⟩ := List.mem_map.1 htop
      exact lt_of_extends_of_lt (hfirst other hother) ha hb
    rw [List.mapM_cons] at h
    rcases Journey.run_andThen h with ⟨e, hrun, rfl⟩ | ⟨copies, j₁, hrun, h⟩
    · exact (hchild hbegun hrun).of_error
    have hwalks := hchild hbegun hrun
    obtain ⟨seen, hmeets, hbelow, -⟩ := id hwalks
    have hunder₁ : ∀ other ∈ children, s.IsUnderWay (dir ++ [other.1]) j₁ := by
      intro other hother
      refine (hunder other hother).meets hmeets (fun names hnames => ?_) le_rfl
      obtain ⟨top, htop, hextends⟩ := hbelow names hnames
      exact hless names _ (List.mem_singleton.1 htop ▸ hextends)
        ⟨_, List.mem_map_of_mem hother, List.prefix_rfl⟩
    rcases Journey.run_andThen h with ⟨e, hrest, rfl⟩ | ⟨rest, j₂, hrest, hlast⟩
    · exact hwalks.cons (ih hsorted hstep hmeets.base hunder₁ hrest) hless
    · cases hlast
      exact hwalks.cons (ih hsorted hstep hmeets.base hunder₁ hrest) hless

/-- A directory is met, and the one for its copy is made. -/
theorem meets_of_directory {outcome : Except Fault Unit} (hs : s.IsProper)
    (hdir : s.held? names = some .directory) (hunder : s.IsUnderWay next j)
    (hvisited : j'.visited = j.visited ++ [s.sourcePath names])
    (hmake : (Host.makeDirectories (s.copyPath names) : StateM World (Except Fault Unit)) j.world =
      (outcome, j'.world))
    (hresult : ∀ copies, result = .ok copies → outcome = .ok () ∧ copies = []) :
    s.Meets title [names] j j' result := by
  have hpresent : (s.held? names).isSome = true := Option.isSome_of_mem hdir
  obtain ⟨hbase, hfills⟩ := makeDirectories_fills (hunder.plain hs) hpresent
    (List.mem_singleton_self names) hunder.base hmake
  refine ⟨hbase, hvisited, hfills, ?_, List.pairwise_singleton _ _, fun copies hcopies => ?_, ?_⟩
  · exact fun _ hother => List.mem_singleton.1 hother ▸ hpresent
  · rw [(hresult copies hcopies).2, List.filter_cons_of_neg, List.filter_nil, List.map_nil]
    rw [isFile, hdir]
    decide
  · intro copies hcopies other hother
    cases List.mem_singleton.1 hother
    refine ⟨fun htext _ => ?_, fun content hfile => ?_, fun _ content hfile => ?_⟩
    · rw [(hresult copies hcopies).1] at hmake
      exact hbase ▸ makeDirectories_kind? htext hmake
    · cases hdir.symm.trans hfile
    · cases hdir.symm.trans hfile

/-- What a directory lists in the order of names, while a walk is under way. -/
theorem IsUnderWay.sorted_entries (hunder : s.IsUnderWay dir j) (hs : s.IsProper)
    (hclear : s.IsClear) (hstart : dir = [] → j.world.disk = s.disk) (hdir : s.held? dir = some .directory) :
    (sortBy (fun a b => Text.precedes a.1 b.1)
        (j.world.disk.entries (s.source dir))).Pairwise (fun a b => a.1 < b.1) ∧
      ∀ name kind, (name, kind) ∈ sortBy (fun a b => Text.precedes a.1 b.1)
          (j.world.disk.entries (s.source dir)) ↔
        (s.held? (dir ++ [name])).map Node.kind = some kind := by
  refine ⟨sortBy_names (entries_nodup _ _), fun name kind => ?_⟩
  rw [(sortBy_perm _ _).mem_iff]
  exact hunder.mem_entries hs hclear hstart hdir

/-- The names in a directory lead to all that is below it. -/
theorem exists_child {children : List (Text × Kind)}
    (hchildren : ∀ name kind, (name, kind) ∈ children ↔
      (s.held? (dir ++ [name])).map Node.kind = some kind)
    (hextends : dir <+: names) (hne : names ≠ dir) (hpresent : (s.held? names).isSome = true) :
    ∃ top ∈ children.map fun child => dir ++ [child.1], top <+: names := by
  obtain ⟨below, rfl⟩ := hextends
  cases below with
  | nil => exact absurd (List.append_nil dir) hne
  | cons name below =>
    have hchild : dir ++ [name] <+: dir ++ name :: below := ⟨below, by simp⟩
    obtain ⟨node, hnode⟩ := Option.isSome_iff_exists.1 (isSome_of_extends hchild hpresent)
    refine ⟨_, List.mem_map.2 ⟨(name, node.kind), (hchildren _ _).2 ?_, rfl⟩, hchild⟩
    rw [hnode]
    rfl

/-- A directory is listed and its copy is made; then something fails, or what it holds is copied. -/
theorem copyDirectory_cases {target : FilePath} {room : Nat} (hdirectory : met.kind = .directory)
    (h : j.run (copyTree target title (room + 1) met) = (result, j')) :
    ∃ outcome j₁, j₁.visited = j.visited ++ [met.path] ∧
      (Host.makeDirectories (target.join (Text.join "/" met.names)) :
        StateM World (Except Fault Unit)) j.world = (outcome, j₁.world) ∧
      ((∃ e, result = .error e) ∧ j' = j₁ ∨
        outcome = .ok () ∧ ∃ entries nested,
          j.world.disk.list j.world.workingDirectory met.path = .ok entries ∧
          j₁.run ((sortBy (fun a b => Text.precedes a.1 b.1) entries).mapM fun child =>
            copyTree target title room (met.child child.1 child.2)) = (nested, j') ∧
          result = nested.map List.flatten) := by
  unfold copyTree at h
  rw [hdirectory] at h
  rcases Journey.run_andThen h with ⟨e, hlist, -⟩ | ⟨listed, j₀, hlist, h⟩
  · cases congrArg Prod.fst hlist
  cases hlist
  rcases Journey.run_andThen h with ⟨e, hmake, rfl⟩ | ⟨_, j₁, hmake, h⟩
  · obtain ⟨hvisited, outcome, -, hworld⟩ := Journey.run_makeDirectories hmake
    exact ⟨outcome, j', hvisited, hworld, .inl ⟨⟨e, rfl⟩, rfl⟩⟩
  obtain ⟨hvisited, outcome, houtcome, hworld⟩ := Journey.run_makeDirectories hmake
  refine ⟨outcome, j₁, hvisited, hworld, ?_⟩
  dsimp only at h
  split at h
  · cases h
    exact .inl ⟨⟨_, rfl⟩, rfl⟩
  · rename_i entries hlisted
    refine .inr ⟨mapError_eq_ok.1 houtcome.symm, entries, ?_⟩
    rcases Journey.run_andThen h with ⟨e, hrun, rfl⟩ | ⟨copies, j₂, hrun, hlast⟩
    · exact ⟨_, hlisted, hrun, rfl⟩
    · cases hlast
      exact ⟨_, hlisted, hrun, rfl⟩

/-- Copying a tree is a walk through it. -/
theorem copyTree_walks (hs : s.IsProper) (hclear : s.IsClear) (room : Nat) (hmet : s.Holds met)
    (hunder : s.IsUnderWay met.names j) (hstart : met.names = [] → j.world.disk = s.disk)
    (h : j.run (copyTree s.target title room met) = (result, j')) :
    s.Walks title [met.names] j j' result := by
  induction room generalizing met j j' result with
  | zero =>
    cases h
    exact ⟨[], ⟨hunder.base, (List.append_nil _).symm, .refl _, nofun, .nil, nofun, nofun⟩, nofun,
      nofun⟩
  | succ room ih =>
    cases hkind : met.kind with
    | file =>
      unfold copyTree at h
      rw [hkind] at h
      refine (copyFile_meets hs hmet hkind hunder h).walks fun copies hcopies => ?_
      rw [isFile, hmet.kind, hkind]
      rfl
    | directory =>
      have hdir : s.held? met.names = some .directory :=
        Node.map_kind_eq_directory.1 (hkind ▸ hmet.kind)
      obtain ⟨outcome, j₁, hvisited, hmake, hcases⟩ := copyDirectory_cases hkind h
      rw [hmet.path] at hvisited
      rcases hcases with ⟨⟨e, rfl⟩, rfl⟩ | ⟨rfl, entries, nested, hlist, hrun, rfl⟩
      · have hmeets : s.Meets title [met.names] j j' (.error e) :=
          meets_of_directory hs hdir hunder hvisited hmake nofun
        exact hmeets.walks nofun
      have hmeets : s.Meets title [met.names] j j₁ (.ok []) :=
        meets_of_directory hs hdir hunder hvisited hmake fun _ hnil =>
          ⟨rfl, (Except.ok.inj hnil).symm⟩
      have hlisted := (hunder.plain hs).list_eq_ok hlist
      rw [hunder.base, hmet.path, s.location_sourcePath (isFileName_of_isSome hmet.isSome)] at hlisted
      obtain ⟨hsorted, hentries⟩ := hunder.sorted_entries hs hclear hstart hdir
      rw [← hlisted] at hsorted hentries
      generalize sortBy (fun a b : Text × Kind => Text.precedes a.1 b.1) entries = children
        at hrun hsorted hentries
      have hbelow : ∀ child : Text × Kind, met.names < met.names ++ [child.1] := fun child =>
        lt_of_extends (List.prefix_append _ _) (by simp)
      have hstep : ∀ child ∈ children, ∀ {j j' : Journey} {result},
          s.IsUnderWay (met.names ++ [child.1]) j →
          j.run (copyTree s.target title room (met.child child.1 child.2)) = (result, j') →
          s.Walks title [met.names ++ [child.1]] j j' result := fun child hchild _ _ _ hunder =>
        ih (hmet.child ((hentries _ _).1 hchild)) hunder fun hnil =>
          absurd hnil (List.append_ne_nil_of_right_ne_nil _ (List.cons_ne_nil _ _))
      have hwalks := walks_mapM hsorted hstep hmeets.base (fun child _ => hunder.meets hmeets
        (fun names hnames => List.mem_singleton.1 hnames ▸ hbelow child) (hbelow child).le) hrun
      refine hwalks.directory hmeets (fun top htop => ?_) fun _ => exists_child hentries
      obtain ⟨child, -, rfl⟩ := List.mem_map.1 htop
      exact ⟨List.prefix_append _ _, by simp⟩

end Start
end RoutePages
