import RoutePages.Proofs.Disk.Plain
import RoutePages.Proofs.Edit.Outcome
import RoutePages.Proofs.Page.Written
import RoutePages.Proofs.Project.Untouched

/-!
# The route file changes last

The route file is written once all files of all planned pages are there, and nothing is done
after that. Whatever fails before leaves the route file as it was.
-/
namespace RoutePages

open World Disk

variable {w w' : World} {c : ProjectConfig}

/-! ## What has been prepared -/

/-- Bytes as text. -/
def asText (content : Bytes) : Except Fault Text :=
  match Utf8.decode? content with
  | some text => .ok text
  | none => .error .notText

theorem readText_run (w : World) (p : FilePath) :
    (Host.readText p : StateM World (Except Fault Text)) w =
      (w.disk.read w.workingDirectory p >>= asText, w) := by
  have hread : (Host.read p : StateM World (Except Fault Bytes)) w =
      (w.disk.read w.workingDirectory p, w) := rfl
  rw [Host.readText, bind_run, hread]
  cases w.disk.read w.workingDirectory p with
  | error fault => rfl
  | ok content =>
    have hbind : (Except.ok content >>= asText : Except Fault Text) = asText content := rfl
    rw [hbind, asText]
    dsimp only
    cases Utf8.decode? content <;> rfl

theorem asText_eq_ok {content : Bytes} {text : Text} :
    asText content = .ok text ↔ Utf8.decode? content = some text := by
  unfold asText
  cases Utf8.decode? content with
  | none => exact ⟨nofun, nofun⟩
  | some other => exact ⟨fun h => congrArg _ (Except.ok.inj h), fun h => congrArg _ (Option.some.inj h)⟩

theorem readTable_run (w : World) (dialect : Dialect) (source : Text) :
    ((Host.readTable dialect source : StateM World (Except TableError RouteTable)) w).1 =
      parseTable dialect source := by
  unfold Host.readTable parseTable
  cases readModule dialect source <;> rfl

/-- What has been settled about the route file on a disk. -/
structure IsPrepared (c : ProjectConfig) (d : Disk) (base : Location) (p : Preparation)
    (content : Bytes) (source : Text) (t : RouteTable) : Prop where
  read : d.read base c.routesFile = .ok content
  text : Utf8.decode? content = some source
  planned : IsPlanned (.ofFile c.routesFile) source c.pagesAlias t p.plans
  rewritten : rewrite source t p.plans c.pagesAlias = .ok p.rewritten

theorem prepare_eq_ok {p : Preparation} (h : w.run (prepare c) = (.ok p, w')) :
    ∃ content source t, IsPrepared c w.disk w.workingDirectory p content source t := by
  obtain ⟨isFile, w₁, hfile, h⟩ := run_andThen_ok h
  cases hfile
  split at h
  · obtain ⟨_, _, hthrow, -⟩ := run_andThen_ok h
    cases hthrow
  obtain ⟨templates, w₁, htemplates, h⟩ := run_andThen_ok h
  obtain ⟨source, w₂, hsource, h⟩ := run_andThen_ok h
  obtain ⟨t, w₃, htable, h⟩ := run_andThen_ok h
  obtain ⟨plans, w₄, hplans, h⟩ := run_andThen_ok h
  obtain ⟨rewritten, w₅, hrewritten, h⟩ := run_andThen_ok h
  obtain ⟨_, w₆, hchecked, h⟩ := run_andThen_ok h
  cases h
  obtain ⟨hbase, hdisk⟩ :=
    (Changes.adapt (ofDirectory_changes isChain_same c.templateDirectory) _).of_run htemplates
  rw [run_orFail, readText_run, hbase, hdisk] at hsource
  obtain ⟨content, hread, htext⟩ := bind_eq_ok.1 (mapError_eq_ok.1 (Prod.mk.inj hsource).1)
  rw [run_adapt] at htable
  have hparsed := mapError_eq_ok.1 (Prod.mk.inj htable).1
  exact ⟨content, source, t, hread, asText_eq_ok.1 htext,
    ⟨(readTable_run w₂ _ source).symm.trans hparsed, mapError_eq_ok.1 (Prod.mk.inj hplans).1⟩,
    mapError_eq_ok.1 (Prod.mk.inj hrewritten).1⟩

/-! ## What is done -/

/-- The route file is written where it changes, or the disk stays as it is. -/
theorem updateRoutes_cases {r : Rewrite} {result : Except DiskError Unit}
    (h : w.run (updateRoutes c r) = (result, w')) :
    w'.workingDirectory = w.workingDirectory ∧
      (w'.disk = w.disk ∧ (r.changed = false ∨ ∃ e, result = .error e) ∨
        r.changed = true ∧ (∃ a, result = .ok a) ∧
          w.disk.write w.workingDirectory c.routesFile (Utf8.encode r.text) = .ok w'.disk) := by
  unfold updateRoutes at h
  split at h
  · rename_i hchanged
    rcases run_andThen h with ⟨e, hfirst, -⟩ | ⟨_, w₁, hfirst, h⟩
    · cases hfirst
    cases hfirst
    let write : Disk → Location → Except Fault Disk :=
      (Disk.write · · c.routesFile (Utf8.encode r.text))
    rcases run_andThen h with ⟨e, hfails, rfl⟩ | ⟨_, w₂, hwritten, h⟩
    · obtain ⟨hbase, ⟨-, hdisk⟩ | ⟨hok, -⟩⟩ := run_change write hfails
      · exact ⟨hbase, .inl ⟨hdisk, .inr ⟨e, rfl⟩⟩⟩
      · cases hok
    · cases h
      obtain ⟨hbase, ⟨⟨e, he⟩, -⟩ | ⟨-, hstep⟩⟩ := run_change write hwritten
      · cases he
      · exact ⟨hbase, .inr ⟨hchanged, ⟨_, rfl⟩, hstep⟩⟩
  · rename_i hchanged
    cases h
    exact ⟨rfl, .inl ⟨rfl, .inl (Bool.eq_false_iff.2 hchanged)⟩⟩

theorem plain_isChain : IsChain fun _ d d' => d.IsPlain → d'.IsPlain :=
  ⟨fun _ _ => id, fun _ _ _ _ h h' => h' ∘ h⟩

theorem writePages_plain (pagesRoot : FilePath) (t : Templates) (plans : List PagePlan) :
    Changes (fun _ d d' => d.IsPlain → d'.IsPlain)
      (writePages (m := StateM World) pagesRoot t plans).run :=
  writePages_changes plain_isChain (fun _ _ _ _ _ _ h hplain => (hplain.written h).plain)
    fun _ _ _ _ _ _ h hplain => (hplain.made h).1

/-- The pages are written, and then the route file where it changes; or writing fails, and the
route file is not touched. -/
theorem commit_cases {p : Preparation} {result : Except DiskError GenerateReport}
    (h : w.run (commit c p) = (result, w')) :
    ∃ d, GrowsBelow c.pagesRoot w.workingDirectory w.disk d ∧ (w.disk.IsPlain → d.IsPlain) ∧
      ((∃ e, result = .error e) ∧ w'.disk = d ∨
        (∃ report, result = .ok report) ∧ AllThere c.pagesRoot p.plans w.workingDirectory d ∧
          (p.rewritten.changed = false ∧ w'.disk = d ∨ p.rewritten.changed = true ∧
            d.write w.workingDirectory c.routesFile (Utf8.encode p.rewritten.text) =
              .ok w'.disk)) := by
  have hgrows := writePages_growsBelow c.pagesRoot p.templates c.pages_clean p.plans
  have hplain := writePages_plain c.pagesRoot p.templates p.plans
  rcases run_andThen h with ⟨e, hfails, rfl⟩ | ⟨files, w₁, hwritten, h⟩
  · exact ⟨w'.disk, (hgrows.of_run hfails).2, (hplain.of_run hfails).2, .inl ⟨⟨e, rfl⟩, rfl⟩⟩
  have hbase := (hgrows.of_run hwritten).1
  have hthere := writePages_leaves p.plans w files w₁ hwritten
  rw [hbase] at hthere
  refine ⟨w₁.disk, (hgrows.of_run hwritten).2, (hplain.of_run hwritten).2, ?_⟩
  rcases run_andThen h with ⟨e, hfails, rfl⟩ | ⟨_, w₂, hupdated, h⟩
  · obtain ⟨-, ⟨hdisk, -⟩ | ⟨-, ⟨_, hok⟩, -⟩⟩ := updateRoutes_cases hfails
    · exact .inl ⟨⟨e, rfl⟩, hdisk⟩
    · cases hok
  · cases h
    obtain ⟨-, ⟨hdisk, hsame⟩ | ⟨hchanged, -, hwrite⟩⟩ := updateRoutes_cases hupdated
    · rcases hsame with hsame | ⟨_, he⟩
      · exact .inr ⟨⟨_, rfl⟩, hthere, .inl ⟨hsame, hdisk⟩⟩
      · cases he
    · rw [hbase] at hwrite
      exact .inr ⟨⟨_, rfl⟩, hthere, .inr ⟨hchanged, hwrite⟩⟩

/-! ## However it ends -/

/-- The route file is not below the root of the pages, under whatever name: no path that leads down
from there leads to it. -/
def ProjectConfig.IsApart (c : ProjectConfig) (base : Location) (d : Disk) : Prop :=
  ∀ p names number, c.pagesRoot.Continues p names → d.reached? base p = some (.file number) →
    d.reached? base c.routesFile ≠ some (.file number)

namespace ProjectConfig

variable {base : Location} {d d' : Disk}

/-- Without links, the names of the route file tell whether it is below the root of the pages. -/
theorem isApart_of_isPlain (hplain : d.IsPlain)
    (hapart : ¬ c.pagesRoot.location base <+: c.routesFile.location base) : c.IsApart base d := by
  intro p names number hp hreached hroutes
  obtain ⟨place, hplace, hitem⟩ := reached?_eq_some.1 hreached
  obtain ⟨other, hother, hfile⟩ := reached?_eq_some.1 hroutes
  cases hplain.place_eq hplace
  cases hplain.place_eq hother
  have hsame := hplain.single _ _ number hitem hfile
  rw [hp.location] at hsame
  exact hapart ⟨names, hsame⟩

theorem IsApart.of_keeps (h : c.IsApart base d') (hkeeps : d.Keeps d') : c.IsApart base d :=
  fun p names number hp hreached hroutes =>
    h p names number hp (hkeeps.reached? hreached) (hkeeps.reached? hroutes)

/-- What changes below the root of the pages leaves the route file as it was. -/
theorem IsApart.content? {content : Bytes} (h : c.IsApart base d')
    (hgrows : GrowsBelow c.pagesRoot base d d')
    (hcontent : d.content? base c.routesFile = some content) :
    d'.content? base c.routesFile = some content := by
  obtain ⟨number, hreached, hnumber⟩ := content?_eq_some.1 hcontent
  obtain ⟨place, hplace, hitem⟩ := reached?_eq_some.1 hreached
  have hreached' := hgrows.keeps.reached? hreached
  refine content?_eq_some.2 ⟨number, hreached', ?_⟩
  have hitem' := hgrows.keeps.item hitem
  rcases hgrows.changed place with hsame | ⟨p, names, hp, last, hlast, hsame⟩ | ⟨_, _, -, -, hnone, -⟩
  · obtain ⟨other, hother, hfile⟩ := get?_of_file hitem
    cases hother.symm.trans hnumber
    obtain ⟨_, hcontent', hfile'⟩ := get?_of_file hitem'
    rw [hsame, hfile] at hfile'
    cases hfile'
    exact hcontent'
  · refine absurd hreached' (h p names number hp (reached?_eq_some.2 ⟨last, hlast, ?_⟩))
    rcases hsame with rfl | ⟨other, hother, hfile⟩
    · exact hitem'
    · cases hitem'.symm.trans hfile
      exact hother
  · cases hnone.symm.trans hitem

end ProjectConfig

/-- Where a file is there, writing it fills it. -/
theorem content?_of_write {base : Location} {p : FilePath} {d d' : Disk} {old new : Bytes}
    (hold : d.content? base p = some old) (h : d.write base p new = .ok d') :
    d.Keeps d' ∧ d'.content? base p = some new := by
  obtain ⟨number, hreached, -⟩ := content?_eq_some.1 hold
  obtain ⟨place, hplace, hitem⟩ := reached?_eq_some.1 hreached
  obtain ⟨last, number', hreaches, hwritten⟩ := write_eq_ok h
  refine ⟨hwritten.keeps, content?_eq_some.2 ⟨number', ?_, hwritten.content⟩⟩
  have hclosing : p.closing = [] := by
    unfold FilePath.closing
    split
    · rename_i hslash
      have hfollows := (place_eq_ok_iff.1 hplace).1.follows
      rw [FilePath.closing, if_pos hslash] at hfollows
      cases hitem.symm.trans hfollows.directory
    · rfl
  have hhere := (place_eq_ok_iff.1 hplace).1
  rw [hclosing, List.append_nil] at hhere
  cases hhere.follows.unique hreaches.follows
  exact reached?_eq_some.2 ⟨place, hwritten.keeps.leads hplace, hwritten.item⟩

/-- What the rewrite of a route file on a disk gives, for planned pages whose files are all there
on another disk. -/
def IsBacked (c : ProjectConfig) (base : Location) (d d' : Disk) (content : Bytes) (r : Rewrite) :
    Prop :=
  ∃ source t plans, d.read base c.routesFile = .ok content ∧ Utf8.decode? content = some source ∧
    IsPlanned (.ofFile c.routesFile) source c.pagesAlias t plans ∧
    rewrite source t plans c.pagesAlias = .ok r ∧ AllThere c.pagesRoot plans base d'

theorem IsPrepared.backed {base : Location} {d d' : Disk} {p : Preparation} {content : Bytes}
    {source : Text} {t : RouteTable} (hp : IsPrepared c d base p content source t)
    (hthere : AllThere c.pagesRoot p.plans base d') : IsBacked c base d d' content p.rewritten :=
  ⟨source, t, p.plans, hp.read, hp.text, hp.planned, hp.rewritten, hthere⟩

theorem generate_plain {result : Except GenerateError GenerateReport} (hplain : w.disk.IsPlain)
    (h : w.run (generate c) = (result, w')) : w'.disk.IsPlain := by
  rcases generate_cases h with ⟨e, hfails, -⟩ | ⟨p, w₁, committed, hprepared, hcommit, -⟩
  · obtain ⟨-, hdisk⟩ := prepare_keeps_disk hfails
    rwa [hdisk]
  · obtain ⟨-, hdisk⟩ := prepare_keeps_disk hprepared
    rw [← hdisk] at hplain
    obtain ⟨d, -, hkept, ⟨-, rfl⟩ | ⟨-, -, ⟨-, rfl⟩ | ⟨-, hwrite⟩⟩⟩ := commit_cases hcommit
    · exact hkept hplain
    · exact hkept hplain
    · exact ((hkept hplain).written hwrite).plain

/-- However the generation of pages ends, if the route file is not below the root of the pages: where
the route file has changed, it holds the rewritten text and all files of the planned pages are there,
as they are after a success; where writing has failed, the route file has not changed, nor anything
else but what paths below the root of the pages lead to and new directories leading there. Without
links, the names of the route file tell whether it is below the root of the pages. -/
theorem routes_written_last {result : Except GenerateError GenerateReport}
    (h : w.run (generate c) = (result, w')) :
    let base := w.workingDirectory
    (w.disk.IsPlain → ¬ c.pagesRoot.location base <+: c.routesFile.location base →
      c.IsApart base w'.disk) ∧
    (c.IsApart base w'.disk →
      (w'.disk.content? base c.routesFile ≠ w.disk.content? base c.routesFile →
        ∃ content r, IsBacked c base w.disk w'.disk content r ∧
          w'.disk.content? base c.routesFile = some (Utf8.encode r.text)) ∧
      (∀ report, result = .ok report → ∃ content r, IsBacked c base w.disk w'.disk content r ∧
        w'.disk.content? base c.routesFile =
          some (if r.changed then Utf8.encode r.text else content)) ∧
      ∀ e, result = .error e → e.exitCode = 4 →
        w'.disk.content? base c.routesFile = w.disk.content? base c.routesFile ∧
          GrowsBelow c.pagesRoot base w.disk w'.disk) := by
  intro base
  refine ⟨fun hplain hapart => ProjectConfig.isApart_of_isPlain (generate_plain hplain h) hapart,
    fun hapart => ?_⟩
  rcases generate_cases h with ⟨e, hfails, rfl⟩ | ⟨p, w₁, committed, hprepared, hcommit, rfl⟩
  · obtain ⟨-, hdisk⟩ := prepare_keeps_disk hfails
    rw [hdisk]
    refine ⟨fun hchanged => absurd rfl hchanged, fun report hreport => ?_,
      fun _ _ _ => ⟨rfl, (growsBelow_isChain _).refl base w.disk⟩⟩
    cases hreport
  obtain ⟨hbase, hdisk⟩ := prepare_keeps_disk hprepared
  obtain ⟨content, source, t, hp⟩ := prepare_eq_ok hprepared
  obtain ⟨d, hgrows, -, hends⟩ := commit_cases hcommit
  rw [hbase, hdisk] at hgrows
  rw [hbase] at hends
  have hold := content?_of_read hp.read
  rcases hends with ⟨⟨e, rfl⟩, rfl⟩ | ⟨⟨report, rfl⟩, hthere, ⟨hkept, rfl⟩ | ⟨hchanged, hwrite⟩⟩
  · -- the pages leave the route file as it was
    have hsame := (hapart.content? hgrows hold).trans hold.symm
    refine ⟨fun hchanged => absurd hsame hchanged, fun report hreport => ?_,
      fun _ _ _ => ⟨hsame, hgrows⟩⟩
    cases hreport
  · have hcontent := hapart.content? hgrows hold
    refine ⟨fun hchanged => absurd (hcontent.trans hold.symm) hchanged, fun _ _ =>
      ⟨content, p.rewritten, hp.backed hthere, ?_⟩, fun e he => ?_⟩
    · rw [hkept]
      exact hcontent
    · cases he
  · -- so a change of it can only be the last write
    obtain ⟨_, _, -, hwritten⟩ := write_eq_ok hwrite
    have hcontent := (hapart.of_keeps hwritten.keeps).content? hgrows hold
    obtain ⟨hkeeps, hnew⟩ := content?_of_write hcontent hwrite
    have hbacked : IsBacked c base w.disk w'.disk content p.rewritten :=
      hp.backed (hthere.keeps hkeeps)
    refine ⟨fun _ => ⟨content, p.rewritten, hbacked, hnew⟩, fun _ _ =>
      ⟨content, p.rewritten, hbacked, ?_⟩, fun e he => ?_⟩
    · rw [hchanged]
      exact hnew
    · cases he

/-- Two pages are written and then the route file, or a file lies in the way of the second page
and the route file stays. -/
theorem routes_written_last_second_page :
    let c : ProjectConfig := ⟨⟨"/p/routes.tsx"⟩, "routes.tsx", none, ⟨"/p/pages"⟩, "@/pages",
      by decide, nofun, by decide⟩
    let source : Text := "const r: R[] = [\x7bname: 'a', component: '/a'\x7d, " ++
      "\x7bname: 'b', component: '/b', service: true\x7d]"
    let setUp (p : FilePath) : StateM World Unit := do
      discard (Host.makeDirectories ⟨"/p/pages"⟩)
      discard (Host.writeText c.routesFile source)
      discard (Host.writeText p "in the way")
    let start (p : FilePath) : World := (setUp p ⟨.empty, [], []⟩).2
    (∃ report w' content r, (start ⟨"/p/pages/c"⟩).run (generate c) = (.ok report, w') ∧
      IsBacked c [] (start ⟨"/p/pages/c"⟩).disk w'.disk content r ∧
      w'.disk.content? [] c.routesFile = some (Utf8.encode r.text)) ∧
    ∃ e w', (start ⟨"/p/pages/b"⟩).run (generate c) = (.error e, w') ∧ e.exitCode = 4 ∧
      w'.disk.content? [] c.routesFile = (start ⟨"/p/pages/b"⟩).disk.content? [] c.routesFile := by
  intro c source setUp start
  have hnames : ¬ c.pagesRoot.location [] <+: c.routesFile.location [] := by decide +kernel
  constructor
  · have hbase : (start ⟨"/p/pages/c"⟩).workingDirectory = [] := by decide +kernel
    have hplain : (start ⟨"/p/pages/c"⟩).disk.IsPlain := by decide +kernel
    have hends : ((start ⟨"/p/pages/c"⟩).run (generate c)).1.toOption.isSome = true ∧
        ((start ⟨"/p/pages/c"⟩).run (generate c)).2.disk.content? [] c.routesFile ≠
          (start ⟨"/p/pages/c"⟩).disk.content? [] c.routesFile := by decide +kernel
    generalize start ⟨"/p/pages/c"⟩ = w at hbase hplain hends ⊢
    rcases hrun : w.run (generate c) with ⟨result, w'⟩
    rw [hrun] at hends
    obtain ⟨report, hreport⟩ := Option.isSome_iff_exists.1 hends.1
    cases toOption_eq_some.1 hreport
    obtain ⟨hapart, hlast⟩ := routes_written_last hrun
    rw [hbase] at hapart hlast
    obtain ⟨content, r, hbacked, hread⟩ := (hlast (hapart hplain hnames)).1 hends.2
    exact ⟨report, w', content, r, rfl, hbacked, hread⟩
  · have hbase : (start ⟨"/p/pages/b"⟩).workingDirectory = [] := by decide +kernel
    have hplain : (start ⟨"/p/pages/b"⟩).disk.IsPlain := by decide +kernel
    have hends : (failure? ((start ⟨"/p/pages/b"⟩).run (generate c)).1).map
        GenerateError.exitCode = some 4 := by decide +kernel
    generalize start ⟨"/p/pages/b"⟩ = w at hbase hplain hends ⊢
    rcases hrun : w.run (generate c) with ⟨result, w'⟩
    rw [hrun] at hends
    obtain ⟨e, he, hcode⟩ := Option.map_eq_some_iff.1 hends
    cases failure?_eq_some.1 he
    obtain ⟨hapart, hlast⟩ := routes_written_last hrun
    rw [hbase] at hapart hlast
    exact ⟨e, w', rfl, hcode, ((hlast (hapart hplain hnames)).2.2 e rfl hcode).1⟩

end RoutePages
