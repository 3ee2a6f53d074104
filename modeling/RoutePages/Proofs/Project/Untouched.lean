import RoutePages.Project.Generate
import RoutePages.Proofs.Host.Effect
import RoutePages.Proofs.Succeeds

/-!
# Refusals change nothing

Settings, templates, the route file and the files of undecided pages are only looked at, so
whatever is refused on their account leaves the disk as it was.
-/
namespace RoutePages

open World

variable {R : Location → Disk → Disk → Prop}

theorem reportAll_changes (hR : IsChain R) (events : List Event) :
    Changes R (Host.reportAll events : StateM World Unit) := by
  induction events with
  | nil => exact Changes.pure hR ()
  | cons event events ih => exact Changes.bind hR (Changes.report hR event) fun _ => ih

theorem readTable_changes (hR : IsChain R) (dialect : Dialect) (source : Text) :
    Changes R (Host.readTable dialect source : StateM World (Except TableError RouteTable)) := by
  unfold Host.readTable
  cases readModule dialect source with
  | error e => exact Changes.pure hR _
  | ok parts => exact Changes.bind hR (reportAll_changes hR _) fun _ => Changes.pure hR _

theorem decided_changes {ε ε' α : Type} (hR : IsChain R) (meaning : ε → ε')
    (outcome : Except ε α) :
    Changes R (decided meaning outcome : ExceptT ε' (StateM World) α).run :=
  Changes.pure hR _

theorem readManifest_changes (hR : IsChain R) (path : FilePath) :
    Changes R (ProjectConfig.readManifest (m := StateM World) path).run := by
  unfold ProjectConfig.readManifest
  refine Changes.andThen hR (Changes.lift (Changes.readText hR path)) fun outcome => ?_
  split
  · exact Changes.andThen hR (Changes.reported hR _) fun _ => Changes.succeed hR _
  · exact Changes.throw hR _
  · split
    · exact Changes.succeed hR _
    · exact Changes.throw hR _

theorem load_changes (hR : IsChain R) (root : FilePath) (o : Overrides) :
    Changes R (ProjectConfig.load (m := StateM World) root o).run :=
  Changes.andThen hR (readManifest_changes hR _) fun _ =>
    Changes.andThen hR (Changes.lift (Changes.look hR _)) fun _ =>
    Changes.andThen hR (Changes.reported hR _) fun _ => Changes.succeed hR _

theorem ofDirectory_changes (hR : IsChain R) (dir : Option FilePath) :
    Changes R (Templates.ofDirectory (m := StateM World) dir).run := by
  have hread : ∀ path, Changes R (Host.orFail (m := StateM World) (Host.readText path)
      (ConfigError.templateUnreadable path)).run :=
    fun path => Changes.orFail hR (Changes.readText hR path) _
  cases dir with
  | none => exact Changes.succeed hR _
  | some dir =>
    exact Changes.andThen hR (hread _) fun _ => Changes.andThen hR (hread _) fun _ =>
      Changes.andThen hR (hread _) fun _ => Changes.succeed hR _

theorem firstExisting_changes (hR : IsChain R) (paths : List FilePath) :
    Changes R (firstExisting paths : StateM World (Option FilePath)) := by
  induction paths with
  | nil => exact Changes.pure hR none
  | cons path paths ih =>
    refine Changes.bind hR (Changes.exists? hR path) fun found => ?_
    cases found with
    | true => exact Changes.pure hR _
    | false => exact ih

theorem checkOverwrites_changes (hR : IsChain R) (pagesRoot : FilePath) (plans : List PagePlan) :
    Changes R (checkOverwrites (m := StateM World) pagesRoot plans).run := by
  induction plans with
  | nil => exact Changes.succeed hR ()
  | cons plan plans ih =>
    unfold checkOverwrites
    split
    · refine Changes.andThen hR (Changes.lift (firstExisting_changes hR _)) fun found => ?_
      cases found with
      | some path => exact Changes.throw hR _
      | none => exact ih
    · exact ih

theorem prepare_changes (hR : IsChain R) (c : ProjectConfig) :
    Changes R (prepare (m := StateM World) c).run := by
  unfold prepare
  refine Changes.andThen hR (Changes.lift (Changes.isFile hR _)) fun isFile => ?_
  cases isFile with
  | false => exact Changes.throw hR _
  | true =>
    exact Changes.andThen hR (Changes.adapt (ofDirectory_changes hR _) _) fun _ =>
      Changes.andThen hR (Changes.orFail hR (Changes.readText hR _) _) fun _ =>
      Changes.andThen hR (Changes.adapt (readTable_changes hR _ _) _) fun _ =>
      Changes.andThen hR (decided_changes hR _ _) fun _ =>
      Changes.andThen hR (decided_changes hR _ _) fun _ =>
      Changes.andThen hR (Changes.adapt (checkOverwrites_changes hR _ _) _) fun _ =>
      Changes.succeed hR _

theorem isChain_same : IsChain fun _ d d' => d' = d :=
  ⟨fun _ _ => rfl, fun _ _ _ _ h h' => h'.trans h⟩

theorem prepare_keeps_disk {c : ProjectConfig} {w w' : World}
    {result : Except GenerateError Preparation} (h : w.run (prepare c) = (result, w')) :
    w'.workingDirectory = w.workingDirectory ∧ w'.disk = w.disk :=
  (prepare_changes isChain_same c).of_run h

theorem load_keeps_disk {root : FilePath} {o : Overrides} {w w' : World}
    {result : Except ConfigError ProjectConfig}
    (h : w.run (ProjectConfig.load root o) = (result, w')) : w'.disk = w.disk :=
  ((load_changes isChain_same root o).of_run h).2

/-- Generating pages fails while it is prepared, or it is prepared and then done. -/
theorem generate_cases {c : ProjectConfig} {w w' : World}
    {result : Except GenerateError GenerateReport} (h : w.run (generate c) = (result, w')) :
    (∃ e, w.run (prepare c) = (.error e, w') ∧ result = .error e) ∨
      ∃ p w₁ committed, w.run (prepare c) = (.ok p, w₁) ∧
        w₁.run (commit c p) = (committed, w') ∧ result = committed.mapError .disk := by
  rcases run_andThen h with hfails | ⟨p, w₁, hprepared, hcommit⟩
  · exact .inl hfails
  · rw [run_adapt] at hcommit
    cases hcommit
    exact .inr ⟨p, w₁, _, hprepared, rfl, rfl⟩

/-- What fails while pages are written has its own exit code. -/
theorem generate_keeps_disk {c : ProjectConfig} {w w' : World} {e : GenerateError}
    (hcode : e.exitCode ≠ 4) (h : w.run (generate c) = (.error e, w')) : w'.disk = w.disk := by
  rcases generate_cases h with ⟨e', hprepare, -⟩ | ⟨p, w₁, committed, -, -, hresult⟩
  · exact (prepare_keeps_disk hprepare).2
  · cases committed with
    | ok report => cases hresult
    | error cause =>
      cases hresult
      exact absurd rfl hcode

theorem generateAt_keeps_disk {root : FilePath} {o : Overrides} {w w' : World} {e : GenerateError}
    (hcode : e.exitCode ≠ 4) (h : w.run (generateAt root o) = (.error e, w')) :
    w'.disk = w.disk := by
  have hload := Changes.adapt (load_changes isChain_same root o) GenerateError.config
  rcases run_andThen h with ⟨e', hfails, -⟩ | ⟨config, w₁, hloaded, hgenerate⟩
  · exact (hload.of_run hfails).2
  · exact (generate_keeps_disk hcode hgenerate).trans (hload.of_run hloaded).2

/-- What fails with an error of the settings, the route file or its rewrite leaves every file
and directory as it was. -/
theorem refused_untouched {e : GenerateError}
    (hcode : e.exitCode = 2 ∨ e.exitCode = 3 ∨ e.exitCode = 5) (w w' : World) (root : FilePath)
    (o : Overrides) (c : ProjectConfig) :
    (∀ cause, w.run (ProjectConfig.load root o) = (.error cause, w') → w'.disk = w.disk) ∧
      (w.run (generate c) = (.error e, w') → w'.disk = w.disk) ∧
      (w.run (generateAt root o) = (.error e, w') → w'.disk = w.disk) := by
  have hcode : e.exitCode ≠ 4 := by omega
  exact ⟨fun cause => load_keeps_disk, generate_keeps_disk hcode, generateAt_keeps_disk hcode⟩

/-- A first page could be written, but a file of the second one exists and nothing says whether
to overwrite it. -/
theorem refused_untouched_undecided :
    let c : ProjectConfig :=
      ⟨⟨"/p/routes.tsx"⟩, "routes.tsx", none, ⟨"/p/pages"⟩, "@/pages", by decide, nofun, by decide⟩
    let routes : Text := "const r: R[] = [\x7bname: 'a', component: '/a'\x7d, " ++
      "\x7bname: 'b', component: '/b', service: true\x7d]"
    let setUp : StateM World Unit := do
      discard (Host.makeDirectories ⟨"/p/pages/b"⟩)
      discard (Host.writeText c.routesFile routes)
      discard (Host.writeText ⟨"/p/pages/b/service.tsx"⟩ "kept")
    let start : World := (setUp ⟨.empty, [], []⟩).2
    let refusal : Text := "\"/p/pages/b/service.tsx\" は既に存在します。ページ /b に " ++
      "`cover: true` (上書き) か `cover: false` (残す) を指定してください"
    ∃ e w', start.run (generate c) = (.error e, w') ∧ e.exitCode = 2 ∧ e.message = refusal ∧
      w'.disk = start.disk := by
  intro c routes setUp start refusal
  have hfails : (failure? (start.run (generate c)).1).map (fun e => (e.exitCode, e.message)) =
      some (2, refusal) := by decide +kernel
  rcases hrun : start.run (generate c) with ⟨result, w'⟩
  rw [hrun] at hfails
  obtain ⟨e, he, hshown⟩ := Option.map_eq_some_iff.1 hfails
  obtain ⟨hcode, hmessage⟩ := Prod.mk.inj hshown
  cases failure?_eq_some.1 he
  have huntouched := refused_untouched (.inl hcode) start w' ⟨"/p"⟩ ⟨none, none⟩ c
  exact ⟨e, w', rfl, hcode, hmessage, huntouched.2.1 hrun⟩

end RoutePages
