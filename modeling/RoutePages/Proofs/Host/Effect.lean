import Mathlib.Data.List.Basic
import RoutePages.Disk.World
import RoutePages.Proofs.Disk.Change

/-!
# What a computation does to the disk

A computation on a world changes the disk by a relation if each of its steps does, and the
relation holds of no change and of changes one after the other. The working directory never
changes.
-/
namespace RoutePages

/-- A computation in two steps ends with the failure of the first, or as the second one ends. -/
theorem andThen_cases {σ α β ε : Type} {s s' : σ} {x : ExceptT ε (StateM σ) α}
    {f : α → ExceptT ε (StateM σ) β} {result : Except ε β}
    (h : (ExceptT.run (x >>= f)).run s = (result, s')) :
    (∃ e, (ExceptT.run x).run s = (.error e, s') ∧ result = .error e) ∨
      ∃ a s₁, (ExceptT.run x).run s = (.ok a, s₁) ∧ (ExceptT.run (f a)).run s₁ = (result, s') := by
  rw [ExceptT.run_bind, StateT.run_bind] at h
  rcases hx : (ExceptT.run x).run s with ⟨e | a, s₁⟩
  · rw [hx] at h
    cases h
    exact .inl ⟨e, rfl, rfl⟩
  · rw [hx] at h
    exact .inr ⟨a, s₁, rfl, h⟩

namespace World

variable {R : Location → Disk → Disk → Prop} {α β ε ε' : Type}

/-- The disk changes by a relation, which may depend on the working directory. -/
def Changes (R : Location → Disk → Disk → Prop) (x : StateM World α) : Prop :=
  ∀ w, (x w).2.workingDirectory = w.workingDirectory ∧ R w.workingDirectory w.disk (x w).2.disk

/-- The relation holds of no change, and of changes one after the other. -/
structure IsChain (R : Location → Disk → Disk → Prop) : Prop where
  refl : ∀ base d, R base d d
  trans : ∀ base d₁ d₂ d₃, R base d₁ d₂ → R base d₂ d₃ → R base d₁ d₃

theorem bind_run (x : StateM World α) (f : α → StateM World β) (w : World) :
    (x >>= f) w = f (x w).1 (x w).2 := rfl

/-- A change is made, or it fails and nothing is changed. -/
theorem change_cases {step : Disk → Location → Except Fault Disk} {w w' : World}
    {outcome : Except Fault Unit} (h : change step w = (outcome, w')) :
    w'.workingDirectory = w.workingDirectory ∧
      ((∃ fault, outcome = .error fault) ∧ w'.disk = w.disk ∨
        outcome = .ok () ∧ step w.disk w.workingDirectory = .ok w'.disk) := by
  unfold change at h
  cases hstep : step w.disk w.workingDirectory with
  | error fault =>
    rw [hstep] at h
    cases h
    exact ⟨rfl, .inl ⟨⟨fault, rfl⟩, rfl⟩⟩
  | ok d' =>
    rw [hstep] at h
    cases h
    exact ⟨rfl, .inr ⟨rfl, rfl⟩⟩

namespace Changes

theorem pure (hR : IsChain R) (a : α) : Changes R (Pure.pure a : StateM World α) :=
  fun w => ⟨rfl, hR.refl _ w.disk⟩

theorem bind (hR : IsChain R) {x : StateM World α} {f : α → StateM World β} (hx : Changes R x)
    (hf : ∀ a, Changes R (f a)) : Changes R (x >>= f) := by
  intro w
  obtain ⟨hbase, hdisk⟩ := hx w
  obtain ⟨hbase', hdisk'⟩ := hf (x w).1 (x w).2
  rw [hbase] at hdisk'
  exact ⟨hbase'.trans hbase, hR.trans _ _ _ _ hdisk hdisk'⟩

theorem map {x : StateM World α} (hx : Changes R x) (f : α → β) : Changes R (f <$> x) :=
  hx

theorem look (hR : IsChain R) (see : Disk → Location → α) : Changes R (look see) :=
  fun w => ⟨rfl, hR.refl _ w.disk⟩

theorem report (hR : IsChain R) (event : Event) :
    Changes R (Host.report event : StateM World Unit) :=
  fun w => ⟨rfl, hR.refl _ w.disk⟩

theorem change (hR : IsChain R) {step : Disk → Location → Except Fault Disk}
    (h : ∀ d base d', step d base = .ok d' → R base d d') : Changes R (change step) := by
  intro w
  rcases hchange : World.change step w with ⟨outcome, w'⟩
  obtain ⟨hbase, ⟨-, hdisk⟩ | ⟨-, hstep⟩⟩ := change_cases hchange
  · refine ⟨hbase, ?_⟩
    rw [hdisk]
    exact hR.refl _ w.disk
  · exact ⟨hbase, h _ _ _ hstep⟩

theorem isFile (hR : IsChain R) (p : FilePath) :
    Changes R (Host.isFile p : StateM World Bool) :=
  bind hR (look hR _) fun _ => pure hR _

theorem isDirectory (hR : IsChain R) (p : FilePath) :
    Changes R (Host.isDirectory p : StateM World Bool) :=
  bind hR (look hR _) fun _ => pure hR _

theorem exists? (hR : IsChain R) (p : FilePath) :
    Changes R (Host.exists? p : StateM World Bool) :=
  bind hR (look hR _) fun _ => pure hR _

theorem readText (hR : IsChain R) (p : FilePath) :
    Changes R (Host.readText p : StateM World (Except Fault Text)) := by
  refine bind hR (look hR _) fun outcome => ?_
  cases outcome with
  | error fault => exact pure hR _
  | ok bytes =>
    dsimp only
    split
    · exact pure hR _
    · exact pure hR _

theorem settle (hR : IsChain R) (p : FilePath) (outcome : Except Fault Unit) :
    Changes R (Host.settle p outcome : StateM World (Except Fault Unit)) := by
  cases outcome with
  | ok _ => exact pure hR _
  | error fault => exact bind hR (isDirectory hR p) fun _ => pure hR _

/-- Making directories changes no more than making each of them does. -/
theorem makeWithin (hR : IsChain R) {above : List FilePath} {p : FilePath}
    (h : ∀ q ∈ p :: above, ∀ d base d', Disk.makeDirectory d base q = .ok d' → R base d d') :
    Changes R (Host.makeWithin above p : StateM World (Except Fault Unit)) := by
  induction above generalizing p with
  | nil => exact bind hR (change hR (h p List.mem_cons_self)) fun _ => settle hR p _
  | cons parent above ih =>
    obtain ⟨hp, habove⟩ := List.forall_mem_cons.1 h
    have hmake : Changes R (Host.makeDirectory p : StateM World (Except Fault Unit)) :=
      change hR hp
    -- the directory itself is tried before those above it, and once more behind them
    refine bind hR hmake fun outcome => ?_
    split
    · refine bind hR (ih habove) fun outcome => ?_
      cases outcome with
      | error fault => exact pure hR _
      | ok _ => exact bind hR hmake fun _ => settle hR p _
    · exact settle hR p _

theorem makeDirectories (hR : IsChain R) {p : FilePath}
    (h : ∀ q ∈ p :: p.above, ∀ d base d', Disk.makeDirectory d base q = .ok d' → R base d d') :
    Changes R (Host.makeDirectories p : StateM World (Except Fault Unit)) := by
  unfold Host.makeDirectories
  split
  · exact pure hR _
  · exact makeWithin hR h

end Changes

/-! ## Directories that are there in the end -/

/-- Where it is fine that a directory could not be made, there is one. -/
theorem settle_kind? {p : FilePath} {outcome : Except Fault Unit} {w w' : World}
    (hmade : outcome = .ok () → w.disk.kind? w.workingDirectory p = some .directory)
    (h : (Host.settle p outcome : StateM World (Except Fault Unit)) w = (.ok (), w')) :
    w'.disk.kind? w'.workingDirectory p = some .directory := by
  cases outcome with
  | ok _ =>
    cases h
    exact hmade rfl
  | error fault =>
    have houtcome := congrArg Prod.fst h
    cases congrArg Prod.snd h
    by_cases hkind : w.disk.kind? w.workingDirectory p = some .directory
    · exact hkind
    · have hfailed : (Host.settle p (.error fault) : StateM World (Except Fault Unit)) w =
          (if decide (w.disk.kind? w.workingDirectory p = some .directory) = true then .ok ()
            else .error fault, w) := rfl
      rw [hfailed, if_neg (by simpa using hkind)] at houtcome
      cases houtcome

theorem makeDirectory_settle_kind? {p : FilePath} {w w' : World}
    (h : (Host.makeDirectory p >>= Host.settle p : StateM World (Except Fault Unit)) w =
      (.ok (), w')) : w'.disk.kind? w'.workingDirectory p = some .directory := by
  rw [bind_run] at h
  refine settle_kind? (fun hmade => ?_) h
  obtain ⟨hbase, ⟨⟨fault, hfault⟩, -⟩ | ⟨-, hstep⟩⟩ :=
    change_cases (Prod.ext hmade rfl : World.change (Disk.makeDirectory · · p) w = (.ok (), _))
  · cases hfault
  · exact hbase ▸ Disk.makeDirectory_kind? hstep

/-- The directory at a path is there when it has been made with all that leads to it. -/
theorem makeDirectories_kind? {p : FilePath} {w w' : World} (htext : p.text ≠ [])
    (h : (Host.makeDirectories p : StateM World (Except Fault Unit)) w = (.ok (), w')) :
    w'.disk.kind? w'.workingDirectory p = some .directory := by
  rw [Host.makeDirectories, if_neg htext] at h
  cases habove : p.above with
  | nil =>
    rw [habove, Host.makeWithin] at h
    exact makeDirectory_settle_kind? h
  | cons parent above =>
    rw [habove, Host.makeWithin, bind_run] at h
    rcases hmake : (Host.makeDirectory p : StateM World (Except Fault Unit)) w with ⟨outcome, w₁⟩
    rw [hmake] at h
    have hsettled (hother : (Host.settle p outcome : StateM World (Except Fault Unit)) w₁ =
        (.ok (), w')) : w'.disk.kind? w'.workingDirectory p = some .directory := by
      refine @makeDirectory_settle_kind? p w w' ?_
      rw [bind_run, hmake]
      exact hother
    rcases outcome with fault | _
    · cases fault with
      | notFound =>
        -- what is above has been made before the directory is tried once more
        dsimp only at h
        rw [bind_run] at h
        rcases hwithin : (Host.makeWithin above parent : StateM World (Except Fault Unit)) w₁ with
          ⟨fault | _, w₂⟩
        · rw [hwithin] at h
          cases h
        · rw [hwithin] at h
          exact makeDirectory_settle_kind? h
      | _ => exact hsettled h
    · exact hsettled h

/-! ## Computations that may fail -/

/-- What a computation that may fail gives, and the world it leaves. -/
def run (w : World) (x : ExceptT ε (StateM World) α) : Except ε α × World :=
  (ExceptT.run x).run w

theorem run_andThen {w w' : World} {x : ExceptT ε (StateM World) α}
    {f : α → ExceptT ε (StateM World) β} {result : Except ε β}
    (h : w.run (x >>= f) = (result, w')) :
    (∃ e, w.run x = (.error e, w') ∧ result = .error e) ∨
      ∃ a w₁, w.run x = (.ok a, w₁) ∧ w₁.run (f a) = (result, w') :=
  andThen_cases h

theorem run_andThen_ok {w w' : World} {x : ExceptT ε (StateM World) α}
    {f : α → ExceptT ε (StateM World) β} {b : β} (h : w.run (x >>= f) = (.ok b, w')) :
    ∃ a w₁, w.run x = (.ok a, w₁) ∧ w₁.run (f a) = (.ok b, w') := by
  rcases run_andThen h with ⟨e, -, he⟩ | h
  · cases he
  · exact h

theorem run_bind_ok {w w₁ : World} {x : ExceptT ε (StateM World) α} {a : α}
    {f : α → ExceptT ε (StateM World) β} (h : w.run x = (.ok a, w₁)) :
    w.run (x >>= f) = w₁.run (f a) := by
  unfold run at h ⊢
  rw [ExceptT.run_bind, StateT.run_bind, h]
  rfl

/-- Computations that begin in the same way and go on in the same way do the same. -/
theorem run_bind_congr {w : World} {x y : ExceptT ε (StateM World) α}
    {f g : α → ExceptT ε (StateM World) β} (hfirst : w.run x = w.run y)
    (hrest : ∀ a w₁, w.run x = (.ok a, w₁) → w₁.run (f a) = w₁.run (g a)) :
    w.run (x >>= f) = w.run (y >>= g) := by
  rcases hx : w.run x with ⟨e | a, w₁⟩
  · have hy := hfirst.symm.trans hx
    unfold run at hx hy ⊢
    rw [ExceptT.run_bind, ExceptT.run_bind, StateT.run_bind, StateT.run_bind, hx, hy]
    rfl
  · rw [run_bind_ok hx, run_bind_ok (hfirst.symm.trans hx)]
    exact hrest a w₁ hx

theorem run_mapM_congr {f g : α → ExceptT ε (StateM World) β} {l : List α} {w : World}
    (hsame : ∀ a ∈ l, ∀ w : World, w.run (f a) = w.run (g a)) :
    w.run (l.mapM f) = w.run (l.mapM g) := by
  induction l generalizing w with
  | nil => rfl
  | cons a l ih =>
    obtain ⟨hfirst, hrest⟩ := List.forall_mem_cons.1 hsame
    rw [List.mapM_cons, List.mapM_cons]
    refine run_bind_congr (hfirst w) fun b w₁ _ => ?_
    exact run_bind_congr (ih hrest) fun _ _ _ => rfl

/-- What each member of a row of computations leads on from, the row leads to. -/
theorem run_mapM_zip {P : List (α × β) → World → Prop} {f : α → ExceptT ε (StateM World) β}
    {l : List α} {w w' : World} {bs : List β} {done : List (α × β)}
    (hstep : ∀ a ∈ l, ∀ done w b w', P done w → w.run (f a) = (.ok b, w') → P (done ++ [(a, b)]) w')
    (hw : P done w) (h : w.run (l.mapM f) = (.ok bs, w')) : P (done ++ l.zip bs) w' := by
  induction l generalizing w bs done with
  | nil =>
    rw [List.mapM_nil] at h
    cases h
    rwa [List.zip_nil_left, List.append_nil]
  | cons a l ih =>
    obtain ⟨ha, hl⟩ := List.forall_mem_cons.1 hstep
    rw [List.mapM_cons] at h
    obtain ⟨b, w₁, hfirst, h⟩ := run_andThen_ok h
    obtain ⟨rest, w₂, hrest, hlast⟩ := run_andThen_ok h
    cases hlast
    have hend := ih hl (ha done w b w₁ hw hfirst) hrest
    rwa [List.append_assoc, List.singleton_append] at hend

theorem length_of_run_mapM {f : α → ExceptT ε (StateM World) β} {l : List α} {w w' : World}
    {bs : List β} (h : w.run (l.mapM f) = (.ok bs, w')) : bs.length = l.length := by
  induction l generalizing w bs with
  | nil =>
    rw [List.mapM_nil] at h
    cases h
    rfl
  | cons a l ih =>
    rw [List.mapM_cons] at h
    obtain ⟨b, w₁, -, h⟩ := run_andThen_ok h
    obtain ⟨rest, w₂, hrest, hlast⟩ := run_andThen_ok h
    cases hlast
    exact congrArg Nat.succ (ih hrest)

theorem run_adapt (w : World) (f : ε → ε') (x : ExceptT ε (StateM World) α) :
    w.run (ExceptT.adapt f x) = ((w.run x).1.mapError f, (w.run x).2) := by
  rcases hx : w.run x with ⟨result, w'⟩
  exact congrArg (fun p : Except ε α × World => (p.1.mapError f, p.2)) hx

theorem run_orFail (w : World) (x : StateM World (Except Fault α)) (meaning : Fault → ε) :
    w.run (Host.orFail x meaning) = ((x w).1.mapError meaning, (x w).2) := rfl

theorem run_change (step : Disk → Location → Except Fault Disk) {meaning : Fault → ε}
    {w w' : World} {result : Except ε Unit}
    (h : w.run (Host.orFail (change step) meaning) = (result, w')) :
    w'.workingDirectory = w.workingDirectory ∧
      ((∃ e, result = .error e) ∧ w'.disk = w.disk ∨
        result = .ok () ∧ step w.disk w.workingDirectory = .ok w'.disk) := by
  rw [run_orFail] at h
  rcases hchange : change step w with ⟨outcome, w₁⟩
  rw [hchange] at h
  obtain ⟨hbase, ⟨⟨fault, rfl⟩, hdisk⟩ | ⟨rfl, hstep⟩⟩ := change_cases hchange
  · cases h
    exact ⟨hbase, .inl ⟨⟨_, rfl⟩, hdisk⟩⟩
  · cases h
    exact ⟨hbase, .inr ⟨rfl, hstep⟩⟩

namespace Changes

theorem throw (hR : IsChain R) (e : ε) :
    Changes R (MonadExcept.throw e : ExceptT ε (StateM World) α).run :=
  pure hR (Except.error e)

theorem succeed (hR : IsChain R) (a : α) :
    Changes R (Pure.pure a : ExceptT ε (StateM World) α).run :=
  pure hR (Except.ok a)

theorem andThen (hR : IsChain R) {x : ExceptT ε (StateM World) α}
    {f : α → ExceptT ε (StateM World) β} (hx : Changes R x.run) (hf : ∀ a, Changes R (f a).run) :
    Changes R (x >>= f).run := by
  rw [ExceptT.run_bind]
  refine bind hR hx fun outcome => ?_
  cases outcome with
  | error e => exact pure hR (Except.error e)
  | ok a => exact hf a

theorem lift {x : StateM World α} (hx : Changes R x) :
    Changes R (liftM x : ExceptT ε (StateM World) α).run :=
  map hx Except.ok

theorem reported (hR : IsChain R) (event : Event) :
    Changes R (liftM (Host.report event : StateM World Unit) : ExceptT ε (StateM World) Unit).run :=
  lift (report hR event)

theorem adapt {x : ExceptT ε (StateM World) α} (hx : Changes R x.run) (f : ε → ε') :
    Changes R (ExceptT.adapt f x).run :=
  map hx _

theorem orFail (hR : IsChain R) {operation : StateM World (Except Fault α)}
    (h : Changes R operation) (meaning : Fault → ε) :
    Changes R (Host.orFail operation meaning).run :=
  bind hR h fun _ => pure hR _

theorem mapM (hR : IsChain R) {f : α → ExceptT ε (StateM World) β} {l : List α}
    (h : ∀ a ∈ l, Changes R (f a).run) : Changes R (l.mapM f).run := by
  induction l with
  | nil =>
    rw [List.mapM_nil]
    exact succeed hR []
  | cons a l ih =>
    obtain ⟨ha, hl⟩ := List.forall_mem_cons.1 h
    rw [List.mapM_cons]
    exact andThen hR ha fun b => andThen hR (ih hl) fun bs => succeed hR (b :: bs)

theorem of_run {x : ExceptT ε (StateM World) α} (hx : Changes R x.run) {w w' : World}
    {result : Except ε α} (h : w.run x = (result, w')) :
    w'.workingDirectory = w.workingDirectory ∧ R w.workingDirectory w.disk w'.disk := by
  have hchanges := hx w
  rw [show x.run w = (result, w') from h] at hchanges
  exact hchanges

end Changes

/-- Wherever the computation succeeds, it leaves a disk with a property. -/
def Leaves (P : Location → Disk → Prop) (x : ExceptT ε (StateM World) α) : Prop :=
  ∀ (w : World) (a : α) (w' : World),
    w.run x = (.ok a, w') → P w'.workingDirectory w'.disk

/-- The relation keeps a property of disks. -/
def IsKept (R : Location → Disk → Disk → Prop) (P : Location → Disk → Prop) : Prop :=
  ∀ base d d', P base d → R base d d' → P base d'

namespace Leaves

variable {P : Location → Disk → Prop}

theorem last {x : ExceptT ε (StateM World) α} {f : α → ExceptT ε (StateM World) β}
    (hf : ∀ a, Leaves P (f a)) : Leaves P (x >>= f) := by
  intro w b w' h
  obtain ⟨a, w₁, -, hlast⟩ := run_andThen_ok h
  exact hf a w₁ b w' hlast

theorem andThen (hkept : IsKept R P) {x : ExceptT ε (StateM World) α}
    {f : α → ExceptT ε (StateM World) β} (hx : Leaves P x) (hf : ∀ a, Changes R (f a).run) :
    Leaves P (x >>= f) := by
  intro w b w' h
  obtain ⟨a, w₁, hfirst, hlast⟩ := run_andThen_ok h
  obtain ⟨hbase, hdisk⟩ := (hf a).of_run hlast
  rw [hbase]
  exact hkept _ _ _ (hx w a w₁ hfirst) hdisk

theorem mapM (hR : IsChain R) {P : α → Location → Disk → Prop}
    {f : α → ExceptT ε (StateM World) β} {l : List α} (hkept : ∀ a, IsKept R (P a))
    (hf : ∀ a ∈ l, Changes R (f a).run) (h : ∀ a ∈ l, Leaves (P a) (f a)) :
    Leaves (fun base d => ∀ a ∈ l, P a base d) (l.mapM f) := by
  induction l with
  | nil =>
    intro w bs w' _ a ha
    cases ha
  | cons a l ih =>
    obtain ⟨ha, hl⟩ := List.forall_mem_cons.1 h
    obtain ⟨hfa, hfl⟩ := List.forall_mem_cons.1 hf
    intro w bs w' hrun
    rw [List.mapM_cons] at hrun
    obtain ⟨b, w₁, hfirst, hrun⟩ := run_andThen_ok hrun
    obtain ⟨bs', w₂, hrest, hlast⟩ := run_andThen_ok hrun
    cases hlast
    obtain ⟨hbase, hdisk⟩ := (Changes.mapM hR hfl).of_run hrest
    refine List.forall_mem_cons.2 ⟨?_, ih hfl hl w₁ bs' w' hrest⟩
    rw [hbase]
    exact hkept a _ _ _ (ha w b w₁ hfirst) hdisk

end Leaves
end World
end RoutePages
