import RoutePages.Proofs.Host.Effect

/-!
# Journeys

A journey goes through a world and keeps the paths that it looked into, in their order. A
computation that runs on every host does on a journey to the world what it does to the world
alone.
-/
namespace RoutePages

/-- A world, and the paths at which something was listed or read, in order. -/
structure Journey where
  world : World
  visited : List FilePath

namespace Journey

variable {α β ε : Type}

/-- Does something to the world. -/
def within (x : StateM World α) : StateM Journey α :=
  fun j => ((x j.world).1, { j with world := (x j.world).2 })

/-- Looks into the world at a path. -/
def visit (p : FilePath) (x : StateM World α) : StateM Journey α :=
  fun j => ((x j.world).1, ⟨(x j.world).2, j.visited ++ [p]⟩)

instance : Host (StateM Journey) where
  kind? p := within (Host.kind? p)
  isLink p := within (Host.isLink p)
  workingDirectory := within Host.workingDirectory
  read p := visit p (Host.read p)
  write p content := within (Host.write p content)
  makeDirectory p := within (Host.makeDirectory p)
  list p := visit p (Host.list p)
  rename p q := within (Host.rename p q)
  resolve p := within (Host.resolve p)
  report event := within (Host.report event)

theorem within_bind (x : StateM World α) (f : α → StateM World β) :
    within (x >>= f) = within x >>= fun a => within (f a) := rfl

theorem within_settle (p : FilePath) (outcome : Except Fault Unit) :
    (Host.settle p outcome : StateM Journey (Except Fault Unit)) = within (Host.settle p outcome) := by
  cases outcome <;> rfl

theorem within_makeWithin (above : List FilePath) (p : FilePath) :
    (Host.makeWithin above p : StateM Journey (Except Fault Unit)) =
      within (Host.makeWithin above p) := by
  induction above generalizing p with
  | nil =>
    rw [Host.makeWithin, Host.makeWithin, within_bind]
    exact bind_congr fun outcome => within_settle p outcome
  | cons parent above ih =>
    rw [Host.makeWithin, Host.makeWithin, within_bind]
    refine bind_congr fun outcome => ?_
    split
    · rw [ih, within_bind]
      refine bind_congr fun outcome => ?_
      cases outcome with
      | error fault => rfl
      | ok _ =>
        dsimp only
        rw [within_bind]
        exact bind_congr fun outcome => within_settle p outcome
    · exact within_settle p _

theorem within_makeDirectories (p : FilePath) :
    (Host.makeDirectories p : StateM Journey (Except Fault Unit)) =
      within (Host.makeDirectories p) := by
  unfold Host.makeDirectories
  split
  · rfl
  · exact within_makeWithin p.above p

/-! ## The world of a journey -/

/-- On journeys, the first computation does to the world what the second one does. -/
def Mirrors (x : StateM Journey α) (y : StateM World α) : Prop :=
  ∀ j : Journey, y j.world = ((x j).1, (x j).2.world)

namespace Mirrors

theorem within (y : StateM World α) : Mirrors (within y) y := fun _ => rfl

theorem visit (p : FilePath) (y : StateM World α) : Mirrors (visit p y) y := fun _ => rfl

theorem pure (a : α) : Mirrors (Pure.pure a) (Pure.pure a) := fun _ => rfl

theorem bind {x : StateM Journey α} {y : StateM World α} {f : α → StateM Journey β}
    {g : α → StateM World β} (hx : Mirrors x y) (hf : ∀ a, Mirrors (f a) (g a)) :
    Mirrors (x >>= f) (y >>= g) := by
  intro j
  rw [World.bind_run, hx j]
  exact hf (x j).1 (x j).2

theorem isFile (p : FilePath) :
    Mirrors (Host.isFile p : StateM Journey Bool) (Host.isFile p : StateM World Bool) :=
  bind (within _) fun _ => pure _

theorem isDirectory (p : FilePath) :
    Mirrors (Host.isDirectory p : StateM Journey Bool) (Host.isDirectory p : StateM World Bool) :=
  bind (within _) fun _ => pure _

theorem exists? (p : FilePath) :
    Mirrors (Host.exists? p : StateM Journey Bool) (Host.exists? p : StateM World Bool) :=
  bind (within _) fun _ => pure _

theorem throw (e : ε) : Mirrors (MonadExcept.throw e : ExceptT ε (StateM Journey) α).run
    (MonadExcept.throw e : ExceptT ε (StateM World) α).run := fun _ => rfl

theorem succeed (a : α) : Mirrors (Pure.pure a : ExceptT ε (StateM Journey) α).run
    (Pure.pure a : ExceptT ε (StateM World) α).run := fun _ => rfl

theorem andThen {x : ExceptT ε (StateM Journey) α} {y : ExceptT ε (StateM World) α}
    {f : α → ExceptT ε (StateM Journey) β} {g : α → ExceptT ε (StateM World) β}
    (hx : Mirrors x.run y.run) (hf : ∀ a, Mirrors (f a).run (g a).run) :
    Mirrors (x >>= f).run (y >>= g).run := by
  rw [ExceptT.run_bind, ExceptT.run_bind]
  refine bind hx fun outcome => ?_
  cases outcome with
  | error e => exact pure (Except.error e)
  | ok a => exact hf a

/-- Something is refused before a computation. -/
theorem refuse (refused : Bool) (e : ε) {x : ExceptT ε (StateM Journey) α}
    {y : ExceptT ε (StateM World) α} (h : Mirrors x.run y.run) :
    Mirrors (if refused = true then MonadExcept.throw e >>= fun _ : Unit => x else x).run
      (if refused = true then MonadExcept.throw e >>= fun _ : Unit => y else y).run := by
  cases refused with
  | true => exact andThen (throw e) fun _ => h
  | false => exact h

theorem lift {x : StateM Journey α} {y : StateM World α} (hx : Mirrors x y) :
    Mirrors (liftM x : ExceptT ε (StateM Journey) α).run
      (liftM y : ExceptT ε (StateM World) α).run := by
  intro j
  have hj := hx j
  exact congrArg (fun p : α × World => (Except.ok p.1, p.2)) hj

theorem orFail {x : StateM Journey (Except Fault α)} {y : StateM World (Except Fault α)}
    (hx : Mirrors x y) (meaning : Fault → ε) :
    Mirrors (Host.orFail x meaning).run (Host.orFail y meaning).run :=
  bind hx fun _ => pure _

theorem mapM {f : α → ExceptT ε (StateM Journey) β} {g : α → ExceptT ε (StateM World) β}
    {l : List α} (h : ∀ a ∈ l, Mirrors (f a).run (g a).run) :
    Mirrors (l.mapM f).run (l.mapM g).run := by
  induction l with
  | nil => exact succeed []
  | cons a l ih =>
    obtain ⟨ha, hl⟩ := List.forall_mem_cons.1 h
    rw [List.mapM_cons, List.mapM_cons]
    exact andThen ha fun b => andThen (ih hl) fun bs => succeed (b :: bs)

end Mirrors

/-! ## Journeys that may fail -/

/-- What a computation that may fail gives on a journey, and where the journey ends. -/
def run (j : Journey) (x : ExceptT ε (StateM Journey) α) : Except ε α × Journey :=
  (ExceptT.run x).run j

theorem run_andThen {j j' : Journey} {x : ExceptT ε (StateM Journey) α}
    {f : α → ExceptT ε (StateM Journey) β} {result : Except ε β}
    (h : j.run (x >>= f) = (result, j')) :
    (∃ e, j.run x = (.error e, j') ∧ result = .error e) ∨
      ∃ a j₁, j.run x = (.ok a, j₁) ∧ j₁.run (f a) = (result, j') :=
  andThen_cases h

theorem run_refuse {j j' : Journey} {refused : Bool} {e : ε} {x : ExceptT ε (StateM Journey) α}
    {result : Except ε α}
    (h : j.run (if refused = true then MonadExcept.throw e >>= fun _ : Unit => x else x) =
      (result, j')) :
    (refused = true ∧ result = .error e ∧ j' = j) ∨ refused = false ∧ j.run x = (result, j') := by
  cases refused with
  | true =>
    cases h
    exact .inl ⟨rfl, rfl, rfl⟩
  | false => exact .inr ⟨rfl, h⟩

theorem Mirrors.run {x : ExceptT ε (StateM Journey) α} {y : ExceptT ε (StateM World) α}
    (h : Mirrors x.run y.run) (j : Journey) :
    j.world.run y = ((j.run x).1, (j.run x).2.world) :=
  h j

theorem run_read (j : Journey) (p : FilePath) (meaning : Fault → ε) :
    j.run (Host.orFail (Host.read p) meaning) =
      ((j.world.disk.read j.world.workingDirectory p).mapError meaning,
        ⟨j.world, j.visited ++ [p]⟩) := rfl

theorem run_change (step : Disk → Location → Except Fault Disk) {j j' : Journey}
    {meaning : Fault → ε} {result : Except ε Unit}
    (h : j.run (Host.orFail (within (World.change step)) meaning) = (result, j')) :
    j'.visited = j.visited ∧ j'.world.workingDirectory = j.world.workingDirectory ∧
      ((∃ e, result = .error e) ∧ j'.world.disk = j.world.disk ∨
        result = .ok () ∧
          step j.world.disk j.world.workingDirectory = .ok j'.world.disk) := by
  cases h
  exact ⟨rfl, World.run_change step rfl⟩

theorem run_makeDirectories {j j' : Journey} {p : FilePath} {meaning : Fault → ε}
    {result : Except ε Unit}
    (h : j.run (Host.orFail (Host.makeDirectories p) meaning) = (result, j')) :
    j'.visited = j.visited ∧ ∃ outcome, result = outcome.mapError meaning ∧
      (Host.makeDirectories p : StateM World (Except Fault Unit)) j.world =
        (outcome, j'.world) := by
  rw [within_makeDirectories] at h
  cases h
  exact ⟨rfl, _, rfl, rfl⟩

end Journey
end RoutePages
