import Tandem.Proofs.Run.Step
import Tandem.Proofs.Run.Twins

/-!
# Every run starts afresh

Nothing of what an executor has been through is left in its next run. What it is set up with never
changes (`Career.setup_eq`), a run that begins puts back everything else that decides how it goes on
(`Core.begun_eq`), and nothing is shown as running while there is no run. So the run of an executor
with any past, and that of a new executor with the same setup and the same avatars, begin as twins
(`Turn.twins_begin`), and stay so whatever they are given to do (`Career.starts_afresh`).

The one trace of the past is that a run before it, if it was not cleaned up, is cleaned up first.
-/

namespace Tandem

/-! ## The setup of an executor -/

/-- What an executor is set up with, once and for all. -/
structure Setup where
  role : Role
  mode : SyncMode
  timings : Timings
  waitCommand : String

namespace Core

/-- What the executor was set up with. -/
def setup (c : Core) : Setup :=
  ⟨c.policy.role, c.policy.mode, c.policy.timings, c.waitCommand⟩

/-- A run that begins has kept nothing but the setup. -/
theorem begun_eq {c c' : Core} (h : c.setup = c'.setup) : c.begun = c'.begun := by
  obtain ⟨hrole, hmode, htimings, hwait⟩ := Setup.mk.inj h
  simp only [begun, SyncPolicy.start, SyncPolicy.reset, hrole, hmode, htimings, hwait]

theorem setup_ended (c : Core) (outcome : Phase) : (c.ended outcome).setup = c.setup := by
  unfold ended
  dsimp only
  split <;> rfl

theorem setup_ticked (c : Core) (kind : TickClass) : (c.ticked kind).setup = c.setup := by
  unfold ticked
  rw [SyncPolicy.afterTick_eq]
  rfl

theorem setup_heldBack (c : Core) : c.heldBack.setup = c.setup := by
  unfold heldBack SyncPolicy.handedOver
  split <;> rfl

end Core

namespace Turn

variable {α : Type}

/-- What the executor was set up with. -/
def setup (t : Turn α) : Setup :=
  t.exec.core.setup

/-! ## No step changes the setup -/

/-- The set-up of an executor is part of its core. -/
theorem setup_of_core {t t' : Turn α} (h : t'.exec.core = t.exec.core) : t'.setup = t.setup :=
  congrArg Core.setup h

theorem setup_cleanup (t : Turn α) : t.cleanup.setup = t.setup := by
  rw [setup, core_cleanup]
  rfl

theorem setup_finish (t : Turn α) (outcome : Phase) : (t.finish outcome).setup = t.setup := by
  rw [setup, core_finish, Core.setup_ended]
  rfl

theorem setup_begin (t : Turn α) : t.begin.setup = t.setup := by
  rw [setup, core_begin]
  rfl

theorem setup_afterPeerEnd (t : Turn α) : t.afterPeerEnd.setup = t.setup := by
  unfold afterPeerEnd
  dsimp only
  split
  · rw [setup_cleanup]
    rfl
  · rfl

theorem setup_abandon (t : Turn α) : t.abandon.setup = t.setup := by
  rw [abandon, setup_cleanup]
  rfl

theorem setup_passTime (t : Turn α) (dt : Float32) : (t.passTime dt).1.setup = t.setup := by
  obtain ⟨policy, phase, pending, late, h, hpolicy, -⟩ := t.passTime_eq dt
  have hkept : (t.passTime dt).1.setup =
      ⟨policy.role, policy.mode, policy.timings, t.exec.waitCommand⟩ := by
    rw [h]
    cases late <;> rfl
  rw [hkept]
  obtain rfl | rfl := hpolicy
  · rfl
  · obtain ⟨-, hw⟩ | ⟨-, held, hw⟩ | ⟨-, held, hw⟩ := t.exec.policy.waitFor_cases dt <;>
      (rw [hw]; rfl)

variable [Avatar α]

theorem setup_dispatch (t : Turn α) (name : String) (args : List String) (remote : Bool) :
    (t.dispatch name args remote).1.setup = t.setup :=
  setup_of_core (t.core_dispatch name args remote)

theorem setup_passGate (t : Turn α) (tick : Tick) : (t.passGate tick).1.setup = t.setup := by
  obtain ⟨h, -⟩ | ⟨_, h, -, -⟩ | ⟨_, h, -, hcore, -, -⟩ := t.passGate_cases tick
  · rw [h]
  · rw [h]
    rfl
  · rw [h, setup, hcore, Core.setup_heldBack]
    rfl

theorem setup_makeTick (t : Turn α) (tick : Tick) : (t.makeTick tick).setup = t.setup := by
  rw [setup, core_makeTick, Core.setup_ticked]
  rfl

/-- No step changes what the executor was set up with. -/
theorem setup_step {t t' : Turn α} (h : Step t t') : t'.setup = t.setup := by
  cases h with
  | adjust f hf =>
    simp only [setup, Core.setup, Executor.core, mapExec, hf.policy, hf.waitCommand]
  | refuse | ask | release => rfl
  | dispatch name args remote => exact t.setup_dispatch name args remote
  | begin => exact t.setup_begin
  | gate tick => exact t.setup_passGate tick
  | tick tick => exact t.setup_makeTick tick
  | wait dt => exact t.setup_passTime dt
  | finish outcome => exact t.setup_finish outcome
  | peerEnd => exact t.setup_afterPeerEnd
  | abandon => exact t.setup_abandon

/-! ## The beginning of a run -/

omit [Avatar α] in
/-- If nothing is shown as running when there is no run, nothing is when one begins. -/
theorem shown_begin {t : Turn α} (htop : t.exec.shownTop = none)
    (hchild : t.exec.shownChild = none) :
    t.begin.exec.shownTop = none ∧ t.begin.exec.shownChild = none := by
  unfold begin
  dsimp only
  split
  · exact t.nextUpdate.shown_hideActive
  · exact ⟨htop, hchild⟩

omit [Avatar α] in
/-- A run begins with no command shown as running in its script. -/
theorem script_begin_eq (t : Turn α) : t.begin.script = t.script.clearRunning := by
  unfold begin
  dsimp only
  split
  · exact t.nextUpdate.script_cleanup
  · rfl

end Turn

/-- Executors that agree in what decides how their runs go on, in their avatars and in what they
show differ in their logs at most. -/
theorem Executor.eq_of_core {α : Type} {e e' : Executor α} (hcore : e.core = e'.core)
    (hmay : e.mayRun = e'.mayRun) (htop : e.shownTop = e'.shownTop)
    (hchild : e.shownChild = e'.shownChild) (hown : e.own = e'.own) (hrival : e.rival = e'.rival) :
    e = { e' with log := e.log } := by
  obtain ⟨phase, policy, wait, cursor, pending, age, _, _, due, _, _, _, log⟩ := e
  obtain ⟨phase', policy', wait', cursor', pending', age', _, _, due', _, _, _, log'⟩ := e'
  obtain ⟨rfl, rfl, rfl, rfl, rfl, rfl, rfl⟩ := Core.mk.inj hcore
  obtain rfl := hmay
  obtain rfl := htop
  obtain rfl := hchild
  obtain rfl := hown
  obtain rfl := hrival
  rfl

/-- The deeds by which a run that has ended is cleaned up, if it has not been before. -/
def Executor.leftover {α : Type} (e : Executor α) : List Deed :=
  if e.cleanupDue then [.effect (.runShown false), .event .cleanup] else []

namespace Turn

variable {α : Type}

/-- Runs of executors with the same setup and the same avatars begin as twins. The second executor
has nothing to clean up. -/
theorem twins_begin {e e' : Executor α} {s s' : Script} (hsetup : e.core.setup = e'.core.setup)
    (hown : e.own = e'.own) (hrival : e.rival = e'.rival) (hdue : e'.cleanupDue = false)
    (he : e.shownTop = none ∧ e.shownChild = none) (he' : e'.shownTop = none ∧ e'.shownChild = none)
    (hs : s.Alike Flags.disabled s') : Twins e.leftover (e.on s).begin (e'.on s').begin := by
  have hcore : (e.on s).begin.exec.core = (e'.on s').begin.exec.core :=
    (e.on s).core_begin.trans ((Core.begun_eq hsetup).trans (e'.on s').core_begin.symm)
  obtain ⟨htop, hchild⟩ := shown_begin (t := e.on s) he.1 he.2
  obtain ⟨htop', hchild'⟩ := shown_begin (t := e'.on s') he'.1 he'.2
  obtain ⟨howns, hrivals⟩ := (e.on s).crew_begin
  obtain ⟨howns', hrivals'⟩ := (e'.on s').crew_begin
  refine ⟨Executor.eq_of_core hcore rfl (htop.trans htop'.symm) (hchild.trans hchild'.symm)
    (howns.trans (hown.trans howns'.symm)) (hrivals.trans (hrival.trans hrivals'.symm)), ?_, ?_⟩
  · rw [script_begin_eq, script_begin_eq]
    exact hs.clearRunning
  · obtain ⟨hrole, hmode, -, -⟩ := Setup.mk.inj hsetup
    have hnone : ∀ (e : Executor α) (s : Script), (e.on s).seen deedWatch = [] := fun _ _ => rfl
    rw [seen_begin, seen_begin, hnone, hnone, List.nil_append, List.nil_append,
      if_neg (show ¬(e'.on s').exec.cleanupDue = true from Bool.eq_false_iff.mp hdue),
      List.nil_append,
      show (e.on s).script.clearRunning.length = (e'.on s').script.clearRunning.length from
        hs.clearRunning.length_eq,
      show (e.on s).exec.policy.mode = (e'.on s').exec.policy.mode from hmode,
      show (e.on s).exec.policy.role = (e'.on s').exec.policy.role from hrole]
    rfl

end Turn

namespace Career

variable {α : Type} [Avatar α]

/-- The setup of an executor is the same after all orders. -/
theorem setup_eq (role : Role) (mode : SyncMode) (timings : Timings) (wait : String)
    (own rival : α) (s : Script) (orders : List Order) :
    ((Executor.new role mode timings wait own rival).career s orders).exec.core.setup =
      ⟨role, mode, timings, wait⟩ := by
  exact preserve (w := deedWatch)
    (P := fun _ e _ => e.core.setup = ⟨role, mode, timings, wait⟩)
    (fun h ht => (Turn.setup_step h).trans ht) orders (fun _ _ _ _ => id) rfl

/-- Whatever an executor has been through, its next run and that of a new executor with the same
setup and avatars in the same state are the same, over scripts of the same code with the same
commands disabled, and whatever orders follow : after all of them the executors differ in their logs
at most, their scripts look alike, and they have done the same, except that the first one may have
cleaned up its last run before. -/
theorem starts_afresh (role : Role) (mode : SyncMode) (timings : Timings) (wait : String)
    (own₀ rival₀ : α) (s₀ : Script) (past : List Order) (s s' : Script)
    (hidle : ((Executor.new role mode timings wait own₀ rival₀).career s₀ past).exec.isRunning =
      false)
    (hcode : s.sameCode s' = true)
    (hdisabled : s.nodes.map (·.2.disabled) = s'.nodes.map (·.2.disabled)) (orders : List Order) :
    let e := ((Executor.new role mode timings wait own₀ rival₀).career s₀ past).exec
    let e' := Executor.new role mode timings wait e.own e.rival
    let t := orders.foldl Turn.obey (e.on s).run.1
    let t' := orders.foldl Turn.obey (e'.on s').run.1
    t.exec = { t'.exec with log := t.exec.log } ∧ t.script.Alike Flags.gist t'.script ∧
      t.seen deedWatch = e.leftover ++ t'.seen deedWatch := by
  intro e e' t t'
  have hstill : e.Still :=
    ((kept role mode timings wait own₀ rival₀ s₀ past).settled.rests_of_not_running hidle).2
  have hsetup : e.core.setup = e'.core.setup :=
    setup_eq role mode timings wait own₀ rival₀ s₀ past
  have hbegin : Turn.Twins e.leftover (e.on s).begin (e'.on s').begin :=
    Turn.twins_begin hsetup rfl rfl rfl ⟨hstill.shownTop, hstill.shownChild⟩ ⟨rfl, rfl⟩
      (Script.alike_of_sameCode hcode hdisabled)
  have hrun : Turn.Twins e.leftover (e.on s).run.1 (e'.on s').run.1 := by
    have hidle : (e.on s).exec.isRunning = false := hidle
    have hnew : (e'.on s').exec.isRunning = false := rfl
    rw [Turn.run, hidle, Turn.run, hnew]
    exact hbegin.advance
  have h := hrun.foldl_obey orders
  exact ⟨h.exec, h.script, h.deeds⟩

/-- A run was interrupted while it waited for the other device, whose release came late. -/
def interruptedPast : List Order :=
  [.run, .call (.command "MOVE" ["WEST"]), .call .interrupt, .call .release]

/-- The spiral while one of its commands is being edited. -/
def editedSpiral : Script :=
  ⟨Turn.spiral.commands.map (Command.setEdited true)⟩

/-- After a run that was interrupted, a device that steps in parallel starts afresh. -/
theorem starts_afresh_after_interrupt :
    let e := ((Executor.new .slave .stepSwitching .standard "Continue_Sec"
      (GridAvatar.new .standard 6 true [] true) (GridAvatar.new .standard 6 false [] false)).career
      Turn.spiral interruptedPast).exec
    let e' := Executor.new .slave .stepSwitching .standard "Continue_Sec" e.own e.rival
    let orders : List Order := [.call .release, .call (.update 0.5), .call .peerEnd]
    let t := orders.foldl Turn.obey (e.on Turn.spiral).run.1
    let t' := orders.foldl Turn.obey (e'.on editedSpiral).run.1
    (e.isRunning = false ∧ Turn.spiral.sameCode editedSpiral = true ∧
      Turn.spiral.nodes.map (·.2.disabled) = editedSpiral.nodes.map (·.2.disabled)) ∧
    e.leftover = [.effect (.runShown false), .event .cleanup] ∧
    t.exec = { t'.exec with log := t.exec.log } ∧ t.script.Alike Flags.gist t'.script ∧
      t.seen deedWatch = e.leftover ++ t'.seen deedWatch := by
  refine ⟨⟨?_, ?_, ?_⟩, ?_, starts_afresh .slave .stepSwitching .standard "Continue_Sec"
    (GridAvatar.new .standard 6 true [] true) (GridAvatar.new .standard 6 false [] false)
    Turn.spiral interruptedPast Turn.spiral editedSpiral ?_ ?_ ?_ _⟩
  all_goals decide +kernel

end Career

end Tandem
