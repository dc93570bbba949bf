import Tandem.Simulation
import Mathlib.Logic.Function.Basic

/-!
# Duets

A duet is two sessions, the messages on their way to each of them, and the history of what both
have done. It moves when time passes for a session, when a message is delivered or lost, and when
somebody stops a run : `Duet.move`. A channel that delivers messages in order, and all of them,
is one whose moves are `Duet.Move.inOrder`.

Every move of a session is one of the operations of `Tandem.Session` : `Session.after_updating`
and its neighbours.
-/

namespace Tandem

/-! ## What sessions do -/

namespace Session

variable {α : Type}

/-- Nothing is done. -/
theorem after_lend (s : Session α) : s.after s.lend = s.still := by
  obtain ⟨vocabulary, ⟨working, reference, editing⟩, exec, stage, omissions⟩ := s
  cases working <;> rfl

/-- The work of the executor of a loaded session goes on where it was left. -/
theorem lend_after {s : Session α} (hs : s.store.isLoaded = true) (t : Turn α) :
    (s.after t).session.lend = t.exec.on t.script := by
  obtain ⟨script, hw⟩ := Option.isSome_iff_exists.mp hs
  rw [lend, after]
  simp [ScriptStore.update, hw]

theorem isLoaded_after (s : Session α) (t : Turn α) :
    (s.after t).session.store.isLoaded = s.store.isLoaded :=
  Option.isSome_map

variable [Avatar α]

/-- The executor's work while a stretch of time passes. -/
def updating (s : Session α) (dt : Float32) : Turn α :=
  if s.store.isLoaded then s.lend.update dt else s.lend

/-- An update of a session is the turn of its executor. -/
theorem after_updating (s : Session α) (dt : Float32) : s.after (s.updating dt) = s.update dt := by
  unfold updating update
  split
  · rfl
  · exact s.after_lend

/-- The executor's work on a message of the other device. -/
def receiving (s : Session α) : Message → Turn α
  | .command name args => (s.lend.dispatch name args true).1
  | .unlock => s.lend.afterRelease
  | .finish => s.lend.afterPeerEnd
  | .run => if s.store.isLoaded then s.lend.run.1 else s.lend

theorem after_receiving (s : Session α) (m : Message) :
    s.after (s.receiving m) = s.receive m := by
  cases m with
  | run =>
    unfold receiving receive
    dsimp only
    split
    · rfl
    · exact s.after_lend
  | command | unlock | finish => rfl

/-- The executor's work when a run of both devices is asked for. -/
def asking (s : Session α) : Turn α :=
  if s.store.isLoaded then s.lend.startTogether.1 else s.lend

theorem after_asking (s : Session α) : s.after s.asking = s.startTogether.1 := by
  unfold asking startTogether
  split
  · rfl
  · exact s.after_lend

end Session

/-! ## Duets and their moves -/

/-- Two sessions, the messages on their way to each, and what both have done so far, in order. -/
structure Duet (α : Type) where
  session : Role → Session α
  inbox : Role → List Message
  history : List (Role × Deed)

namespace Duet

/-- What may happen to a duet. -/
inductive Move where
  /-- A stretch of time passes for the session of that role. -/
  | update (r : Role) (dt : Float32)
  /-- The message at that place of the inbox is delivered. -/
  | deliver (r : Role) (place : Nat)
  /-- The message at that place of the inbox is lost. -/
  | lose (r : Role) (place : Nat)
  | interrupt (r : Role)
  | clearFlag (r : Role)

/-- The move neither loses a message nor delivers one before another that was sent earlier. -/
def Move.inOrder : Move → Prop
  | deliver _ place => place = 0
  | lose _ _ => False
  | _ => True

variable {α : Type}

/-- The session of that role has done the work. -/
def after (d : Duet α) (r : Role) (t : Turn α) : Duet α where
  session := Function.update d.session r ((d.session r).after t).session
  inbox := Function.update d.inbox r.peer (d.inbox r.peer ++ ((d.session r).after t).messages)
  history := d.history ++ t.deeds.toList.map fun deed => (r, deed)

/-- The message at that place of the inbox is on its way no more. -/
def take (d : Duet α) (r : Role) (place : Nat) : Duet α :=
  { d with inbox := Function.update d.inbox r ((d.inbox r).eraseIdx place) }

variable [Avatar α]

/-- The duet after a move. -/
def move (d : Duet α) : Move → Duet α
  | .update r dt => d.after r ((d.session r).updating dt)
  | .deliver r place =>
    match (d.inbox r)[place]? with
    | some m => (d.take r place).after r ((d.session r).receiving m)
    | none => d
  | .lose r place => d.take r place
  | .interrupt r => d.after r (d.session r).lend.interrupt
  | .clearFlag r => d.after r ((d.session r).lend.mapExec Executor.clearFlag)

/-- The session of that role asks for a run of both. -/
def ask (d : Duet α) (r : Role) : Duet α :=
  d.after r (d.session r).asking

/-- The duet after moves. -/
def moves (d : Duet α) (ms : List Move) : Duet α :=
  ms.foldl move d

omit [Avatar α] in
/-- Both sessions are loaded and idle, a master and a slave of the same mode, and nothing has been
sent or done. -/
structure Ready (mode : SyncMode) (d : Duet α) : Prop where
  loaded : ∀ r, (d.session r).store.isLoaded = true
  idle : ∀ r, (d.session r).isIdle = true
  role : ∀ r, (d.session r).role = r
  mode : ∀ r, (d.session r).exec.policy.mode = mode
  quiet : ∀ r, d.inbox r = []
  fresh : d.history = []

/-- Two devices on boards of their own, before a simulation of that mode. -/
def onGrid (mode : SyncMode) (script : Role → Script) : Duet GridAvatar where
  session r :=
    { Simulation.device { SimulationSettings.standard with mode := mode } r with
      store := .load .empty (script r) }
  inbox _ := []
  history := []

/-- Two new devices with grid avatars are ready, whatever they are to run. -/
theorem ready_onGrid (mode : SyncMode) (script : Role → Script) :
    (onGrid mode script).Ready mode where
  loaded _ := rfl
  idle _ := rfl
  role _ := rfl
  mode _ := rfl
  quiet _ := rfl
  fresh := rfl

end Duet

end Tandem
