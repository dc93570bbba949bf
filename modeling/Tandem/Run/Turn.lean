import Tandem.Avatar
import Tandem.Run.EventLog
import Tandem.Run.Walk
import Tandem.Sync.Policy
import Tandem.Wire

/-!
# Turns of an executor

An executor is the state of a device's run: the phase it is in, the synchronisation policy,
the cursor in the script, what it waits for, its two avatars and its log. It does not own the
script, which its host lends it, and it does not reach the world: whatever it does there comes
out as effects, in order.

A `Turn` is an executor at work, with the script lent to it and its deeds so far: the ticks it
has made, the events it has recorded and the effects. This module holds the small steps that
turns are made of; the operations on executors are in `Tandem.Run.Executor`.
-/

namespace Tandem

/-- What an executor does at present. -/
inductive Phase where
  | idle
  | running
  /-- In a run, and locked. -/
  | waitingForPeer
  /-- The script is done, but the other device has not finished. -/
  | completed
  /-- The run was stopped, but the other device has not finished. -/
  | interrupted
deriving DecidableEq, Repr

/-- The name of a phase. -/
def Phase.name : Phase → String
  | idle => "Idle"
  | running => "Running"
  | waitingForPeer => "WaitingForPeer"
  | completed => "Completed"
  | interrupted => "Interrupted"

/-- What the next tick waits for. -/
inductive Pending where
  | nothing
  /-- For this much more time. -/
  | pacing (remaining : Float32)
  /-- For the other device. -/
  | peer
  /-- For nothing any more: the tick was let through. -/
  | ready
deriving DecidableEq

/-- The state of a device's run. -/
structure Executor (α : Type) where
  phase : Phase
  policy : SyncPolicy
  /-- The command that waits. -/
  waitCommand : String
  cursor : Cursor
  pending : Pending
  /-- The time since the last tick of the run, if there was one. -/
  age : Option Float32
  /-- The top-level command that is shown as running. -/
  shownTop : Option Nat
  /-- The command inside a loop that is shown as running. -/
  shownChild : Option Path
  /-- The run is over, but not cleaned up. -/
  cleanupDue : Bool
  /-- The run may go on. Anybody may clear the flag to stop the run. -/
  mayRun : Bool
  /-- The avatar of this device. -/
  own : α
  /-- The avatar that replays the other device's commands. -/
  rival : α
  log : EventLog

/-- What an executor does to the world. -/
inductive Effect where
  /-- A command was handed to an avatar, the rival if `remote` is set. -/
  | performed (remote : Bool) (name : String) (args : List String) (understood : Bool)
  /-- A message is sent to the other device. -/
  | sent (m : Message)
  /-- The top-level command of that index is shown as the one being run. -/
  | stepShown (index : Nat)
  /-- It is shown whether there is a run. -/
  | runShown (running : Bool)
  /-- A line is written. -/
  | logged (line : LogLine)
deriving DecidableEq

/-- The message that the effect sends, if it sends one. -/
def Effect.message? : Effect → Option Message
  | sent m => some m
  | _ => none

/-- Something that an executor does. -/
inductive Deed where
  /-- A tick of that class is made, so long after the last one of the run, if there was one. -/
  | tick (t : Tick) (kind : TickClass) (age : Option Float32)
  /-- An event is recorded. -/
  | event (e : RunEvent)
  | effect (e : Effect)
deriving DecidableEq

/-- The effect that the deed is, if it is one. -/
def Deed.effect? : Deed → Option Effect
  | effect e => some e
  | _ => none

namespace Executor

variable {α : Type}

/-- The executor of a device before its first run. -/
def new (role : Role) (mode : SyncMode) (timings : Timings) (waitCommand : String)
    (own rival : α) : Executor α where
  phase := .idle
  policy := .initial mode role timings
  waitCommand := waitCommand
  cursor := .start
  pending := .nothing
  age := none
  shownTop := none
  shownChild := none
  cleanupDue := false
  mayRun := false
  own := own
  rival := rival
  log := .new role.name

/-- A run is in progress. -/
def isRunning (e : Executor α) : Bool :=
  e.phase = .running || e.phase = .waitingForPeer

/-- How waiting is cut into ticks. -/
def waitRule (e : Executor α) : WaitRule :=
  ⟨e.waitCommand, e.policy.timings.ticksPerSecond⟩

/-- A run is started, at the top of the script. -/
def started (e : Executor α) : Executor α :=
  { e with
    policy := e.policy.start
    cursor := .start
    pending := .nothing
    age := none
    phase := .running
    mayRun := true }

/-- The run is over. -/
def stopped (e : Executor α) (outcome : Phase) : Executor α :=
  { e with
    mayRun := false
    pending := .nothing
    policy := e.policy.stop
    phase := outcome }

/-- Everything that a run has left behind is put back. -/
def cleaned (e : Executor α) : Executor α :=
  { e with
    cursor := .start
    pending := .nothing
    age := none
    cleanupDue := false
    policy := e.policy.reset
    phase := .idle }

end Executor

/-- An executor at work: with the script lent to it, and what it has done so far, in order. -/
structure Turn (α : Type) where
  exec : Executor α
  script : Script
  deeds : Array Deed

namespace Turn

variable {α : Type}

/-- The effects so far. -/
def effects (t : Turn α) : Array Effect :=
  t.deeds.filterMap Deed.effect?

/-- The executor is changed. -/
def mapExec (t : Turn α) (f : Executor α → Executor α) : Turn α :=
  { t with exec := f t.exec }

/-- The turn with another effect. -/
def emit (t : Turn α) (e : Effect) : Turn α :=
  { t with deeds := t.deeds.push (.effect e) }

/-- A message is sent. -/
def send (t : Turn α) (m : Message) : Turn α :=
  t.emit (.sent m)

/-- An event is recorded, and written out as far as the log does. -/
def record (t : Turn α) (e : RunEvent) : Turn α :=
  let r := t.exec.log.record e
  { t with
    exec := { t.exec with log := r.1 }
    deeds := r.2.foldl (fun ds line => ds.push (.effect (.logged line)))
      (t.deeds.push (.event e)) }

/-- The log begins another update. -/
def nextUpdate (t : Turn α) : Turn α :=
  t.mapExec fun e => { e with log := e.log.nextUpdate }

/-- The policy is replaced by what it has become. -/
def setPolicy (t : Turn α) (p : SyncPolicy) : Turn α :=
  t.mapExec fun e => { e with policy := p }

/-! ## Showing what runs -/

/-- The running flag of the command at the path, if one is given, is set or cleared. -/
def showRunning (t : Turn α) (path : Option Path) (value : Bool) : Turn α :=
  match path with
  | some path => { t with script := t.script.setRunning path value }
  | none => t

/-- No command has its running flag set. -/
def clearRunning (t : Turn α) : Turn α :=
  { t with script := t.script.clearRunning }

/-- No command is shown as running inside a loop. -/
def hideChild (t : Turn α) : Turn α :=
  (t.showRunning t.exec.shownChild false).mapExec fun e => { e with shownChild := none }

/-- No command is shown as running. -/
def hideActive (t : Turn α) : Turn α :=
  let t := t.hideChild
  (t.showRunning (t.exec.shownTop.map fun top => [top]) false).mapExec fun e =>
    { e with shownTop := none }

/-- The top-level command is shown as running, instead of any other. -/
def showTop (t : Turn α) (top : Nat) : Turn α :=
  if t.exec.shownTop = some top then t
  else (t.hideActive.showRunning (some [top]) true).mapExec fun e => { e with shownTop := some top }

/-- The command inside a loop is shown as running, if one is given, instead of any other. -/
def showChild (t : Turn α) (child : Option Path) : Turn α :=
  if t.exec.shownChild = child then t
  else (t.hideChild.showRunning child true).mapExec fun e => { e with shownChild := child }

/-- The command at the path is shown as running: the top-level command that it belongs to, and
the command itself if it lies inside a loop. -/
def showActive (t : Turn α) (path : Path) : Turn α :=
  (t.showTop (path.head?.getD 0)).showChild (if 1 < path.length then some path else none)

/-! ## The end of a run -/

/-- Everything that the run has left behind is put back as it was before. -/
def cleanup (t : Turn α) : Turn α :=
  let t := (t.hideActive.mapExec Executor.cleaned).clearRunning
  (t.emit (.runShown false)).record .cleanup

/-- The event that tells how a run has ended. -/
def endEvent (outcome : Phase) : RunEvent :=
  if outcome = .completed then .completed else .interrupted

/-- The run ends. What it has left behind stays until the other device has finished too. -/
def finish (t : Turn α) (outcome : Phase) : Turn α :=
  let t := t.hideActive.mapExec (·.stopped outcome)
  let t := ((t.record (endEvent outcome)).send .finish).record .finishSent
  if t.exec.policy.peerFinished then t.cleanup
  else (t.mapExec fun e => { e with cleanupDue := true }).record .cleanupDeferred

/-! ## Commands -/

variable [Avatar α]

/-- The command is handed to the avatar of this device. -/
def performOwn (t : Turn α) (name : String) (args : List String) : Turn α × Bool :=
  let r := Avatar.perform t.exec.own name args
  let t := t.mapExec fun e => { e with own := r.avatar, mayRun := e.mayRun && !r.stopsRun }
  (t.emit (.performed false name args r.understood), r.understood)

/-- The command is handed to the rival. -/
def performRival (t : Turn α) (name : String) (args : List String) : Turn α × Bool :=
  let r := Avatar.perform t.exec.rival name args
  let t := t.mapExec fun e => { e with rival := r.avatar, mayRun := e.mayRun && !r.stopsRun }
  (t.emit (.performed true name args r.understood), r.understood)

/-- The command is handed to the avatars it is for: both of them if it is static, else the rival
if it comes from the other device, else this device's own. -/
def perform (t : Turn α) (name : String) (args : List String) (remote : Bool) :
    Turn α × Bool :=
  if Avatar.isStatic t.exec.own name then
    let (t, own) := t.performOwn name args
    let (t, rival) := t.performRival name args
    (t, own && rival)
  else if remote then t.performRival name args
  else t.performOwn name args

/-- The command as events show it. -/
def commandText (name : String) (args : List String) : String :=
  if args.isEmpty then name else name ++ "(" ++ String.intercalate "," args ++ ")"

/-- The avatar that a command of that origin is meant for is dead. -/
def targetDead (t : Turn α) (remote : Bool) : Bool :=
  Avatar.isDead (if remote then t.exec.rival else t.exec.own)

/-- A command of this device, or of the other one if `remote` is set. A dead avatar's command is
dropped; a command of this device is sent to the other one. Also says whether the command was
understood. -/
def dispatch (t : Turn α) (name : String) (args : List String) (remote : Bool) :
    Turn α × Bool :=
  let shown := commandText name args
  if t.targetDead remote then (t.record (.deadAvatar shown remote), false)
  else
    let (t, understood) := t.perform name args remote
    let t :=
      t.record (if understood then .dispatched shown remote else .unrecognized shown remote)
    (if remote then t else t.send (.command name args), understood)

end Turn

end Tandem
