import Tandem.Run.Turn

/-!
# Executors

The operations on an executor: starting a run, letting time pass, stopping, resetting, and
taking in what comes from the other device. Each one takes the script that the host lends, and
gives back the executor, the script and what was done as a `Turn`.

A run goes on as far as it can in one operation: `Turn.advance` makes tick after tick until the
policy holds one back, the run flag is cleared or the script is at its end. An advance makes at
most as many ticks as the whole script takes, which bounds the recursion.
-/

namespace Tandem

namespace Turn

variable {α : Type} [Avatar α]

/-- The kind of a tick. -/
def tickClass (t : Turn α) (tick : Tick) : TickClass :=
  ⟨Avatar.isLock t.exec.own tick.name, tick.wait⟩

/-- The other device is released, if it is to be. -/
def sendUnlockIf (t : Turn α) (sending : Bool) : Turn α :=
  if sending then (t.send .unlock).record .unlockSent else t

/-- The tick is put before the policy. Also says whether it may be made at once. -/
def passGate (t : Turn α) (tick : Tick) : Turn α × Bool :=
  if t.exec.pending = .ready then (t, true)
  else
    let (policy, gate, sending) := t.exec.policy.beforeTick (t.tickClass tick) t.exec.age
    let t := (t.setPolicy policy).sendUnlockIf sending
    match gate with
    | .block =>
      let t := t.mapExec fun e => { e with pending := .peer, phase := .waitingForPeer }
      (t.record (.waitingForPeer tick.top), false)
    | .proceed delay =>
      if timeSlack < delay then
        (t.mapExec fun e => { e with pending := .pacing delay }, false)
      else (t, true)

omit [Avatar α] in
/-- The tick is among the deeds. -/
def noteTick (t : Turn α) (tick : Tick) (kind : TickClass) : Turn α :=
  { t with deeds := t.deeds.push (.tick tick kind t.exec.age) }

/-- The tick is shown and recorded, and its command is carried out if it is not one of waiting. -/
def carryOut (t : Turn α) (tick : Tick) (kind : TickClass) : Turn α :=
  let t := ((t.showActive tick.path).noteTick tick kind).record
    (.tick tick.top tick.name tick.wait)
  if tick.wait then t else (t.dispatch tick.name tick.args false).1

omit [Avatar α] in
/-- The policy is told of the tick, and the walk goes past it. -/
def passOver (t : Turn α) (kind : TickClass) : Turn α :=
  let (policy, sending) := t.exec.policy.afterTick kind
  ((t.setPolicy policy).sendUnlockIf sending).mapExec fun e =>
    { e with age := some 0, cursor := e.cursor.consume }

/-- The tick is made. -/
def makeTick (t : Turn α) (tick : Tick) : Turn α :=
  let kind := t.tickClass tick
  let t := t.mapExec fun e => { e with pending := .nothing }
  ((t.carryOut tick kind).passOver kind).emit (.stepShown tick.top)

omit [Avatar α] in
/-- The walk has moved up to the cursor. -/
def moveTo (t : Turn α) (cursor : Cursor) : Turn α :=
  t.mapExec fun e => { e with cursor := cursor }

/-- At most that many ticks are made, as far as the policy lets them through. -/
def advanceBy : Nat → Turn α → Turn α
  | 0, t => t
  | ticks + 1, t =>
    if !t.exec.mayRun then t.finish .interrupted
    else
      match t.exec.cursor.next? t.exec.waitRule t.script with
      | none => t.finish .completed
      | some (cursor, tick) =>
        match (t.moveTo cursor).passGate tick with
        | (t, false) => t
        | (t, true) => advanceBy ticks (t.makeTick tick)

/-- The run goes on as far as it can. -/
def advance (t : Turn α) : Turn α :=
  advanceBy (t.script.ticks t.exec.waitRule + 1) t

omit [Avatar α] in
/-- A run begins, at the top of the script. What the run before it has left behind is put back
first. -/
def begin (t : Turn α) : Turn α :=
  let t := t.nextUpdate
  let t := if t.exec.cleanupDue then t.cleanup else t
  let t := (t.mapExec Executor.started).clearRunning
  (t.emit (.runShown true)).record
    (.runStarted t.exec.policy.mode t.exec.policy.role t.script.length)

/-- A run is started from the top of the script. A run in progress goes on instead. Also says
whether a run was started. -/
def run (t : Turn α) : Turn α × Bool :=
  if t.exec.isRunning then (t.record .runRejected, false) else (t.begin.advance, true)

/-- The other device is asked to run, and a run is started. A run in progress goes on instead.
Also says whether a run was started. -/
def startTogether (t : Turn α) : Turn α × Bool :=
  if t.exec.isRunning then (t.record .runRejected, false)
  else (t.send .run).run

/-- The next tick is let through. -/
def letThrough (t : Turn α) : Turn α :=
  t.mapExec fun e => { e with pending := .ready }

/-- The run goes on after it has waited for the other device. -/
def resume (t : Turn α) : Turn α :=
  (t.mapExec fun e => { e with phase := .running }).letThrough

/-- Time passes for what the next tick waits for. Also says whether the run can go on. -/
def passTime (t : Turn α) (dt : Float32) : Turn α × Bool :=
  match t.exec.pending with
  | .pacing remaining =>
    let remaining := remaining - dt
    if timeSlack < remaining then
      (t.mapExec fun e => { e with pending := .pacing remaining }, false)
    else (t.letThrough, true)
  | .peer =>
    let (policy, answer) := t.exec.policy.waitFor dt
    let t := t.setPolicy policy
    match answer with
    | .blocked => (t, false)
    | .released => (t.resume, true)
    | .timedOut held => ((t.record (.lockTimeout held)).resume, true)
  | .nothing | .ready => (t, true)

/-- A stretch of time passes. Without a run, nothing happens. -/
def update (t : Turn α) (dt : Float32) : Turn α :=
  if !t.exec.isRunning then t
  else
    let t := t.nextUpdate
    if !t.exec.mayRun then t.finish .interrupted
    else
      let t := t.mapExec fun e => { e with age := e.age.map (· + dt) }
      match t.passTime dt with
      | (t, true) => t.advance
      | (t, false) => t

omit [Avatar α] in
/-- The other device has released this one. -/
def afterRelease (t : Turn α) : Turn α :=
  let t := t.record .unlockReceived
  t.setPolicy t.exec.policy.release

omit [Avatar α] in
/-- The other device has finished. A run that has ended before is cleaned up now. -/
def afterPeerEnd (t : Turn α) : Turn α :=
  let t := t.record .peerFinished
  let t := t.setPolicy t.exec.policy.afterPeerEnd
  if t.exec.cleanupDue then t.cleanup else t

omit [Avatar α] in
/-- The run is stopped. Without a run, nothing happens. -/
def interrupt (t : Turn α) : Turn α :=
  if t.exec.isRunning then t.finish .interrupted else t

omit [Avatar α] in
/-- Any run is given up, and the other device is not told. -/
def abandon (t : Turn α) : Turn α :=
  ((t.mapExec fun e => { e with mayRun := false }).record .reset).cleanup

end Turn

namespace Executor

variable {α : Type}

/-- The executor at work on a script. -/
def on (e : Executor α) (s : Script) : Turn α :=
  ⟨e, s, #[]⟩

/-- Somebody stops the run at the next tick. -/
def clearFlag (e : Executor α) : Executor α :=
  { e with mayRun := false }

/-- The events kept, and the executor without them. -/
def drain (e : Executor α) : List RunEvent × Executor α :=
  let (events, log) := e.log.drain
  (events, { e with log := log })

end Executor

end Tandem
