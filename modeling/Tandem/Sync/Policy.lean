import Tandem.Sync.Timings

/-!
# The synchronisation policy

The policy of a device is asked before each tick of a run whether the tick may go ahead, and
told of each tick that was made. It holds a lock against the other device:

* asynchronous devices have no lock, and pause between commands;
* devices that step in parallel lock after each step and release the other device at once, so
  that neither starts a step before the other has made the previous one;
* devices that take turns lock after each command, and release the other device only when they
  have the next command to make. The slave has the first turn.

Only commands that take part in the synchronisation count; others go ahead at once, except that
ticks of waiting keep their length. A device that is locked for too long releases itself. A
device whose peer has finished is never locked again.

The policy does not wait and knows no clock: time comes in as an argument.
-/

namespace Tandem

/-- What the policy knows about a tick. -/
structure TickClass where
  /-- The command takes part in the synchronisation. -/
  lock : Bool
  /-- It is a tick of waiting. -/
  wait : Bool
deriving DecidableEq, Repr

/-- Whether a tick may go ahead. -/
inductive Gate where
  /-- After this much more time. -/
  | proceed (delay : Float32)
  /-- Not before the other device releases this one. -/
  | block
deriving DecidableEq

/-- The answer to a device that asks whether it is still locked. -/
inductive BlockAnswer where
  | blocked
  | released
  /-- The lock was held for this long, which is too long, and is now open. -/
  | timedOut (held : Float32)
deriving DecidableEq

/-- The synchronisation policy of a device, with its state. -/
structure SyncPolicy where
  role : Role
  timings : Timings
  mode : SyncMode
  /-- This device waits for the other one. -/
  locked : Bool
  /-- The other device has finished its run. -/
  peerFinished : Bool
  running : Bool
  /-- For how long this device has waited. -/
  heldFor : Float32
  /-- For how long this device waits at most. -/
  timeout : Float32
  /-- This device has made its command, and has yet to release the other one. -/
  armed : Bool
deriving DecidableEq

namespace SyncPolicy

/-- The policy of a device before its first run. -/
def initial (mode : SyncMode) (role : Role) (timings : Timings) : SyncPolicy where
  role := role
  timings := timings
  mode := mode
  locked := mode = .cmdSwitching && role = .master
  peerFinished := false
  running := false
  heldFor := 0
  timeout := timings.timeout mode
  armed := false

/-- The policy as it was before the first run. -/
def reset (p : SyncPolicy) : SyncPolicy :=
  initial p.mode p.role p.timings

/-- A run starts. -/
def start (p : SyncPolicy) : SyncPolicy :=
  { p.reset with running := true }

/-- The run has ended. -/
def stop (p : SyncPolicy) : SyncPolicy :=
  { p with running := false }

/-- The gate of a tick that may go ahead after a delay, which is none if it is below zero. -/
def proceedAfter (delay : Float32) : Gate :=
  .proceed (if 0 < delay then delay else 0)

/-- The delay of a tick that keeps a distance from the tick before it, made `age` ago. The
first tick of a run has none before it. -/
def remainder (spacing : Float32) : Option Float32 → Float32
  | some age => spacing - age
  | none => 0

/-- The delay of a tick that pauses after the tick before it. -/
def pause (delay : Float32) : Option Float32 → Float32
  | some _ => delay
  | none => 0

/-- Whether the next tick may go ahead, and whether the other device is to be released now.
`age` is the time since the last tick of the run, if there was one. -/
def beforeTick (p : SyncPolicy) (kind : TickClass) (age : Option Float32) :
    SyncPolicy × Gate × Bool :=
  if !kind.lock then
    (p, proceedAfter (if kind.wait then remainder p.timings.waitQuantum age else 0), false)
  else
    match p.mode with
    | .async => (p, proceedAfter (pause p.timings.commandDelay age), false)
    | .stepSwitching =>
      if p.locked then (p, .block, false)
      else (p, proceedAfter (remainder p.timings.smoothingDelay age), false)
    | .cmdSwitching =>
      if p.locked then ({ p with armed := false }, .block, p.armed)
      else (p, proceedAfter (pause p.timings.commandDelay age), false)

/-- The lock is closed. -/
def engage (p : SyncPolicy) : SyncPolicy :=
  { p with locked := true, heldFor := 0 }

/-- The lock is open: the other device has released this one, or is not waited for any more. -/
def release (p : SyncPolicy) : SyncPolicy :=
  { p with locked := false, heldFor := 0 }

/-- A tick was made. Also says whether the other device is to be released now. -/
def afterTick (p : SyncPolicy) (kind : TickClass) : SyncPolicy × Bool :=
  if !kind.lock || p.peerFinished then (p, false)
  else
    match p.mode with
    | .async => (p, false)
    | .stepSwitching => (p.engage, true)
    | .cmdSwitching => ({ p.engage with armed := true }, false)

/-- Another stretch of time has passed while this device waits for the other one. -/
def waitFor (p : SyncPolicy) (dt : Float32) : SyncPolicy × BlockAnswer :=
  if !p.locked then ({ p with heldFor := 0 }, .released)
  else
    let held := p.heldFor + dt
    if held + timeSlack ≥ p.timeout then (p.release, .timedOut held)
    else ({ p with heldFor := held }, .blocked)

/-- The other device has finished its run, so that nobody is left to release this one. -/
def afterPeerEnd (p : SyncPolicy) : SyncPolicy :=
  { p.release with peerFinished := true }

end SyncPolicy

end Tandem
