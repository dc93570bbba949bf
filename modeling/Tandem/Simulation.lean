import Tandem.Pair
import Tandem.Avatar.Grid

/-!
# Simulations

A simulation runs a pair of scripts against each other on two boards. Time passes in steps of
one length. In each step both devices first take in what was sent to them, the master before
the slave, and then let the step pass. The simulation has finished when nobody runs and
nothing is on its way; it stops when its time is over.

The master asks for the run, so the slave starts in the first step.
-/

namespace Tandem

/-- What a simulation is run with. -/
structure SimulationSettings where
  mode : SyncMode
  timings : Timings
  vocabulary : Vocabulary
  gridSize : Int
  /-- The traps as the own avatar of a device sees them. -/
  traps : List GridCell
  /-- After this time the simulation stops. -/
  maxTime : Float32
  /-- The length of a step. -/
  timeStep : Float32

/-- The settings where nothing else is asked for. -/
def SimulationSettings.standard : SimulationSettings where
  mode := .stepSwitching
  timings := .standard
  vocabulary := .standard
  gridSize := Config.standardGridSize
  traps := []
  maxTime := 300
  timeStep := 0.1

/-- Why a simulation cannot be run. -/
inductive SimulationError where
  | maxTime
  | timeStep
  | timings (e : TimingError)
  | vocabulary (e : VocabularyError)
deriving DecidableEq

/-- The message that a simulation is refused with. -/
def SimulationError.message : SimulationError → String
  | maxTime => "Max time must be positive"
  | timeStep => "Time step must be positive"
  | timings e => e.message
  | vocabulary e => e.message

/-- An event with the time at which it happened. -/
structure TimedEvent where
  time : Float32
  event : RunEvent
deriving DecidableEq

/-- What a device did in a simulation. -/
structure DeviceReport where
  role : Role
  events : Array TimedEvent
  omissions : List Omission
  phase : Phase
  /-- Where the own avatar of the device is. -/
  position : GridCell
  /-- Where the rival is. -/
  rivalPosition : GridCell
  /-- The own avatar is dead. -/
  dead : Bool

namespace DeviceReport

/-- The commands that the device's own avatar understood, in order. -/
def trace (r : DeviceReport) : List String :=
  r.events.toList.filterMap fun e =>
    match e.event with
    | .dispatched command false => some command
    | _ => none

/-- The times of the ticks that the device made. -/
def tickTimes (r : DeviceReport) : List Float32 :=
  r.events.toList.filterMap fun e =>
    match e.event with
    | .tick .. => some e.time
    | _ => none

end DeviceReport

/-- What came of a simulation. -/
structure SimulationReport where
  master : DeviceReport
  slave : DeviceReport
  /-- The number of steps in which time passed. -/
  steps : Nat
  elapsed : Float32
  /-- The simulation did not stop before its end. -/
  finished : Bool

namespace Simulation

/-- The session of a device before the simulation. -/
def device (c : SimulationSettings) (role : Role) : Session GridAvatar :=
  .new c.vocabulary <|
    .new role c.mode c.timings c.vocabulary.waitCommand
      (.new c.vocabulary c.gridSize false c.traps true)
      (.new c.vocabulary c.gridSize true (c.traps.map (acrossBoard c.gridSize)) false)

/-- The pair before the simulation. -/
def pair (c : SimulationSettings) : Pair GridAvatar :=
  ⟨device c .master, device c .slave, .empty⟩

/-- A pair, with the events collected so far from each session. -/
structure Recording where
  pair : Pair GridAvatar
  masterEvents : Array TimedEvent
  slaveEvents : Array TimedEvent

namespace Recording

/-- The recording of the pair after a step of it. -/
def step (r : Recording) (f : Pair GridAvatar → Pair GridAvatar) : Recording :=
  { r with pair := f r.pair }

/-- The events that the sessions have kept are collected, as of that time. -/
def collect (r : Recording) (time : Float32) : Recording :=
  let (fromMaster, master) := r.pair.master.drain
  let (fromSlave, slave) := r.pair.slave.drain
  { pair := { r.pair with master := master, slave := slave }
    masterEvents := r.masterEvents ++ fromMaster.map (TimedEvent.mk time)
    slaveEvents := r.slaveEvents ++ fromSlave.map (TimedEvent.mk time) }

/-- The report on a session with the events collected from it. -/
def deviceReport (s : Session GridAvatar) (events : Array TimedEvent) : DeviceReport where
  role := s.role
  events := events
  omissions := s.omissions
  phase := s.exec.phase
  position := s.exec.own.position
  rivalPosition := s.exec.rival.position
  dead := s.exec.own.dead

/-- The report on the recording after so many steps. -/
def report (r : Recording) (steps : Nat) (dt : Float32) (finished : Bool) :
    SimulationReport where
  master := deviceReport r.pair.master r.masterEvents
  slave := deviceReport r.pair.slave r.slaveEvents
  steps := steps
  elapsed := Float32.ofNat steps * dt
  finished := finished

end Recording

/-- Both devices take in what was sent to them. -/
def exchange (p : Pair GridAvatar) : Pair GridAvatar :=
  (p.deliver .master).deliver .slave

/-- The length of a step passes for both devices. -/
def pass (dt : Float32) (p : Pair GridAvatar) : Pair GridAvatar :=
  (p.update .master dt).update .slave dt

/-- At most that many steps after the first `done` ones. -/
def steps (dt : Float32) : Nat → Nat → Recording → SimulationReport
  | 0, done, r => r.report done dt false
  | left + 1, done, r =>
    let r := (r.step exchange).collect (Float32.ofNat done * dt)
    if r.pair.isSettled then r.report done dt true
    else
      steps dt left (done + 1) <|
        (r.step (pass dt)).collect (Float32.ofNat (done + 1) * dt)

/-- The greatest number of steps. -/
def stepCap : Nat := 0xFFFFFFFFFFFFFFFF

/-- The number of steps that the time of the simulation has room for, but at least one. -/
def maxSteps (c : SimulationSettings) : Nat :=
  max 1 (Binary32.ceilNat stepCap (c.maxTime / c.timeStep))

/-- Both scripts are loaded. -/
def load (masterScript slaveScript : String) (p : Pair GridAvatar) : Pair GridAvatar :=
  (p.loadText .master masterScript).loadText .slave slaveScript

/-- The recording before the first step: both scripts are loaded, and the master has asked for
the run. -/
def begin (c : SimulationSettings) (masterScript slaveScript : String) : Recording :=
  let loaded :=
    ((Recording.mk (pair c) #[] #[]).step (load masterScript slaveScript)).collect 0
  (loaded.step (·.startTogether .master)).collect 0

/-- The simulation can be run. -/
def check (c : SimulationSettings) : Except SimulationError Unit :=
  if c.maxTime ≤ 0 then .error .maxTime
  else if c.timeStep ≤ 0 then .error .timeStep
  else
    match c.timings.check with
    | .error e => .error (.timings e)
    | .ok () =>
      match c.vocabulary.check with
      | .error e => .error (.vocabulary e)
      | .ok () => .ok ()

/-- The report on the run of two scripts against each other. -/
def run (masterScript slaveScript : String) (c : SimulationSettings) :
    Except SimulationError SimulationReport :=
  match check c with
  | .error e => .error e
  | .ok () => .ok (steps c.timeStep (maxSteps c) 0 (begin c masterScript slaveScript))

end Simulation

end Tandem
