import Tandem.Sync
import Tandem.Decimal.Layout

/-!
# Timings

The times that govern a run, in the unit of the time that passes between updates: pauses
between commands, the length of a tick of waiting, and how long a device waits for the other
one before it goes on by itself.
-/

namespace Tandem

/-- The times that govern a run. -/
structure Timings where
  /-- The pause between commands where the devices do not step in parallel. -/
  commandDelay : Float32
  /-- The least time between commands while the devices step in parallel. -/
  smoothingDelay : Float32
  /-- The length of a tick of waiting. -/
  waitQuantum : Float32
  /-- How long a step waits for the other device. -/
  stepTimeout : Float32
  /-- How long a turn waits for the other device. -/
  commandTimeout : Float32
deriving DecidableEq

/-- A time that is out of range. -/
structure TimingError where
  name : String
  value : Float32
deriving DecidableEq

/-- The message that a time out of range is reported with. -/
def TimingError.message (e : TimingError) : String :=
  e.name ++ " must be positive, got " ++ Layout.message e.value

namespace Timings

/-- The timings where nothing else is asked for. -/
def standard : Timings := ⟨0.5, 0.5, 0.5, 3, 100⟩

/-- The value is a finite time that is not below zero. -/
def isPause (x : Float32) : Bool :=
  x.isFinite && !(x < 0)

/-- The value is a finite time above zero. -/
def isSpan (x : Float32) : Bool :=
  isPause x && !(x == 0)

/-- The timings can be used: pauses are not below zero, and the other times are above it. -/
def check (t : Timings) : Except TimingError Unit :=
  if !isPause t.commandDelay then .error ⟨"commandDelay", t.commandDelay⟩
  else if !isPause t.smoothingDelay then .error ⟨"smoothingDelay", t.smoothingDelay⟩
  else if !isSpan t.waitQuantum then .error ⟨"waitQuantum", t.waitQuantum⟩
  else if !isSpan t.stepTimeout then .error ⟨"stepTimeout", t.stepTimeout⟩
  else if !isSpan t.commandTimeout then .error ⟨"commandTimeout", t.commandTimeout⟩
  else .ok ()

/-- Into how many ticks a second of waiting is cut: as many as the quantum fits into it, to the
nearest whole number, but at least one. -/
def ticksPerSecond (t : Timings) : UInt32 :=
  UInt32.ofNat (max 1 (Binary32.roundNat Binary32.wordCap (1 / t.waitQuantum)))

/-- How long a device waits for the other one in a mode. -/
def timeout (t : Timings) : SyncMode → Float32
  | .async => Binary32.infinity
  | .stepSwitching => t.stepTimeout
  | .cmdSwitching => t.commandTimeout

end Timings

/-- Accumulated times are compared with this much slack, to make up for rounding. -/
def timeSlack : Float32 := 1e-4

end Tandem
