import Tandem.Run.Event
import Tandem.Run.Window
import Tandem.Decimal.Basic

/-!
# The event log

The log of a device keeps the last events until they are taken, and writes each one out as a
line. Only the first lines of an update are written, and then a warning, so that a run with
many events in one update does not flood the log. Keeping and writing do not depend on each
other.
-/

namespace Tandem

/-- A line that is written out. -/
structure LogLine where
  level : Level
  text : String
deriving DecidableEq, Repr

/-- The log of a device. -/
structure EventLog where
  /-- Whose log it is. -/
  source : String
  events : Window RunEvent
  /-- How many events came in this update. -/
  counted : UInt32
  /-- The warning was written in this update. -/
  warned : Bool

namespace EventLog

/-- How many events are kept. -/
def eventCap : Nat := 4096

/-- How many lines are written in an update. -/
def lineCap : UInt32 := 100

/-- A log without events. -/
def new (source : String) : EventLog :=
  ⟨source, .empty, 0, false⟩

/-- A new update begins. -/
def nextUpdate (l : EventLog) : EventLog :=
  { l with counted := 0, warned := false }

/-- A line in the log of the source. -/
def line (l : EventLog) (level : Level) (text : String) : LogLine :=
  ⟨level, "[" ++ l.source ++ "] " ++ text⟩

/-- The warning that no more lines are written in this update. -/
def limitText : String :=
  "Run log limit exceeded (" ++ countText lineCap ++
    " messages/update). Further logs dropped."

/-- The log with another event, and the lines that are written for it. -/
def record (l : EventLog) (e : RunEvent) : EventLog × List LogLine :=
  let kept := { l with counted := l.counted + 1, events := l.events.push eventCap e }
  if l.counted + 1 ≤ lineCap then (kept, [l.line e.level e.sentence])
  else if l.warned then (kept, [])
  else ({ kept with warned := true }, [l.line .warn limitText])

/-- The events kept, and the log without them. -/
def drain (l : EventLog) : List RunEvent × EventLog :=
  (l.events.toList, { l with events := .empty })

end EventLog

end Tandem
