import Tandem.Host
import Tandem.Run.Event
import Tandem.Text.Quoted
import Tandem.Text.Stamp

/-!
# Data logs

A data log keeps what happened for later study, one line for each entry: the time, who wrote
the entry, a tag that tells what it is about, and a message. A log is written to a sink, which
may be a file or anything else that takes texts and can fail.
-/

namespace Tandem

/-- What an entry of a data log is about. -/
inductive EntryTag where
  | coding
  | script
  | map
  | scriptError
  | scriptWarning
  | mapError
  | mapWarning
  | system
  | systemError
  | systemWarning
deriving DecidableEq, Repr

namespace EntryTag

/-- The name of a tag. -/
def name : EntryTag → String
  | coding => "CODING"
  | script => "SCRIPT"
  | map => "MAP"
  | scriptError => "SCRIPT_ERROR"
  | scriptWarning => "SCRIPT_WARNING"
  | mapError => "MAP_ERROR"
  | mapWarning => "MAP_WARNING"
  | system => "SYSTEM"
  | systemError => "SYSTEM_ERROR"
  | systemWarning => "SYSTEM_WARNING"

/-- All tags by their names. -/
def choices : List (String × EntryTag) :=
  [coding, script, map, scriptError, scriptWarning, mapError, mapWarning, system, systemError,
    systemWarning].map fun t => (t.name, t)

/-- The tag of the entry for an event. -/
def ofEvent (e : RunEvent) : EntryTag :=
  if e.level = .warn then scriptWarning else script

end EntryTag

/-- Why a data log cannot be written. -/
inductive DataLogError where
  /-- The file at the path cannot be appended to. -/
  | unavailable (path : String) (cause : FileError)
  | write (cause : FileError)
  | flush (cause : FileError)
deriving DecidableEq, Repr

/-- The message that a failure of a data log is reported with. -/
def DataLogError.message : DataLogError → String
  | unavailable path cause =>
    "Failed to open log file " ++ Text.quoted path ++ ": " ++ cause.message
  | write cause => "Failed to write log entry: " ++ cause.message
  | flush cause => "Failed to flush log: " ++ cause.message

/-- Where the entries of a data log go. -/
structure LogSink (m : Type → Type) where
  write : String → m (Except FileError Unit)
  flush : m (Except FileError Unit)

/-- A data log with the name of who writes it. -/
structure DataLog (m : Type → Type) where
  source : String
  sink : LogSink m

namespace DataLog

/-- The line of an entry. -/
def entry (time : Nat) (source : String) (tag : EntryTag) (message : String) : String :=
  Stamp.ofMilliseconds time ++ ", " ++ source ++ ", " ++ tag.name ++ ", " ++ message ++ "\n"

variable {m : Type → Type} [Monad m] [Host m]

/-- The log in the file at the path, behind what the file holds already. -/
def inFile (path source : String) : m (Except DataLogError (DataLog m)) := do
  match ← Host.openLog path with
  | .error cause => pure (.error (.unavailable path cause))
  | .ok () => pure (.ok ⟨source, ⟨Host.appendText path, pure (.ok ())⟩⟩)

/-- Writes an entry. -/
def write (l : DataLog m) (tag : EntryTag) (message : String) : m (Except DataLogError Unit) := do
  let time ← Host.now
  match ← l.sink.write (entry time l.source tag message) with
  | .error cause => pure (.error (.write cause))
  | .ok () => pure (.ok ())

/-- The message of the entry for an event of a device. -/
def eventMessage (device : String) (e : RunEvent) : String :=
  device ++ " " ++ e.json

/-- Writes an entry for an event of a device. -/
def writeEvent (l : DataLog m) (device : String) (e : RunEvent) :
    m (Except DataLogError Unit) :=
  l.write (.ofEvent e) (eventMessage device e)

omit [Host m] in
/-- Makes sure that the entries have reached the sink. -/
def flush (l : DataLog m) : m (Except DataLogError Unit) := do
  match ← l.sink.flush with
  | .error cause => pure (.error (.flush cause))
  | .ok () => pure (.ok ())

end DataLog

end Tandem
