import Tandem.Config
import Tandem.Host
import Tandem.Json.Reader
import Tandem.Json.Record
import Tandem.Text.Quoted

/-!
# Reading configurations

A configuration is a JSON record. Everything but the names of stages has a default, so that a
short file lists the stages and no more. A vocabulary, where one is given, must name its
commands with their kinds, and the command that waits.
-/

namespace Tandem

/-- The timings in a JSON value. -/
def Timings.ofJson? (j : Json) : Option Timings := do
  match ← Json.record?
    ["commandDelay", "smoothingDelay", "waitQuantum", "stepTimeout", "commandTimeout"] j with
  | [delay, smoothing, quantum, step, command] =>
    let s := standard
    pure {
      commandDelay := ← Json.orDefault? Json.float32? s.commandDelay delay
      smoothingDelay := ← Json.orDefault? Json.float32? s.smoothingDelay smoothing
      waitQuantum := ← Json.orDefault? Json.float32? s.waitQuantum quantum
      stepTimeout := ← Json.orDefault? Json.float32? s.stepTimeout step
      commandTimeout := ← Json.orDefault? Json.float32? s.commandTimeout command }
  | _ => none

/-- The declaration of a command in a JSON value. -/
def Declaration.ofJson? (j : Json) : Option Declaration := do
  match ← Json.record? ["name", "arg", "lock", "static"] j with
  | [name, arg, lock, isStatic] =>
    pure {
      name := ← Json.required? Json.string? name
      arg := ← Json.required? (Json.choice? ArgKind.choices) arg
      lock := ← Json.orDefault? Json.bool? false lock
      isStatic := ← Json.orDefault? Json.bool? false isStatic }
  | _ => none

/-- The vocabulary in a JSON value. -/
def Vocabulary.ofJson? (j : Json) : Option Vocabulary := do
  match ← Json.record? ["commands", "waitCommand"] j with
  | [commands, wait] =>
    pure {
      commands := ← Json.required? (Json.list? Declaration.ofJson?) commands
      waitCommand := ← Json.required? Json.string? wait }
  | _ => none

/-- The two whole numbers of a cell in a JSON value. -/
def cellOfJson? : Json → Option (Int × Int)
  | .array [x, z] => do pure (← Json.int32? x, ← Json.int32? z)
  | _ => none

/-- The stage in a JSON value. -/
def Stage.ofJson? (j : Json) : Option Stage := do
  match ← Json.record?
    ["name", "problem", "map", "masterScript", "slaveScript", "arrowKeys", "developerPanel",
      "traps"] j with
  | [name, problem, map, master, slave, arrowKeys, developerPanel, traps] =>
    pure {
      name := ← Json.required? Json.string? name
      problem := ← Json.orDefault? Json.string? "" problem
      map := ← Json.orDefault? Json.string? "" map
      masterScript := ← Json.orDefault? (Json.optional? Json.string?) none master
      slaveScript := ← Json.orDefault? (Json.optional? Json.string?) none slave
      arrowKeys := ← Json.orDefault? Json.bool? false arrowKeys
      developerPanel := ← Json.orDefault? Json.bool? false developerPanel
      traps := ← Json.orDefault? (Json.list? cellOfJson?) [] traps }
  | _ => none

namespace Config

/-- The configuration in a JSON value, for a file in that directory. -/
def ofJson? (baseDir : String) (j : Json) : Option Config := do
  match ← Json.record? ["role", "mode", "timings", "vocabulary", "gridSize", "stages"] j with
  | [role, mode, timings, vocabulary, gridSize, stages] =>
    pure {
      role := ← Json.orDefault? (Json.choice? Role.choices) .master role
      mode := ← Json.orDefault? (Json.choice? SyncMode.choices) .stepSwitching mode
      timings := ← Json.orDefault? Timings.ofJson? .standard timings
      vocabulary := ← Json.orDefault? Vocabulary.ofJson? .standard vocabulary
      gridSize := ← Json.orDefault? Json.int32? standardGridSize gridSize
      stages := ← Json.orDefault? (Json.list? Stage.ofJson?) [] stages
      baseDir := baseDir }
  | _ => none

/-- Why there is no configuration to be had from a file. -/
inductive LoadError where
  | unreadable (path : String) (cause : FileError)
  | malformed (path : String)
deriving DecidableEq, Repr

/-- The message that a file without a configuration is reported with. -/
def LoadError.message : LoadError → String
  | unreadable path cause =>
    "Failed to read config file " ++ Text.quoted path ++ ": " ++ cause.message
  | malformed path => "Failed to parse config file " ++ Text.quoted path

/-- The configuration in the file at the path. -/
def load {m : Type → Type} [Monad m] [Host m] (path : String) :
    m (Except LoadError Config) := do
  match ← Host.readText path with
  | .error cause => pure (.error (.unreadable path cause))
  | .ok text =>
    match (Json.read? text).bind (ofJson? (FilePath.parent path)) with
    | none => pure (.error (.malformed path))
    | some c => pure (.ok c)

end Config

end Tandem
