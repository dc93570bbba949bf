import Tandem.CommandLine.Request
import Tandem.Config.Reading
import Tandem.DataLog
import Tandem.Script.Reading
import Tandem.Script.Writing
import Tandem.Simulation
import Tandem.Text.Quoted

/-!
# The command line

The program answers a command line with two texts, one for what was asked for and one for
what went wrong, and a code: zero when all went well, one when the request failed, two when
the command line was refused.

A check shows a script as it was read, and the lines left out. A simulation takes its scripts
from two files or from a stage of a configuration, shows what each device did, and appends its
events to a data log if one is named.
-/

namespace Tandem

/-- The answer to a command line. -/
structure Outcome where
  code : UInt32
  /-- What was asked for. -/
  out : String
  /-- What went wrong. -/
  err : String
deriving DecidableEq, Repr

/-- Why a request failed. -/
inductive RequestError where
  | scriptNotFound (path : String)
  | scriptUnreadable (path : String) (cause : FileError)
  | config (e : Config.LoadError)
  | configFault (e : ConfigFault)
  | stageNotFound (stage path : String)
  | noScripts
  | simulation (e : SimulationError)
  | log (e : DataLogError)
deriving DecidableEq

/-- The message that a failed request is reported with. -/
def RequestError.message : RequestError → String
  | scriptNotFound path => "Script file not found: " ++ Text.quoted path
  | scriptUnreadable path cause =>
    "Failed to read script " ++ Text.quoted path ++ ": " ++ cause.message
  | config e => e.message
  | configFault e => e.message
  | stageNotFound stage path =>
    "Stage " ++ Text.quoted stage ++ " not found in " ++ Text.quoted path
  | noScripts => "Pass either --master and --slave, or --config and --stage"
  | simulation e => e.message
  | log e => e.message

namespace Outcome

/-- All went well. -/
def done (out : String) : Outcome := ⟨0, out, ""⟩

/-- The request failed after that much of the answer. -/
def failed (out : String) (e : RequestError) : Outcome :=
  ⟨1, out, "Error: " ++ e.message ++ "\n"⟩

/-- The command line was refused. -/
def refused (e : UsageError) : Outcome :=
  ⟨2, "", "error: " ++ e.message ++ "\n\nFor more information, try '--help'.\n"⟩

end Outcome

namespace CommandLine

/-- The program with its version. -/
def versionText : String := "ogmented 0.1.0\n"

/-- How the program is used. -/
def usageText : String :=
  "Usage: ogmented <COMMAND>\n\n" ++
  "Commands:\n" ++
  "  check     Parse a script and report lines that would be dropped\n" ++
  "  simulate  Run a master and a slave script against each other headlessly\n" ++
  "  help      Print this message or the help of the given subcommand(s)\n\n" ++
  "Options:\n" ++
  "  -h, --help     Print help\n" ++
  "  -V, --version  Print version\n"

/-! ## Checking a script -/

/-- The report on a script text. -/
def checkText (read : ScriptText) : String :=
  String.ofList (Text.trimEnd (read.script.text .labelled).toList) ++ "\n" ++
    if read.omissions.isEmpty then
      "OK: " ++ read.script.length.repr ++ " top-level commands, no skipped lines\n"
    else
      read.omissions.length.repr ++ " skipped line(s):\n" ++
        String.join (read.omissions.map fun line => "  " ++ line.shown ++ "\n")

/-! ## Simulating a pair -/

/-- A cell as reports show it. -/
def cellText (c : GridCell) : String :=
  "(" ++ toString c.1 ++ ", " ++ toString c.2 ++ ")"

/-- The number, with blanks in front to a width of three. -/
def numberText (n : Nat) : String :=
  String.ofList (List.replicate (3 - n.repr.length) ' ') ++ n.repr

/-- The numbered lines of the commands, the first one having that number. -/
def traceText : Nat → List String → String
  | _, [] => ""
  | n, command :: commands =>
    "  " ++ numberText n ++ ". " ++ command ++ "\n" ++ traceText (n + 1) commands

/-- What a device did. -/
def deviceText (r : DeviceReport) : String :=
  "[" ++ r.role.name ++ "] " ++ r.phase.name ++ "\n" ++
    String.join (r.omissions.map fun line => "  skipped " ++ line.shown ++ "\n") ++
    traceText 1 r.trace ++
    "  local at " ++ cellText r.position ++ (if r.dead then " (dead)" else "") ++
    ", rival at " ++ cellText r.rivalPosition ++ "\n"

/-- The report on a simulation. -/
def simulationText (mode : SyncMode) (r : SimulationReport) : String :=
  mode.name ++ " mode: " ++ (if r.finished then "finished" else "stopped") ++ " after " ++
    Layout.twoPlaces r.elapsed ++ " (" ++ r.steps.repr ++ " steps)\n" ++
    deviceText r.master ++ deviceText r.slave

/-- The entries of a data log for what a device did. -/
def deviceEntries (r : DeviceReport) : List (EntryTag × String) :=
  r.omissions.map (fun line => (.scriptWarning, r.role.name ++ " " ++ line.shown)) ++
    r.events.toList.map fun e =>
      (.ofEvent e.event, DataLog.eventMessage r.role.name e.event)

/-- The entries of a data log for a simulation. -/
def simulationEntries (mode : SyncMode) (r : SimulationReport) : List (EntryTag × String) :=
  (.system, "Simulation in " ++ mode.name ++ " mode") ::
    (deviceEntries r.master ++ deviceEntries r.slave)

/-- Two scripts to simulate, and the settings that go with them. -/
structure Scenario where
  master : String
  slave : String
  settings : SimulationSettings

/-- The settings that a configuration gives for one of its stages. -/
def settingsOf (c : Config) (s : Stage) : SimulationSettings :=
  { SimulationSettings.standard with
    mode := c.mode
    timings := c.timings
    vocabulary := c.vocabulary
    gridSize := c.gridSize
    traps := s.traps }

/-- The settings with those that the request itself gives. -/
def settingsFor (r : SimulationRequest) (c : SimulationSettings) : SimulationSettings :=
  { c with mode := r.mode.getD c.mode, timeStep := r.timeStep, maxTime := r.maxTime }

variable {m : Type → Type} [Monad m] [Host m]

/-- Checks the script in the file at the path. -/
def check (path : String) : m Outcome := do
  match ← Host.readText path with
  | .error _ => pure (.failed "" (.scriptNotFound path))
  | .ok text => pure (.done (checkText (Script.ofText .standard text)))

/-- The script in the file at the path. -/
def readScript (path : String) : m (Except RequestError String) := do
  match ← Host.readText path with
  | .error cause => pure (.error (.scriptUnreadable path cause))
  | .ok text => pure (.ok text)

/-- The script of the stage for the role, which is empty if the stage has none. -/
def readStageScript (c : Config) (s : Stage) (role : Role) :
    m (Except RequestError String) :=
  match s.scriptFor role with
  | some path => readScript (c.resolve path)
  | none => pure (.ok "")

/-- The scenario of two scripts, the master's being read first. -/
def scenarioOf (master slave : m (Except RequestError String)) (settings : SimulationSettings) :
    m (Except RequestError Scenario) := do
  match ← master with
  | .error e => pure (.error e)
  | .ok masterScript =>
    match ← slave with
    | .error e => pure (.error e)
    | .ok slaveScript => pure (.ok ⟨masterScript, slaveScript, settings⟩)

/-- The scenario that a stage of the configuration in the file sets. -/
def stageScenario (path stage : String) : m (Except RequestError Scenario) := do
  match ← Config.load path with
  | .error e => pure (.error (.config e))
  | .ok c =>
    match c.check with
    | .error e => pure (.error (.configFault e))
    | .ok () =>
      match c.stage? stage with
      | none => pure (.error (.stageNotFound stage path))
      | some s =>
        scenarioOf (readStageScript c s .master) (readStageScript c s .slave) (settingsOf c s)

/-- The scenario that the request asks for. -/
def scenario (r : SimulationRequest) : m (Except RequestError Scenario) :=
  match r.master, r.slave, r.config, r.stage with
  | some master, some slave, none, _ =>
    scenarioOf (readScript master) (readScript slave) .standard
  | none, none, some config, some stage => stageScenario config stage
  | _, _, _, _ => pure (.error .noScripts)

/-- Writes the entries, as far as the log takes them. -/
def writeEntries (l : DataLog m) : List (EntryTag × String) → m (Except DataLogError Unit)
  | [] => l.flush
  | (tag, message) :: entries => do
    match ← l.write tag message with
    | .error e => pure (.error e)
    | .ok () => writeEntries l entries

/-- Appends the entries to the data log in the file at the path. -/
def appendEntries (path : String) (entries : List (EntryTag × String)) :
    m (Except DataLogError Unit) := do
  match ← DataLog.inFile path "simulate" with
  | .error e => pure (.error e)
  | .ok l => writeEntries l entries

/-- Simulates the pair that the request is about. -/
def simulate (r : SimulationRequest) : m Outcome := do
  match ← scenario r with
  | .error e => pure (.failed "" e)
  | .ok t =>
    let settings := settingsFor r t.settings
    match Simulation.run t.master t.slave settings with
    | .error e => pure (.failed "" (.simulation e))
    | .ok report =>
      let out := simulationText settings.mode report
      match r.log with
      | none => pure (.done out)
      | some path =>
        match ← appendEntries path (simulationEntries settings.mode report) with
        | .error e => pure (.failed out (.log e))
        | .ok () => pure (.done (out ++ "Event log appended to " ++ Text.quoted path ++ "\n"))

/-- Answers the request. -/
def answer : Request → m Outcome
  | .version => pure (.done versionText)
  | .usage => pure (.done usageText)
  | .check script => check script
  | .simulate r => simulate r

/-- Answers the command line. -/
def run (words : List String) : m Outcome :=
  match Request.ofWords words with
  | .error e => pure (.refused e)
  | .ok r => answer r

end CommandLine

end Tandem
