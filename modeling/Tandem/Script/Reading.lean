import Tandem.Script.Basic
import Tandem.Script.Line
import Tandem.Script.Omission

/-!
# Reading scripts

A script text is read in one pass over its lines. The reading keeps the commands of the block
it is in, and for each loop that is open the line that opened it and the commands in front of
that line. At the end of the text the loops still open are reported, the innermost first, and
what they hold is lost; the script is what was read outside of them.
-/

namespace Tandem

/-- The script that was read from a text, and the lines that were left out of it. -/
structure ScriptText where
  script : Script
  omissions : List Omission
deriving DecidableEq, Repr

/-- A loop that is open: the line that opened it, and the commands read in front of it, the
last one first. -/
structure OpenLoop where
  index : Nat
  raw : List Char
  before : List Command

/-- How far the reading of a text has come. Lists are kept with the last entry first. -/
structure Reading where
  /-- The commands of the block that is being read. -/
  commands : List Command
  /-- The open loops, the innermost first. -/
  loops : List OpenLoop
  omissions : List Omission

namespace Reading

/-- Nothing is read yet. -/
def start : Reading := ⟨[], [], []⟩

/-- The line is left out. -/
def skip (r : Reading) (index : Nat) (reason : OmissionReason) (raw : List Char) : Reading :=
  { r with omissions := .ofLine index reason raw :: r.omissions }

/-- The command is the next one of the block. -/
def push (r : Reading) (c : Command) : Reading :=
  { r with commands := c :: r.commands }

/-- A loop is opened. -/
def openLoop (r : Reading) (index : Nat) (raw : List Char) : Reading :=
  { r with commands := [], loops := ⟨index, raw, r.commands⟩ :: r.loops }

/-- The next line is read. -/
def readLine (v : Vocabulary) (r : Reading) (raw : List Char) (index : Nat) : Reading :=
  match Line.ofText raw with
  | .blank => r
  | .loopOpen => r.openLoop index raw
  | .loopClose count =>
    match r.loops with
    | [] => r.skip index .unmatchedLoopClose raw
    | inner :: outer =>
      { r with
        commands := Command.repeated count r.commands.reverse :: inner.before
        loops := outer }
  | .command name args =>
    match v.find? name with
    | none => r.skip index .unknownCommand raw
    | some spec =>
      if spec.arg.accepts args then r.push (.ofName name args)
      else r.skip index .badArguments raw
  | .unknown => r.skip index .unknownCommand raw

/-- The lines are read, the first one having that index. -/
def readLines (v : Vocabulary) : Nat → List (List Char) → Reading → Reading
  | _, [], r => r
  | index, raw :: lines, r => readLines v (index + 1) lines (r.readLine v raw index)

/-- The loops that are still open are given up, from the innermost outwards. -/
def giveUpLoops : List OpenLoop → List Command → List Omission → ScriptText
  | [], commands, skipped => ⟨⟨commands.reverse⟩, skipped.reverse⟩
  | l :: ls, _, skipped =>
    giveUpLoops ls l.before (.ofLine l.index .unterminatedLoop l.raw :: skipped)

/-- What was read when the text ends. -/
def finish (r : Reading) : ScriptText :=
  giveUpLoops r.loops r.commands r.omissions

end Reading

namespace Script

/-- The script that the lines give. -/
def ofLines (v : Vocabulary) (lines : List (List Char)) : ScriptText :=
  (Reading.readLines v 0 lines .start).finish

/-- The script that the text gives. -/
def ofText (v : Vocabulary) (text : String) : ScriptText :=
  ofLines v (Text.lines text.toList)

end Script

end Tandem
