import Tandem.Command.Ticks

/-!
# Scripts

A script is a list of commands. A command in it is addressed by a path: the index among the
top-level commands, then indices among the children of loops. The empty path addresses
nothing.
-/

namespace Tandem

/-- A script: its top-level commands in order. -/
structure Script where
  commands : List Command
deriving DecidableEq, Repr

namespace Command

/-- The command at the end of the path inside the command. -/
def get? : Path → Command → Option Command
  | [], c => some c
  | i :: path, c =>
    match c.children[i]? with
    | some child => get? path child
    | none => none

/-- The command with the one at the end of the path changed by `f`. -/
def modify (f : Command → Command) : Path → Command → Command
  | [], c => f c
  | _ :: _, leaf b => leaf b
  | i :: path, loop b n cs => loop b n (cs.modify i (modify f path))

end Command

namespace Script

/-- The script without commands. -/
def empty : Script := ⟨[]⟩

/-- The number of top-level commands. -/
def length (s : Script) : Nat := s.commands.length

/-- The command at the path. -/
def get? (s : Script) : Path → Option Command
  | [] => none
  | i :: path =>
    match s.commands[i]? with
    | some c => c.get? path
    | none => none

/-- The script with the command at the path changed by `f`. A path that leads nowhere changes
nothing. -/
def modify (s : Script) (path : Path) (f : Command → Command) : Script :=
  match path with
  | [] => s
  | i :: path => ⟨s.commands.modify i (Command.modify f path)⟩

/-- The script with the running flag of the command at the path set or cleared. -/
def setRunning (s : Script) (path : Path) (value : Bool) : Script :=
  s.modify path (Command.setRunning value)

/-- The script with no running flag set. -/
def clearRunning (s : Script) : Script :=
  ⟨Command.mapHeadsList (fun b => { b with flags := { b.flags with running := false } })
    s.commands⟩

/-- Every command of the script with its path, a loop before its children. -/
def nodes (s : Script) : List (Path × Command) :=
  Command.nodesList [] 0 s.commands

/-- Whether two scripts are the same code, flags left aside. -/
def sameCode (s t : Script) : Bool :=
  Command.sameCodeList s.commands t.commands

/-- The number of ticks of a run. -/
def ticks (rule : WaitRule) (s : Script) : Nat :=
  Command.ticksList rule s.commands

/-- The number of ticks of a run, as far as a word shows it. -/
def tickCount (rule : WaitRule) (s : Script) : UInt64 :=
  Command.tickCountList rule s.commands

end Script

end Tandem
