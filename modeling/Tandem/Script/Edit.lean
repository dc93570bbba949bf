import Tandem.Script.Basic

/-!
# Editing scripts

An edit changes one command of a script, addressed by its path, or the list of commands that
it stands in. `Script.edit` gives the script after the edit, or nothing when the edit is
refused: because the path leads nowhere, or because a leaf was to get a child or a count.
-/

namespace Tandem

/-- A change of a script at a path. -/
inductive Edit where
  /-- Append a command to the children of the loop at the path, or to the script at the empty
  path. -/
  | push (path : Path) (command : Command)
  /-- Take the command at the path out of the script. -/
  | remove (path : Path)
  | setName (path : Path) (name : String)
  | setArgs (path : Path) (args : List String)
  /-- Set the count of the loop at the path. -/
  | setCount (path : Path) (count : UInt32)
  | setDisabled (path : Path) (value : Bool)
  | setRunning (path : Path) (value : Bool)
  | setEdited (path : Path) (value : Bool)
  | setLocked (path : Path) (value : Bool)
deriving Repr

namespace Command

/-- The loop with another child behind its children. -/
def pushChild (child : Command) : Command → Command
  | leaf b => leaf b
  | loop b n cs => loop b n (cs ++ [child])

/-- The loop without its child of that index. -/
def removeChild (i : Nat) : Command → Command
  | leaf b => leaf b
  | loop b n cs => loop b n (cs.eraseIdx i)

end Command

namespace Script

/-- The script with the command at the path changed by `f`, if there is one there that passes
the test. -/
def modify? (s : Script) (path : Path) (test : Command → Bool) (f : Command → Command) :
    Option Script :=
  if (s.get? path).any test then some (s.modify path f) else none

/-- The script with the command taken in at the end of the list that the path leads to. -/
def push? (s : Script) (path : Path) (command : Command) : Option Script :=
  match path with
  | [] => some ⟨s.commands ++ [command]⟩
  | path => s.modify? path Command.isLoop (Command.pushChild command)

/-- The script without the command at the path. -/
def remove? (s : Script) (path : Path) : Option Script :=
  if (s.get? path).isSome then
    match path.getLast? with
    | none => none
    | some i =>
      match path.dropLast with
      | [] => some ⟨s.commands.eraseIdx i⟩
      | parent => some (s.modify parent (Command.removeChild i))
  else none

/-- The script after the edit, if it is not refused. -/
def edit (s : Script) : Edit → Option Script
  | .push path command => s.push? path command
  | .remove path => s.remove? path
  | .setName path name => s.modify? path (fun _ => true) (Command.setName name)
  | .setArgs path args => s.modify? path (fun _ => true) (Command.setArgs args)
  | .setCount path count => s.modify? path Command.isLoop (Command.setCount count)
  | .setDisabled path value => s.modify? path (fun _ => true) (Command.setDisabled value)
  | .setRunning path value => s.modify? path (fun _ => true) (Command.setRunning value)
  | .setEdited path value => s.modify? path (fun _ => true) (Command.setEdited value)
  | .setLocked path value => s.modify? path (fun _ => true) (Command.setLocked value)

end Script

end Tandem
