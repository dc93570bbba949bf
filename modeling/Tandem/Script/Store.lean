import Tandem.Script.Edit

/-!
# The script store

A device keeps two copies of its script: the working one, which is shown, edited and run, and
the reference copy of what was loaded, which nothing but a new load changes. It also remembers
the path of the command that is being edited, of which there is at most one.
-/

namespace Tandem

/-- The scripts of a device. -/
structure ScriptStore where
  working : Option Script
  reference : Option Script
  /-- The path of the command that is being edited. -/
  editing : Option Path
deriving DecidableEq, Repr

namespace ScriptStore

/-- Nothing is loaded. -/
def empty : ScriptStore := ⟨none, none, none⟩

/-- A script is loaded in place of what was there. -/
def load (_ : ScriptStore) (s : Script) : ScriptStore :=
  ⟨some s, some s, none⟩

/-- Nothing is loaded any more. -/
def unload (_ : ScriptStore) : ScriptStore := empty

/-- A script is loaded. -/
def isLoaded (t : ScriptStore) : Bool := t.working.isSome

/-- The working script is again what was loaded. -/
def restore (t : ScriptStore) : ScriptStore :=
  match t.reference with
  | some s => { t with working := some s, editing := none }
  | none => t

/-- The working script, if there is one, becomes the given one. -/
def update (t : ScriptStore) (s : Script) : ScriptStore :=
  { t with working := t.working.map fun _ => s }

/-- The working script is the same code as what was loaded. -/
def isAsLoaded (t : ScriptStore) : Bool :=
  match t.working, t.reference with
  | some w, some r => w.sameCode r
  | none, none => true
  | _, _ => false

/-- The script with the edited flag cleared at the path, if there is one. -/
def clearEdited (s : Script) : Option Path → Script
  | some path => s.modify path (Command.setEdited false)
  | none => s

/-- Starts the editing of the command at the path, which ends that of any other. It is refused
where there is no command, and for a locked one. -/
def startEditing (t : ScriptStore) (path : Path) : ScriptStore × Bool :=
  match t.working with
  | none => (t, false)
  | some s =>
    if (s.get? path).any (!·.flags.locked) then
      let s := (clearEdited s t.editing).modify path (Command.setEdited true)
      ({ t with working := some s, editing := some path }, true)
    else (t, false)

/-- Ends the editing, if a command is being edited. -/
def endEditing (t : ScriptStore) : ScriptStore :=
  { t with working := t.working.map fun s => clearEdited s t.editing, editing := none }

/-- Sets or clears the disabled flag of the command at the path. It is refused where there is
no command. -/
def setDisabled (t : ScriptStore) (path : Path) (value : Bool) : ScriptStore × Bool :=
  match t.working.bind fun s => s.edit (.setDisabled path value) with
  | some s => ({ t with working := some s }, true)
  | none => (t, false)

/-- The store after an edit of the working script, and whether it was made. An edit that is
refused changes nothing. -/
def edit (t : ScriptStore) (e : Edit) : ScriptStore × Bool :=
  match t.working.bind fun s => s.edit e with
  | some s => ({ t with working := some s }, true)
  | none => (t, false)

end ScriptStore

end Tandem
