import Tandem.Vocabulary
import Tandem.Text.Blank
import Tandem.Decimal.Basic

/-!
# Commands

A script is made of commands. A command is a leaf, with a name and arguments, or a loop, which
runs its children a number of times. Every command carries the same head: its name, its
arguments, and flags that belong to running and editing it and are no part of its code. The
first argument of a loop is the text of its count, and every operation here keeps the two the
same.

A command is a tree, so functions on commands come in pairs: one on a command, and one on a
list of commands.
-/

namespace Tandem

/-- The address of a command: an index in a list of commands, then indices among the children
of loops. -/
abbrev Path := List Nat

/-- What running and editing remember about a command. -/
structure Flags where
  /-- The command is left out of runs. -/
  disabled : Bool
  /-- The command is being run. -/
  running : Bool
  /-- The command is being edited. -/
  edited : Bool
  /-- The command may not be edited. -/
  locked : Bool
deriving DecidableEq, Repr

/-- No flag is set. -/
def Flags.clear : Flags := ⟨false, false, false, false⟩

/-- What every command has: a name, arguments and flags. -/
structure CommandHead where
  name : String
  args : List String
  flags : Flags
deriving DecidableEq, Repr

/-- The head of a new command, with no flag set. -/
def CommandHead.plain (name : String) (args : List String) : CommandHead :=
  ⟨name, args, Flags.clear⟩

/-- A command: a leaf, or a loop that runs its children `count` times. -/
inductive Command where
  | leaf (head : CommandHead)
  | loop (head : CommandHead) (count : UInt32) (children : List Command)
deriving Repr

namespace Command

/-- A new leaf. -/
def ofName (name : String) (args : List String) : Command :=
  .leaf (.plain name args)

/-- A new loop of that many repetitions. -/
def repeated (count : UInt32) (children : List Command) : Command :=
  .loop (.plain loopName [countText count]) count children

instance : Inhabited Command := ⟨ofName "" []⟩

/-- The name, arguments and flags of a command. -/
def head : Command → CommandHead
  | leaf b => b
  | loop b _ _ => b

/-- The name of a command. -/
def name (c : Command) : String := c.head.name

/-- The arguments of a command. -/
def args (c : Command) : List String := c.head.args

/-- The flags of a command. -/
def flags (c : Command) : Flags := c.head.flags

/-- The command is left out of runs. -/
def disabled (c : Command) : Bool := c.head.flags.disabled

/-- The command with its head changed by `f`. -/
def mapHead (f : CommandHead → CommandHead) : Command → Command
  | leaf b => leaf (f b)
  | loop b n cs => loop (f b) n cs

/-- The command with its flags changed by `f`. -/
def mapFlags (f : Flags → Flags) : Command → Command :=
  mapHead fun b => { b with flags := f b.flags }

/-- The command with its disabled flag set or cleared. -/
def setDisabled (value : Bool) : Command → Command :=
  mapFlags fun f => { f with disabled := value }

/-- The command with its running flag set or cleared. -/
def setRunning (value : Bool) : Command → Command :=
  mapFlags fun f => { f with running := value }

/-- The command with its edited flag set or cleared. -/
def setEdited (value : Bool) : Command → Command :=
  mapFlags fun f => { f with edited := value }

/-- The command with its locked flag set or cleared. -/
def setLocked (value : Bool) : Command → Command :=
  mapFlags fun f => { f with locked := value }

/-- The command under another name. -/
def setName (name : String) : Command → Command :=
  mapHead fun b => { b with name := name }

/-- The arguments of a loop with the text of its count in the first place. -/
def withCountText (count : UInt32) : List String → List String
  | [] => [countText count]
  | _ :: rest => countText count :: rest

/-- The loop with another count. A leaf has no count and stays as it is. -/
def setCount (count : UInt32) : Command → Command
  | leaf b => leaf b
  | loop b _ cs => loop { b with args := withCountText count b.args } count cs

/-- The count that the arguments of a loop ask for: their first, read as a count without the
blanks around it, or zero if there is none to read. -/
def countOfArgs (args : List String) : UInt32 :=
  ((args.head?.bind fun a => readCount? (Text.trim a.toList)).getD 0)

/-- The command with other arguments. The arguments of a loop set its count too. -/
def setArgs (args : List String) : Command → Command
  | leaf b => leaf { b with args := args }
  | loop b _ cs =>
    let count := countOfArgs args
    loop { b with args := withCountText count args } count cs

/-- The children of a loop. A leaf has none. -/
def children : Command → List Command
  | leaf _ => []
  | loop _ _ cs => cs

/-- The command is a loop. -/
def isLoop : Command → Bool
  | leaf _ => false
  | loop .. => true

/-- The children that take part in runs. -/
def enabledChildren (c : Command) : List Command :=
  c.children.filter (!·.disabled)

/-! ## Equality -/

mutual

/-- Whether two commands are equal, flags included. -/
def decEq : (a b : Command) → Decidable (a = b)
  | leaf a, leaf b =>
    if h : a = b then isTrue (h ▸ rfl) else isFalse fun e => h (Command.leaf.inj e)
  | leaf _, loop _ _ _ => isFalse nofun
  | loop _ _ _, leaf _ => isFalse nofun
  | loop a n cs, loop b m ds =>
    if hb : a = b then
      if hn : n = m then
        match decEqList cs ds with
        | isTrue h => isTrue (by rw [hb, hn, h])
        | isFalse h => isFalse fun e => h (Command.loop.inj e).2.2
      else isFalse fun e => hn (Command.loop.inj e).2.1
    else isFalse fun e => hb (Command.loop.inj e).1

/-- Whether two lists of commands are equal. -/
def decEqList : (cs ds : List Command) → Decidable (cs = ds)
  | [], [] => isTrue rfl
  | [], _ :: _ => isFalse nofun
  | _ :: _, [] => isFalse nofun
  | c :: cs, d :: ds =>
    match decEq c d with
    | isFalse h => isFalse fun e => h (List.cons.inj e).1
    | isTrue h =>
      match decEqList cs ds with
      | isTrue hs => isTrue (by rw [h, hs])
      | isFalse hs => isFalse fun e => hs (List.cons.inj e).2

end

instance : DecidableEq Command := decEq

mutual

/-- Whether two commands are the same code: leaves of the same name and arguments, or loops of
the same count over the same code. Flags do not matter. -/
def sameCode : Command → Command → Bool
  | leaf a, leaf b => a.name = b.name && a.args = b.args
  | loop _ n cs, loop _ m ds => n = m && sameCodeList cs ds
  | _, _ => false

/-- Whether two lists of commands are the same code, command by command. -/
def sameCodeList : List Command → List Command → Bool
  | [], [] => true
  | c :: cs, d :: ds => sameCode c d && sameCodeList cs ds
  | _, _ => false

end

/-! ## Every command of a tree -/

mutual

/-- The command with its own head and the head of every command inside it changed by `f`. -/
def mapHeads (f : CommandHead → CommandHead) : Command → Command
  | leaf b => leaf (f b)
  | loop b n cs => loop (f b) n (mapHeadsList f cs)

/-- The commands with all bases changed by `f`. -/
def mapHeadsList (f : CommandHead → CommandHead) : List Command → List Command
  | [] => []
  | c :: cs => mapHeads f c :: mapHeadsList f cs

end

mutual

/-- The command and every command inside it, a loop before its children, each with its path
behind `path`. -/
def nodes (path : Path) : Command → List (Path × Command)
  | leaf b => [(path, leaf b)]
  | loop b n cs => (path, loop b n cs) :: nodesList path 0 cs

/-- The commands of the list and inside it with their paths, the first one's index being `i`. -/
def nodesList (path : Path) (i : Nat) : List Command → List (Path × Command)
  | [] => []
  | c :: cs => nodes (path ++ [i]) c ++ nodesList path (i + 1) cs

end

end Command

end Tandem
