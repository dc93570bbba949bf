import Tandem.Script.Basic

/-!
# The walk through a script

A run walks through its script tick by tick. Loops are gone through in depth: a loop of `n`
repetitions over `a` and `b` gives `a b a b …`. The walk can stop between any two ticks, and
the script may be edited before it goes on, so a position in it is not a pointer into the
script but a `Cursor`: the index of the top-level command, for each loop entered the
repetition and the child, and the ticks already spent on the leaf.

`Cursor.next?` finds the next tick at or behind a cursor. Where the script has changed under
the cursor, the walk goes on with what it finds there: what the cursor says about the loops
inside a command that is passed over is forgotten, and a loop without ticks is never entered.
-/

namespace Tandem

/-- How far a loop that was entered has come. -/
structure LoopProgress where
  /-- The number of repetitions done. -/
  repetition : Nat
  /-- The index of the child that is being walked through. -/
  child : Nat
deriving DecidableEq, Repr

/-- A position in a script. -/
structure Cursor where
  /-- The index of the top-level command. -/
  top : Nat
  /-- The loops entered, the outermost first. -/
  frames : List LoopProgress
  /-- The ticks spent on the leaf. -/
  spent : Nat
deriving DecidableEq, Repr

/-- One tick of a run: where it is made, and which command it makes. -/
structure Tick where
  path : Path
  name : String
  args : List String
  /-- It is a tick of waiting, in which no command is made. -/
  wait : Bool
deriving DecidableEq, Repr

/-- The index of the top-level command that the tick belongs to. -/
def Tick.top (t : Tick) : Nat := t.path.head?.getD 0

/-- The tick of a leaf that is reached on a path, with the position inside the outermost command
of that path. -/
structure Found where
  index : Nat
  below : Path
  name : String
  args : List String
  wait : Bool
  frames : List LoopProgress
  spent : Nat
deriving DecidableEq, Repr

namespace Cursor

/-- The start of a script. -/
def start : Cursor := ⟨0, [], 0⟩

/-- The tick at the cursor has been made. -/
def consume (c : Cursor) : Cursor :=
  { c with spent := c.spent + 1 }

end Cursor

namespace Walk

/-- From where the children of a loop are tried in turn: from where the loop stands, then in the
next repetition, then in the one after it, as long as there are repetitions left. What the
cursor says about loops further inside, and about ticks spent, holds until a child has been
passed over; so at most the second try still starts from it, and if the third try finds
nothing no later one does. -/
def tries (count children : Nat) (f : LoopProgress) (inner : List LoopProgress) (spent : Nat) :
    List (LoopProgress × List LoopProgress × Nat) :=
  [ (f, inner, spent),
    (⟨f.repetition + 1, 0⟩, if f.child < children then ([], 0) else (inner, spent)),
    (⟨f.repetition + 2, 0⟩, [], 0) ].filter fun t => t.1.repetition < count

/-- The tick found among the children of a loop, as seen from the command that has the loop's
index. -/
def enter (index : Nat) (f : LoopProgress) (found : Found) : Found :=
  { found with
    index := index
    below := found.index :: found.below
    frames := ⟨f.repetition, found.index⟩ :: found.frames }

variable (rule : WaitRule)

mutual

/-- The next tick inside the command, which has that index, from a position inside it. -/
def inCommand? (index : Nat) : Command → List LoopProgress → Nat → Option Found
  | .leaf b, frames, spent =>
    if b.flags.disabled then none
    else if spent < rule.leafTicks b then
      some ⟨index, [], b.name, b.args, rule.waits b.name, frames, spent⟩
    else none
  | .loop b n cs, frames, spent =>
    if b.flags.disabled then none
    else
      match frames with
      | [] =>
        if 0 < n ∧ Command.hasTicksList rule cs = true then
          (tries n.toNat cs.length ⟨0, 0⟩ [] spent).findSome? fun (f, inner, spent) =>
            (amongCommands? 0 cs f.child inner spent).map (enter index f)
        else none
      | f :: inner =>
        (tries n.toNat cs.length f inner spent).findSome? fun (f, inner, spent) =>
          (amongCommands? 0 cs f.child inner spent).map (enter index f)
termination_by structural c => c

/-- The next tick in the commands, the first of which has that index, from a position inside the
command of index `start`. The commands behind that one are entered anew. -/
def amongCommands? (index : Nat) : List Command → Nat → List LoopProgress → Nat → Option Found
  | [], _, _, _ => none
  | c :: cs, start, frames, spent =>
    if index < start then amongCommands? (index + 1) cs start frames spent
    else
      match inCommand? index c frames spent with
      | some found => some found
      | none => amongCommands? (index + 1) cs start [] 0
termination_by structural cs => cs

end

end Walk

/-- The next tick of the script at or behind the cursor, and the cursor that stands at it. There
is none when the script is at its end. -/
def Cursor.next? (rule : WaitRule) (s : Script) (c : Cursor) : Option (Cursor × Tick) :=
  (Walk.amongCommands? rule 0 s.commands c.top c.frames c.spent).map fun found =>
    (⟨found.index, found.frames, found.spent⟩,
      ⟨found.index :: found.below, found.name, found.args, found.wait⟩)

end Tandem
