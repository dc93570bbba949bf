import Tandem.Avatar
import Tandem.Vocabulary

/-!
# The grid avatar

An avatar on a square grid. It is moved in one of the four directions, or by an engine: once
the engine is on, the avatar climbs and falls, turns, and moves along its heading. A move that
leads off the grid does nothing. An avatar that lands on a trap dies, and stops the run of its
device if it is wired to it; nothing brings it back but a reset.

The own avatar of a device starts in the first cell and looks north. The rival starts in the
last cell, looks south, and takes every direction as seen from the other side of the board.
-/

namespace Tandem

/-- A cell of the grid, by its `x` and its `z`. -/
abbrev GridCell := Int × Int

/-- The cell as seen from the other side of a board of that size. -/
def acrossBoard (size : Int) (c : GridCell) : GridCell :=
  (size - 1 - c.1, size - 1 - c.2)

/-- What a command asks of a grid avatar. -/
inductive GridAction where
  | move (d : Direction)
  | reset
  | startEngine
  | stopEngine
  | climb
  | fall
  | turnLeft
  | turnRight
  | forward
  | backward
  /-- The command means nothing on a grid. -/
  | nothing
deriving DecidableEq, Repr

namespace GridAction

/-- What the named commands that take no argument ask for. -/
def named : List (String × GridAction) := [
  ("RESET", reset), ("Start_Engine", startEngine), ("Stop_Engine", stopEngine),
  ("Climb_Up", climb), ("Fall_Down", fall), ("Turn_Left", turnLeft),
  ("Turn_Right", turnRight), ("Move_Forward", forward), ("Move_Backward", backward)]

/-- What the command asks for. A move without a direction asks for nothing that could be
done. -/
def ofCommand? (name : String) (args : List String) : Option GridAction :=
  if name = "MOVE" then (args.head?.bind Direction.ofName?).map move
  else some ((named.lookup name).getD nothing)

end GridAction

/-- An avatar on a square grid. -/
structure GridAvatar where
  vocabulary : Vocabulary
  /-- The number of cells along each side. -/
  size : Int
  /-- The avatar belongs to the other side of the board. -/
  across : Bool
  traps : List GridCell
  /-- Landing on a trap stops the run of the device. -/
  wired : Bool
  position : GridCell
  heading : Direction
  dead : Bool
  engineOn : Bool
  altitude : UInt32
deriving DecidableEq

namespace GridAvatar

/-- The cell that an avatar starts in. -/
def startCell (size : Int) (across : Bool) : GridCell :=
  if across then (max (size - 1) 0, max (size - 1) 0) else (0, 0)

/-- The direction that an avatar looks in at first. -/
def startHeading (across : Bool) : Direction :=
  if across then .south else .north

/-- An avatar of that side of the board before its first command. -/
def new (vocabulary : Vocabulary) (size : Int) (across : Bool) (traps : List GridCell)
    (wired : Bool) : GridAvatar where
  vocabulary := vocabulary
  size := max size 1
  across := across
  traps := traps
  wired := wired
  position := startCell size across
  heading := startHeading across
  dead := false
  engineOn := false
  altitude := 0

/-- The cell is on the grid. -/
def onGrid (a : GridAvatar) (c : GridCell) : Bool :=
  0 ≤ c.1 && 0 ≤ c.2 && c.1 < a.size && c.2 < a.size

/-- The direction that the avatar's side of the board calls so. -/
def turned (a : GridAvatar) (d : Direction) : Direction :=
  if a.across then d.opposite else d

/-- The cell next to the avatar in a direction of its side. -/
def neighbour (a : GridAvatar) (d : Direction) : GridCell :=
  let (dx, dz) := (a.turned d).offset
  (a.position.1 + dx, a.position.2 + dz)

/-- A move in a direction of the avatar's side. -/
def step (a : GridAvatar) (d : Direction) : GridAvatar :=
  let next := a.neighbour d
  if a.onGrid next then
    { a with position := next, dead := a.dead || a.traps.contains next }
  else a

/-- A move in the direction lands on a trap. -/
def landsOnTrap (a : GridAvatar) (d : Direction) : Bool :=
  a.onGrid (a.neighbour d) && a.traps.contains (a.neighbour d)

/-- The avatar where it started and alive, with its engine as it is. -/
def reset (a : GridAvatar) : GridAvatar :=
  { a with
    position := startCell a.size a.across
    heading := startHeading a.across
    dead := false
    altitude := 0 }

/-- The direction that an action moves the avatar in, as its side of the board calls it. -/
def moveOf? (a : GridAvatar) : GridAction → Option Direction
  | .move d => some d
  | .forward => if a.engineOn then some (a.turned a.heading) else none
  | .backward => if a.engineOn then some (a.turned a.heading).opposite else none
  | _ => none

/-- The avatar after an action. Without the engine, the actions of the engine do nothing. -/
def act (a : GridAvatar) (action : GridAction) : GridAvatar :=
  match a.moveOf? action with
  | some d => a.step d
  | none =>
    match action with
    | .reset => a.reset
    | .startEngine => { a with engineOn := true }
    | .stopEngine => { a with engineOn := false, altitude := 0 }
    | .climb => if a.engineOn then { a with altitude := a.altitude + 1 } else a
    | .fall =>
      if a.engineOn then
        { a with altitude := if a.altitude = 0 then 0 else a.altitude - 1 }
      else a
    | .turnLeft => if a.engineOn then { a with heading := a.heading.counterclockwise } else a
    | .turnRight => if a.engineOn then { a with heading := a.heading.clockwise } else a
    | _ => a

/-- The avatar is handed a command. It understands the commands of its vocabulary with
arguments of their kind. -/
def perform (a : GridAvatar) (name : String) (args : List String) : Reaction GridAvatar :=
  match (if a.vocabulary.understands name args then GridAction.ofCommand? name args else none) with
  | none => ⟨a, false, false⟩
  | some action => ⟨a.act action, true, a.wired && (a.moveOf? action).any a.landsOnTrap⟩

instance : Avatar GridAvatar where
  isStatic a name := a.vocabulary.isStatic name
  isLock a name := a.vocabulary.isLock name
  isDead a := a.dead
  perform := perform

theorem vocabulary_step (a : GridAvatar) (d : Direction) :
    (a.step d).vocabulary = a.vocabulary := by
  unfold step
  dsimp only
  split <;> rfl

theorem vocabulary_act (a : GridAvatar) (action : GridAction) :
    (a.act action).vocabulary = a.vocabulary := by
  unfold act
  cases a.moveOf? action with
  | some d => exact a.vocabulary_step d
  | none =>
    dsimp only
    split <;> first | rfl | (split <;> rfl)

/-- An avatar never changes its vocabulary. -/
theorem vocabulary_perform (a : GridAvatar) (name : String) (args : List String) :
    (a.perform name args).avatar.vocabulary = a.vocabulary := by
  unfold perform
  split
  · rfl
  · exact a.vocabulary_act _

instance : Avatar.Steady GridAvatar where
  isLock_perform a name args other := congrArg (·.isLock other) (a.vocabulary_perform name args)

end GridAvatar

end Tandem
