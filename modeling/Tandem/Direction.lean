/-!
# Directions on the board

The board has four directions. North is up, towards smaller `z`. The other device looks at the
board from the opposite side, so what it calls north is south here: `opposite` turns a
direction of one side into the same direction as the other side names it.
-/

namespace Tandem

/-- One of the four directions on the board. -/
inductive Direction where
  | north
  | south
  | east
  | west
deriving DecidableEq, Repr

namespace Direction

/-- All directions, in the order in which they are drawn at random. -/
def all : List Direction := [north, south, east, west]

/-- The name of a direction in a script. -/
def name : Direction → String
  | north => "NORTH"
  | south => "SOUTH"
  | east => "EAST"
  | west => "WEST"

/-- The direction of that name. Names are told apart by the case of letters. -/
def ofName? (s : String) : Option Direction :=
  all.find? fun d => d.name = s

/-- The direction as seen from the opposite side of the board. -/
def opposite : Direction → Direction
  | north => south
  | south => north
  | east => west
  | west => east

/-- How far one step in the direction leads along `x` and along `z`. -/
def offset : Direction → Int × Int
  | north => (0, -1)
  | south => (0, 1)
  | east => (1, 0)
  | west => (-1, 0)

/-- The next direction clockwise. -/
def clockwise : Direction → Direction
  | north => east
  | east => south
  | south => west
  | west => north

/-- The next direction counterclockwise. -/
def counterclockwise : Direction → Direction
  | north => west
  | west => south
  | south => east
  | east => north

/-- A direction is read back from its name. -/
@[simp] theorem ofName?_name (d : Direction) : ofName? d.name = some d := by
  cases d <;> decide

theorem eq_name_of_ofName? {s : String} {d : Direction} (h : ofName? s = some d) :
    s = d.name := by
  have := List.find?_some h
  simpa using (of_decide_eq_true this).symm

/-- The opposite of the opposite is the direction itself. -/
@[simp] theorem opposite_opposite (d : Direction) : d.opposite.opposite = d := by
  cases d <;> rfl

@[simp] theorem counterclockwise_clockwise (d : Direction) :
    d.clockwise.counterclockwise = d := by
  cases d <;> rfl

theorem opposite_clockwise (d : Direction) :
    d.clockwise.opposite = d.opposite.clockwise := by
  cases d <;> rfl

theorem opposite_counterclockwise (d : Direction) :
    d.counterclockwise.opposite = d.opposite.counterclockwise := by
  cases d <;> rfl

end Direction

end Tandem
