import Tandem.Avatar.Grid
import Mathlib.Data.List.Basic

/-!
# The image of an avatar across the board

The rival of a device is meant to be the avatar of the other device as seen from across the board :
its `image`, in the opposite cell, with the opposite heading, and with the traps in the opposite
cells. Whatever an avatar is handed, its image is handed as well, and remains its image
(`perform_image`). That cells have whole numbers without bound for coordinates, and no 32-bit words,
makes no difference on the board (`mem_across_iff_mem_acrossBoard`).

So a rival that starts with the opposite traps mirrors the own avatar for good, whatever both are
handed and whenever both are set back (`rival_mirrors`).
-/

namespace Tandem

/-- Seen from the other side twice, a cell is where it was. -/
theorem acrossBoard_acrossBoard (size : Int) (c : GridCell) :
    acrossBoard size (acrossBoard size c) = c :=
  Prod.ext (by unfold acrossBoard; dsimp only; omega) (by unfold acrossBoard; dsimp only; omega)

theorem acrossBoard_injective (size : Int) : (acrossBoard size).Injective :=
  Function.LeftInverse.injective (acrossBoard_acrossBoard size)

/-- On the board, a coordinate across it is the same in 32-bit words as in whole numbers. A
difference that is too great for a word is off the board, and so is what is left of it. -/
theorem toInt_across_eq_iff {size : Int32} (hsize : 0 < size.toInt) (x : Int32) {y : Int}
    (hlow : 0 ≤ y) (hhigh : y < size.toInt) :
    (size - 1 - x).toInt = y ↔ size.toInt - 1 - x.toInt = y := by
  have hone : (1 : Int32).toInt = 1 := rfl
  have hsize' := size.toInt_lt
  have hx := x.le_toInt
  have hx' := x.toInt_lt
  have hlast : (size - 1).toInt = size.toInt - 1 := by
    rw [Int32.toInt_sub, hone, Int.bmod_eq_of_le (by omega) (by omega)]
  rw [Int32.toInt_sub, hlast, Int.bmod_def]
  split <;> omega

/-- Traps that are given in words are at the same cells of the board from across, whether the cells
are worked out in words or in whole numbers. -/
theorem mem_across_iff_mem_acrossBoard {size : Int32} (hsize : 0 < size.toInt)
    (traps : List (Int32 × Int32)) {c : GridCell} (hlow : 0 ≤ c.1 ∧ 0 ≤ c.2)
    (hhigh : c.1 < size.toInt ∧ c.2 < size.toInt) :
    c ∈ traps.map (fun t => ((size - 1 - t.1).toInt, (size - 1 - t.2).toInt)) ↔
      c ∈ traps.map fun t => acrossBoard size.toInt (t.1.toInt, t.2.toInt) := by
  rw [List.mem_map, List.mem_map]
  refine exists_congr fun t => and_congr_right fun _ => ?_
  rw [Prod.ext_iff, Prod.ext_iff]
  exact and_congr (toInt_across_eq_iff hsize t.1 hlow.1 hhigh.1)
    (toInt_across_eq_iff hsize t.2 hlow.2 hhigh.2)

namespace GridAvatar

/-- The avatar as seen from across the board. It is wired to no device. -/
def image (a : GridAvatar) : GridAvatar :=
  { a with
    across := !a.across
    traps := a.traps.map (acrossBoard a.size)
    wired := false
    position := acrossBoard a.size a.position
    heading := a.heading.opposite }

variable (a : GridAvatar)

/-- A cell is on the grid if it is seen there from the other side. -/
theorem onGrid_image (c : GridCell) : a.image.onGrid (acrossBoard a.size c) = a.onGrid c := by
  rw [Bool.eq_iff_iff]
  simp only [onGrid, Bool.and_eq_true, decide_eq_true_eq]
  dsimp only [image, acrossBoard]
  omega

/-- Both sides see a trap in the same place. -/
theorem contains_image (c : GridCell) :
    a.image.traps.contains (acrossBoard a.size c) = a.traps.contains c := by
  rw [Bool.eq_iff_iff, List.contains_iff_mem, List.contains_iff_mem]
  exact List.mem_map_of_injective (acrossBoard_injective a.size)

/-- Seen from the other side, an avatar faces the other way. -/
theorem turned_image (d : Direction) : a.image.turned d = (a.turned d).opposite := by
  cases h : a.across <;> simp [turned, image, h]

theorem turned_opposite (d : Direction) : a.turned d.opposite = (a.turned d).opposite := by
  cases h : a.across <;> simp [turned, h]

/-- The next cell in a direction is the next one in the opposite direction. -/
theorem neighbour_image (d : Direction) :
    a.image.neighbour d = acrossBoard a.size (a.neighbour d) := by
  unfold neighbour
  rw [turned_image]
  cases a.turned d <;> simp [Direction.opposite, Direction.offset, image, acrossBoard] <;> omega

/-- A step of the image is the image of the step. -/
theorem step_image (d : Direction) : a.image.step d = (a.step d).image := by
  simp only [step, neighbour_image, onGrid_image, contains_image]
  split <;> rfl

/-- The image of an avatar that is set back is set back. -/
theorem reset_image (hs : 0 < a.size) : a.image.reset = a.reset.image := by
  have hmax : max (a.size - 1) 0 = a.size - 1 := by omega
  cases h : a.across <;>
    simp [reset, image, startCell, startHeading, acrossBoard, Direction.opposite, h, hmax]

theorem moveOf?_image (action : GridAction) : a.image.moveOf? action = a.moveOf? action := by
  have hh : a.image.turned a.image.heading = a.turned a.heading := by
    rw [turned_image, image, turned_opposite, Direction.opposite_opposite]
  cases action <;> simp only [moveOf?, hh] <;> rfl

/-- Whatever action is taken, the image takes it too. -/
theorem act_image (hs : 0 < a.size) (action : GridAction) :
    a.image.act action = (a.act action).image := by
  unfold act
  rw [moveOf?_image]
  cases a.moveOf? action with
  | some d => exact a.step_image d
  | none =>
    have hi : a.image.engineOn = a.engineOn := rfl
    cases action with
    | reset => exact a.reset_image hs
    | climb | fall =>
      simp only [hi]
      split <;> rfl
    | turnLeft =>
      simp only [hi]
      split
      · simp [image, Direction.opposite_counterclockwise]
      · rfl
    | turnRight =>
      simp only [hi]
      split
      · simp [image, Direction.opposite_clockwise]
      · rfl
    | startEngine | stopEngine | move | forward | backward | nothing => rfl

/-- A command does to the image what it does to the avatar. -/
theorem perform_image (hs : 0 < a.size) (name : String) (args : List String) :
    (a.image.perform name args).avatar = (a.perform name args).avatar.image := by
  have hv : a.image.vocabulary = a.vocabulary := rfl
  unfold perform
  rw [hv]
  split
  · rfl
  · exact a.act_image hs _

/-- No command changes what an avatar is : its vocabulary and its board. -/
theorem size_act (action : GridAction) : (a.act action).size = a.size := by
  unfold act
  cases a.moveOf? action with
  | some d =>
    dsimp only [step]
    split <;> rfl
  | none =>
    dsimp only
    split <;> first | rfl | (split <;> rfl)

theorem size_perform (name : String) (args : List String) :
    (a.perform name args).avatar.size = a.size := by
  unfold perform
  split
  · rfl
  · exact a.size_act _

/-! ## Serving requests -/

/-- What an avatar is asked for from outside. -/
inductive Request where
  /-- It is handed a command. -/
  | perform (name : String) (args : List String)
  /-- It is set back. -/
  | reset
deriving DecidableEq, Repr

/-- The avatar after a request. -/
def serve (a : GridAvatar) : Request → GridAvatar
  | .perform name args => (a.perform name args).avatar
  | .reset => a.reset

/-- What the avatar returns : whether it understood the command, nothing where it is set back. -/
def answer (a : GridAvatar) : Request → Option Bool
  | .perform name args => some (a.perform name args).understood
  | .reset => none

/-- The avatar after the requests. -/
def serveAll (a : GridAvatar) (requests : List Request) : GridAvatar :=
  requests.foldl serve a

/-- What the avatar returns for each of the requests. -/
def answers : GridAvatar → List Request → List (Option Bool)
  | _, [] => []
  | a, r :: requests => a.answer r :: (a.serve r).answers requests

theorem size_serve (r : Request) : (a.serve r).size = a.size := by
  cases r with
  | perform name args => exact a.size_perform name args
  | reset => rfl

/-- Whatever is asked, the image of the avatar does the same. -/
theorem serve_image (hs : 0 < a.size) (r : Request) : a.image.serve r = (a.serve r).image := by
  cases r with
  | perform name args => exact a.perform_image hs name args
  | reset => exact a.reset_image hs

/-- An avatar and its image give the same answers. -/
theorem answer_image (r : Request) : a.image.answer r = a.answer r := by
  cases r with
  | perform name args =>
    have hv : a.image.vocabulary = a.vocabulary := rfl
    simp only [answer, perform, hv]
    split <;> rfl
  | reset => rfl

/-! ## Avatars that face each other -/

/-- The avatar, wired to its device or not. -/
def wire (wired : Bool) : GridAvatar := { a with wired }

/-- Whether an avatar is told of traps makes no difference to what it does. -/
theorem act_wire (wired : Bool) (action : GridAction) :
    (a.wire wired).act action = (a.act action).wire wired := by
  have hmove : (a.wire wired).moveOf? action = a.moveOf? action := by cases action <;> rfl
  unfold act
  rw [hmove]
  cases a.moveOf? action with
  | some d =>
    have hneighbour : (a.wire wired).neighbour d = a.neighbour d := rfl
    have hgrid : (a.wire wired).onGrid = a.onGrid := rfl
    simp only [step, hneighbour, hgrid]
    split <;> rfl
  | none =>
    have hi : (a.wire wired).engineOn = a.engineOn := rfl
    cases action with
    | climb | fall | turnLeft | turnRight =>
      simp only [hi]
      split <;> rfl
    | move | reset | startEngine | stopEngine | forward | backward | nothing => rfl

/-- Whether an avatar is wired makes no difference to the requests that it serves. -/
theorem serve_wire (wired : Bool) (r : Request) :
    (a.wire wired).serve r = (a.serve r).wire wired ∧ (a.wire wired).answer r = a.answer r := by
  cases r with
  | perform name args =>
    have hv : (a.wire wired).vocabulary = a.vocabulary := rfl
    simp only [serve, answer, perform, hv]
    split
    · exact ⟨rfl, rfl⟩
    · exact ⟨a.act_wire wired _, rfl⟩
  | reset => exact ⟨rfl, rfl⟩

/-- The other avatar is the image of this one, wired or not. -/
def Faces (a b : GridAvatar) : Prop := b.wire false = a.image

variable {a} {b : GridAvatar}

/-- Avatars that face each other still do when both are asked the same. -/
theorem Faces.serve (h : a.Faces b) (hs : 0 < a.size) (r : Request) :
    (a.serve r).Faces (b.serve r) := by
  rw [Faces, ← (b.serve_wire false r).1, show b.wire false = a.image from h, a.serve_image hs]

/-- Avatars that face each other give the same answers. -/
theorem Faces.answer (h : a.Faces b) (r : Request) : b.answer r = a.answer r := by
  rw [← (b.serve_wire false r).2, show b.wire false = a.image from h, answer_image]

/-- Avatars that face each other still do after the same requests, and have returned the same. -/
theorem Faces.serveAll (requests : List Request) (h : a.Faces b) (hs : 0 < a.size) :
    (a.serveAll requests).Faces (b.serveAll requests) ∧
      b.answers requests = a.answers requests := by
  induction requests generalizing a b with
  | nil => exact ⟨h, rfl⟩
  | cons r requests ih =>
    have hr : 0 < (a.serve r).size := by rwa [size_serve]
    obtain ⟨hfaces, hanswers⟩ := ih (h.serve hs r) hr
    exact ⟨hfaces, by rw [answers, answers, h.answer, hanswers]⟩

theorem size_serveAll (requests : List Request) (a : GridAvatar) :
    (a.serveAll requests).size = a.size := by
  induction requests generalizing a with
  | nil => rfl
  | cons r requests ih => exact (ih (a.serve r)).trans (a.size_serve r)

/-- The rival of an avatar, with the opposite traps, is its image before the first command. -/
theorem new_image (v : Vocabulary) {size : Int} (hs : 1 ≤ size) (traps : List GridCell)
    (wired : Bool) :
    (new v size false traps wired).image =
      new v size true (traps.map (acrossBoard size)) false := by
  have hmax : max size 1 = size := by omega
  have hlast : max (size - 1) 0 = size - 1 := by omega
  simp [new, image, startCell, startHeading, acrossBoard, Direction.opposite, hmax, hlast]

/-- On a board of any size, an avatar and a rival with the opposite traps are served the same
requests. They return the same each time, and the rival is always in the opposite cell with the
opposite heading, its engine and its altitude the same, and dead just if the avatar is. -/
theorem rival_mirrors (v : Vocabulary) {size : Int} (hs : 1 ≤ size) (traps : List GridCell)
    (wired wired' : Bool) (requests : List Request) :
    let own := new v size false traps wired
    let rival := new v size true (traps.map (acrossBoard size)) wired'
    rival.answers requests = own.answers requests ∧
    (rival.serveAll requests).position = acrossBoard size (own.serveAll requests).position ∧
    (rival.serveAll requests).heading = (own.serveAll requests).heading.opposite ∧
    (rival.serveAll requests).engineOn = (own.serveAll requests).engineOn ∧
    (rival.serveAll requests).altitude = (own.serveAll requests).altitude ∧
    (rival.serveAll requests).dead = (own.serveAll requests).dead := by
  intro own rival
  have hsize : own.size = size := by
    show max size 1 = size
    omega
  have hfaces : own.Faces rival := (new_image v hs traps wired).symm
  obtain ⟨hserved, hanswers⟩ := hfaces.serveAll requests (by omega)
  have himage : (rival.serveAll requests).wire false = (own.serveAll requests).image := hserved
  have hsize' : (own.serveAll requests).size = size := (size_serveAll requests own).trans hsize
  have hposition := congrArg position himage
  rw [image, hsize'] at hposition
  exact ⟨hanswers, hposition, congrArg heading himage, (congrArg engineOn himage :),
    (congrArg altitude himage :), (congrArg dead himage :)⟩

/-- An avatar flies east and dies on a trap, and so does its rival. -/
theorem rival_mirrors_onto_trap :
    let own := new .standard 4 false [(1, 0)] true
    let rival := new .standard 4 true [(2, 3)] false
    let requests : List Request :=
      [.perform "Start_Engine" [], .perform "Turn_Right" [], .perform "Move_Forward" [],
        .perform "MOVE" []]
    (own.answers requests = [some true, some true, some true, some false] ∧
      rival.answers requests = own.answers requests) ∧
    ((own.serveAll requests).position = (1, 0) ∧ (own.serveAll requests).dead = true) ∧
    (rival.serveAll requests).position = acrossBoard 4 (own.serveAll requests).position ∧
    (rival.serveAll requests).dead = (own.serveAll requests).dead := by
  intro own rival requests
  have hs : (1 : Int) ≤ 4 := by decide
  obtain ⟨hanswers, hposition, -, -, -, hdead⟩ :=
    rival_mirrors .standard hs [(1, 0)] true false requests
  exact ⟨⟨by decide +kernel, hanswers⟩, ⟨by decide +kernel, by decide +kernel⟩, hposition, hdead⟩

end GridAvatar

end Tandem
