import Tandem.Script.Store

/-!
# Drawing directions at random

Every leaf whose command takes a direction can be given a direction drawn at random. The
drawing walks through the script in order, a disabled command like any other, and counts the
leaves it changed. Where the directions come from is a parameter: a state `σ` with a function
that draws one direction from it.

`drawDirection` draws from a sequence of random 32-bit words. Four directions take the two
highest bits of a word; a word whose next bit is set is passed over, so that each direction
has as many words as any other.
-/

namespace Tandem

/-- One direction drawn from the words, and the words left. When the words run out they go on
as zeros. -/
def drawDirection : List UInt32 → Direction × List UInt32
  | [] => (.north, [])
  | w :: ws =>
    if w.toNat / 0x20000000 % 2 = 1 then drawDirection ws
    else
      match w.toNat / 0x40000000 with
      | 0 => (.north, ws)
      | 1 => (.south, ws)
      | 2 => (.east, ws)
      | _ => (.west, ws)

namespace Command

variable {σ : Type} (names : List String) (draw : σ → Direction × σ)

mutual

/-- The command with a drawn direction for each leaf of one of the names, the number of those
leaves, and what is left of the source. -/
def randomize : Command → σ → Command × Nat × σ
  | leaf b, source =>
    if names.contains b.name then
      let (d, source) := draw source
      (leaf { b with args := [d.name] }, 1, source)
    else (leaf b, 0, source)
  | loop b n cs, source =>
    let (cs, changed, source) := randomizeList cs source
    (loop b n cs, changed, source)

/-- The commands with drawn directions, from the first to the last. -/
def randomizeList : List Command → σ → List Command × Nat × σ
  | [], source => ([], 0, source)
  | c :: cs, source =>
    let (c, changed, source) := randomize c source
    let (cs, others, source) := randomizeList cs source
    (c :: cs, changed + others, source)

end

end Command

/-- The store with directions drawn for the working script, and the number of leaves
changed. -/
def ScriptStore.randomize {σ : Type} (t : ScriptStore) (v : Vocabulary)
    (draw : σ → Direction × σ) (source : σ) : ScriptStore × Nat :=
  match t.working with
  | none => (t, 0)
  | some s =>
    let (commands, changed, _) := Command.randomizeList v.directionNames draw s.commands source
    ({ t with working := some ⟨commands⟩ }, changed)

end Tandem
