import Tandem.Script.Basic
import Mathlib.Data.List.Basic

/-!
# Running flags

Setting and clearing running flags changes a script in nothing else : with all running flags
cleared, it is the script that it was (`clearRunning_setRunning`).
-/

namespace Tandem

namespace Command

/-- A map over all heads, as a map over the list. -/
theorem mapHeadsList_eq_map (f : CommandHead → CommandHead) :
    ∀ cs : List Command, mapHeadsList f cs = cs.map (mapHeads f)
  | [] => rfl
  | c :: cs => by rw [mapHeadsList, List.map_cons, mapHeadsList_eq_map f cs]

theorem length_mapHeadsList (f : CommandHead → CommandHead) (cs : List Command) :
    (mapHeadsList f cs).length = cs.length := by
  rw [mapHeadsList_eq_map, List.length_map]

mutual

theorem mapHeads_mapHeads {f g : CommandHead → CommandHead} (h : ∀ b, f (g b) = f b) :
    ∀ c : Command, mapHeads f (mapHeads g c) = mapHeads f c
  | leaf b => by rw [mapHeads, mapHeads, mapHeads, h]
  | loop b n cs => by rw [mapHeads, mapHeads, mapHeads, h, mapHeadsList_mapHeadsList h cs]

theorem mapHeadsList_mapHeadsList {f g : CommandHead → CommandHead} (h : ∀ b, f (g b) = f b) :
    ∀ cs : List Command, mapHeadsList f (mapHeadsList g cs) = mapHeadsList f cs
  | [] => rfl
  | c :: cs => by
    rw [mapHeadsList, mapHeadsList, mapHeadsList, mapHeads_mapHeads h c,
      mapHeadsList_mapHeadsList h cs]

end

/-- What a later map undoes at one place is not seen after it. -/
theorem map_modify_of_comp {β γ : Type} {f : β → γ} {g : β → β} (h : ∀ b, f (g b) = f b)
    (bs : List β) (i : Nat) : (bs.modify i g).map f = bs.map f := by
  refine List.ext_getElem? fun j => ?_
  rw [List.getElem?_map, List.getElem?_map, List.getElem?_modify]
  split <;> cases bs[j]? <;> simp [h]

/-- A change that the map does not see is not seen at any place. -/
theorem mapHeads_modify {f : CommandHead → CommandHead} {g : Command → Command}
    (h : ∀ c, mapHeads f (g c) = mapHeads f c) :
    ∀ (path : Path) (c : Command), mapHeads f (modify g path c) = mapHeads f c
  | [], c => h c
  | _ :: _, leaf _ => rfl
  | i :: path, loop b n cs => by
    simp only [modify, mapHeads, mapHeadsList_eq_map]
    rw [map_modify_of_comp (mapHeads_modify h path)]

end Command

namespace Script

theorem clearRunning_clearRunning (s : Script) :
    s.clearRunning.clearRunning = s.clearRunning := by
  simp only [clearRunning]
  rw [Command.mapHeadsList_mapHeadsList]
  intro b
  rfl

/-- When the flags are cleared, it does not matter whether one was set. -/
theorem clearRunning_setRunning (s : Script) (path : Path) (value : Bool) :
    (s.setRunning path value).clearRunning = s.clearRunning := by
  unfold setRunning modify clearRunning
  cases path with
  | nil => rfl
  | cons i path =>
    simp only [Command.mapHeadsList_eq_map]
    rw [Command.map_modify_of_comp (Command.mapHeads_modify _ path)]
    intro c
    cases c <;> rfl

end Script

end Tandem
