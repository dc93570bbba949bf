import Tandem.Proofs.Avatar.Image

/-!
# Where a grid avatar gets to

A request that a grid avatar serves either sets it back, or moves it one step, or leaves it in its
cell (`GridAvatar.outcome`). What holds of an avatar at all times follows from these three :

* it is on the grid, and it is in the air only while its engine is on (`GridAvatar.Sound`);
* it dies by moves onto traps and comes back to life by being set back (`GridAvatar.dead_serve`), so
  it is dead just if it has moved onto a trap since it was set back last
  (`GridAvatar.dead_serveAll_iff`);
* it stops the run of its device just when it moves onto a trap (`GridAvatar.stopsRun_eq`).

To be set back is not to move, even where the cell that an avatar starts in is a trap.
-/

namespace Tandem

namespace GridAction

variable {name : String} {args : List String} {action : GridAction}

/-- A command asks for a move, for nothing, or for the action of its name. -/
theorem mem_named_of_ofCommand? (h : ofCommand? name args = some action) :
    (∃ d, action = move d) ∨ action = nothing ∨ (name, action) ∈ named := by
  unfold ofCommand? at h
  split at h
  · obtain ⟨d, -, rfl⟩ := Option.map_eq_some_iff.mp h
    exact .inl ⟨d, rfl⟩
  · obtain rfl := Option.some.inj h
    cases hl : named.lookup name with
    | none => exact .inr (.inl rfl)
    | some action =>
      obtain ⟨before, after, hsplit, -⟩ := List.lookup_eq_some_iff.mp hl
      exact .inr (.inr (by rw [hsplit]; simp))

theorem ofCommand?_reset (args : List String) : ofCommand? "RESET" args = some reset := by
  rw [ofCommand?, if_neg (by decide)]
  rfl

/-- Only `RESET` asks for a reset. -/
theorem name_of_reset (h : ofCommand? name args = some reset) : name = "RESET" := by
  simpa [named] using mem_named_of_ofCommand? h

theorem name_of_climb (h : ofCommand? name args = some climb) : name = "Climb_Up" := by
  simpa [named] using mem_named_of_ofCommand? h

end GridAction

namespace GridAvatar

/-! ## Requests -/

/-- The request sets avatars of the vocabulary back. -/
def Request.resets (v : Vocabulary) : Request → Bool
  | .perform name args => name = "RESET" && v.understands name args
  | .reset => true

/-- The request is the command to climb. -/
def Request.climbs : Request → Bool
  | .perform name _ => name = "Climb_Up"
  | .reset => false

variable (a : GridAvatar)

/-- With the request the avatar moves to another cell, which is one of these. To be set back is not
to move. -/
def movesOnto (cells : List GridCell) : Request → Bool
  | .perform name args =>
    let next := (a.perform name args).avatar.position
    name ≠ "RESET" && next ≠ a.position && cells.contains next
  | .reset => false

/-- With the request the avatar stops the run of its device. Being set back from outside has no part
in runs. -/
def stopsRun : Request → Bool
  | .perform name args => (a.perform name args).stopsRun
  | .reset => false

/-- What the command asks of the avatar, which may not understand it. -/
def asked (name : String) (args : List String) : Option GridAction :=
  if a.vocabulary.understands name args then GridAction.ofCommand? name args else none

variable {a} {name : String} {args : List String} {action : GridAction}

/-- A command that is refused leaves the avatar as it is. -/
theorem perform_of_refused (h : a.asked name args = none) :
    a.perform name args = ⟨a, false, false⟩ := by
  unfold asked at h
  rw [perform, h]

/-- A command that is understood is carried out, and stops the run on a trap. -/
theorem perform_of_asked (h : a.asked name args = some action) : a.perform name args =
    ⟨a.act action, true, a.wired && (a.moveOf? action).any a.landsOnTrap⟩ := by
  unfold asked at h
  rw [perform, h]

theorem ofCommand?_of_asked (h : a.asked name args = some action) :
    GridAction.ofCommand? name args = some action :=
  (Option.ite_none_right_eq_some.mp h).2

theorem asked_reset_iff :
    a.asked name args = some .reset ↔ (Request.perform name args).resets a.vocabulary = true := by
  rw [asked, Option.ite_none_right_eq_some, Request.resets, Bool.and_eq_true, decide_eq_true_eq,
    and_comm]
  refine and_congr_left fun _ => ⟨GridAction.name_of_reset, ?_⟩
  rintro rfl
  exact GridAction.ofCommand?_reset args

/-- What is understood resets the avatar just if its action does. -/
theorem resets_of_asked (h : a.asked name args = some action) :
    (Request.perform name args).resets a.vocabulary = decide (action = .reset) := by
  rw [Bool.eq_iff_iff, ← asked_reset_iff, h, decide_eq_true_eq, Option.some_inj]

theorem name_ne_of_asked (h : a.asked name args = some action) (hreset : action ≠ .reset) :
    name ≠ "RESET" := by
  rintro rfl
  have haction := ofCommand?_of_asked h
  rw [GridAction.ofCommand?_reset] at haction
  exact hreset (Option.some.inj haction).symm

theorem climb_le_climbs (h : a.asked name args = some action) :
    (decide (action = .climb)).toNat ≤ (Request.perform name args).climbs.toNat := by
  by_cases hclimb : action = .climb
  · subst hclimb
    rw [Request.climbs, GridAction.name_of_climb (ofCommand?_of_asked h)]
    exact Nat.le_refl _
  · rw [decide_eq_false hclimb]
    exact Nat.zero_le _

/-! ## One request -/

/-- What makes an avatar what it is, and is no matter of where it has got to. -/
def board (a : GridAvatar) : Vocabulary × Int × Bool × List GridCell × Bool :=
  (a.vocabulary, a.size, a.across, a.traps, a.wired)

/-- From the first of the avatars to the second, which stands in the same cell, it may have turned,
climbed or switched its engine. -/
structure Stays (a b : GridAvatar) (climbs : Bool) : Prop where
  board : b.board = a.board
  position : b.position = a.position
  dead : b.dead = a.dead
  airborne : (a.altitude ≠ 0 → a.engineOn = true) → b.altitude ≠ 0 → b.engineOn = true
  altitude : b.altitude.toNat ≤ a.altitude.toNat + climbs.toNat

/-- An avatar that is left alone stays. -/
theorem Stays.refl (a : GridAvatar) (climbs : Bool) : a.Stays a climbs :=
  ⟨rfl, rfl, rfl, id, Nat.le_add_right _ _⟩

variable (a)

/-- An action that is no move and no reset leaves the avatar where it is. -/
theorem stays_act (hmove : a.moveOf? action = none) (hreset : action ≠ .reset) :
    a.Stays (a.act action) (action = .climb) := by
  unfold act
  rw [hmove]
  cases action with
  | move d => nomatch hmove
  | reset => exact absurd rfl hreset
  | startEngine => exact ⟨rfl, rfl, rfl, fun _ _ => rfl, Nat.le_refl _⟩
  | stopEngine => exact ⟨rfl, rfl, rfl, fun _ h => absurd rfl h, Nat.zero_le _⟩
  | climb =>
    dsimp only
    split
    · next hon =>
      refine ⟨rfl, rfl, rfl, fun _ _ => hon, ?_⟩
      rw [UInt32.toNat_add]
      exact Nat.mod_le _ _
    · exact .refl a _
  | fall =>
    dsimp only
    split
    · next hon =>
      refine ⟨rfl, rfl, rfl, fun _ _ => hon, ?_⟩
      dsimp only
      split
      · exact Nat.zero_le _
      · next hup =>
        have hone : 1 ≤ a.altitude := UInt32.le_iff_toNat_le.mpr
          (Nat.one_le_iff_ne_zero.mpr fun h => hup (UInt32.toNat_inj.mp h))
        rw [UInt32.toNat_sub_of_le _ _ hone]
        exact Nat.sub_le _ _
    · exact .refl a _
  | turnLeft | turnRight =>
    dsimp only
    split
    · exact ⟨rfl, rfl, rfl, id, Nat.le_refl _⟩
    · exact .refl a _
  | forward | backward | nothing => exact .refl a _

theorem board_step (d : Direction) : (a.step d).board = a.board := by
  unfold step
  dsimp only
  split <;> rfl

/-- A step onto a trap kills, and no step brings back to life. -/
theorem dead_step (d : Direction) : (a.step d).dead = (a.dead || a.landsOnTrap d) := by
  unfold step landsOnTrap
  dsimp only
  split
  · next hgrid => rw [hgrid, Bool.true_and]
  · next hgrid => rw [Bool.eq_false_iff.mpr hgrid, Bool.false_and, Bool.or_false]

/-- The next cell in a direction is another one. -/
theorem neighbour_ne_position (d : Direction) : a.neighbour d ≠ a.position := by
  intro h
  have hx := congrArg Prod.fst h
  have hz := congrArg Prod.snd h
  unfold neighbour at hx hz
  cases hd : a.turned d <;> simp only [hd, Direction.offset] at hx hz <;> omega

/-- A step on the grid leads to another cell. -/
theorem lands_step (d : Direction) :
    (decide ((a.step d).position ≠ a.position) && a.traps.contains (a.step d).position) =
      a.landsOnTrap d := by
  unfold step landsOnTrap
  dsimp only
  split
  · next hgrid =>
    rw [hgrid, decide_eq_true (a.neighbour_ne_position d)]
  · next hgrid =>
    rw [Bool.eq_false_iff.mpr hgrid, decide_eq_false (fun h => h rfl), Bool.false_and,
      Bool.false_and]

theorem movesOnto_of_position_eq (cells : List GridCell)
    (h : (a.perform name args).avatar.position = a.position) :
    a.movesOnto cells (.perform name args) = false := by
  simp only [movesOnto, h, ne_eq, not_true_eq_false, decide_false, Bool.and_false, Bool.false_and]

/-- What an avatar does with a request. -/
inductive Outcome (r : Request) : Prop
  /-- It is set back. -/
  | setBack (resets : r.resets a.vocabulary = true) (serve : a.serve r = a.reset)
      (moves : a.movesOnto a.traps r = false) (stops : a.stopsRun r = false)
  /-- It takes a step. -/
  | steps (d : Direction) (resets : r.resets a.vocabulary = false) (serve : a.serve r = a.step d)
      (moves : a.movesOnto a.traps r = a.landsOnTrap d)
      (stops : a.stopsRun r = (a.wired && a.landsOnTrap d))
  /-- It stays where it is. -/
  | stays (resets : r.resets a.vocabulary = false) (serve : a.Stays (a.serve r) r.climbs)
      (moves : a.movesOnto a.traps r = false) (stops : a.stopsRun r = false)

/-- What comes of a command that is understood. -/
theorem outcome_perform (h : a.asked name args = some action) :
    a.Outcome (.perform name args) := by
  have hperform := perform_of_asked h
  have hresets := resets_of_asked h
  cases hmove : a.moveOf? action with
  | some d =>
    have hreset : action ≠ .reset := by
      rintro rfl
      cases hmove
    have hact : a.act action = a.step d := by
      unfold act
      rw [hmove]
    refine .steps d (by rw [hresets, decide_eq_false hreset]) ?_ ?_ ?_
    · rw [serve, hperform, hact]
    · rw [movesOnto, hperform, hact, decide_eq_true (name_ne_of_asked h hreset), Bool.true_and,
        lands_step]
    · rw [stopsRun, hperform, hmove, Option.any_some]
  | none =>
    have hstops : a.stopsRun (.perform name args) = false := by
      rw [stopsRun, hperform, hmove, Option.any_none, Bool.and_false]
    by_cases hreset : action = .reset
    · subst hreset
      refine .setBack (by rw [hresets, decide_eq_true rfl]) ?_ ?_ hstops
      · rw [serve, hperform]
        rfl
      · rw [movesOnto, GridAction.name_of_reset (ofCommand?_of_asked h)]
        rfl
    · have hstays := a.stays_act hmove hreset
      refine .stays (by rw [hresets, decide_eq_false hreset]) ?_ ?_ hstops
      · rw [serve, hperform]
        exact { hstays with
          altitude := Nat.le_trans hstays.altitude (Nat.add_le_add_left (climb_le_climbs h) _) }
      · exact a.movesOnto_of_position_eq _ (by rw [hperform]; exact hstays.position)

/-- Whatever is asked, one of three things comes of it. -/
theorem outcome (r : Request) : a.Outcome r := by
  cases r with
  | reset => exact .setBack rfl rfl rfl rfl
  | perform name args =>
    cases h : a.asked name args with
    | some action => exact a.outcome_perform h
    | none =>
      have hperform := perform_of_refused h
      have hresets : (Request.perform name args).resets a.vocabulary = false := by
        rw [Bool.eq_false_iff, Ne, ← asked_reset_iff, h]
        exact nofun
      refine .stays hresets ?_ ?_ ?_
      · rw [serve, hperform]
        exact .refl a _
      · exact a.movesOnto_of_position_eq _ (by rw [hperform])
      · rw [stopsRun, hperform]

/-- No request changes the board. -/
theorem board_serve (r : Request) : (a.serve r).board = a.board := by
  cases a.outcome r with
  | setBack _ hserve => rw [hserve]; rfl
  | steps d _ hserve => rw [hserve, board_step]
  | stays _ hserve => exact hserve.board

/-- An avatar stops the run of its device, if it is wired to it, just when it moves onto a trap. -/
theorem stopsRun_eq (r : Request) : a.stopsRun r = (a.wired && a.movesOnto a.traps r) := by
  cases a.outcome r with
  | setBack _ _ hmoves hstops | stays _ _ hmoves hstops => rw [hmoves, hstops, Bool.and_false]
  | steps d _ _ hmoves hstops => rw [hmoves, hstops]

/-- An avatar is dead after a request that moves it onto a trap, and until it is set back. -/
theorem dead_serve (r : Request) :
    (a.serve r).dead = (!r.resets a.vocabulary && (a.dead || a.movesOnto a.traps r)) := by
  cases a.outcome r with
  | setBack hresets hserve => rw [hserve, hresets]; rfl
  | steps d hresets hserve hmoves => rw [hserve, hresets, hmoves, dead_step]; rfl
  | stays hresets hserve hmoves =>
    rw [hserve.dead, hresets, hmoves, Bool.or_false]
    rfl

/-- Only a climb takes the avatar up, by one at most. -/
theorem altitude_serve_le (r : Request) :
    (a.serve r).altitude.toNat ≤ a.altitude.toNat + r.climbs.toNat := by
  cases a.outcome r with
  | setBack _ hserve => rw [hserve]; exact Nat.zero_le _
  | steps d _ hserve =>
    rw [hserve]
    unfold step
    dsimp only
    split <;> exact Nat.le_add_right _ _
  | stays _ hserve => exact hserve.altitude

/-- The avatar is on the grid, and in the air only while its engine is on. -/
structure Sound : Prop where
  onGrid : a.onGrid a.position = true
  airborne : a.altitude ≠ 0 → a.engineOn = true

variable {a}

/-- An avatar starts on its grid. -/
theorem onGrid_startCell (hs : 1 ≤ a.size) : a.onGrid (startCell a.size a.across) = true := by
  simp only [onGrid, Bool.and_eq_true, decide_eq_true_eq]
  cases a.across with
  | true =>
    simp only [startCell, reduceIte]
    omega
  | false =>
    simp only [startCell, Bool.false_eq_true, reduceIte]
    omega

theorem onGrid_of_board {b : GridAvatar} (h : b.board = a.board) : b.onGrid = a.onGrid := by
  have hsize : b.size = a.size := congrArg (·.2.1) h
  unfold onGrid
  rw [hsize]

/-- No request takes an avatar off its grid. -/
theorem Sound.serve (h : a.Sound) (hs : 1 ≤ a.size) (r : Request) : (a.serve r).Sound := by
  cases a.outcome r with
  | setBack _ hserve =>
    rw [hserve]
    exact ⟨onGrid_startCell hs, fun h => absurd rfl h⟩
  | steps d _ hserve =>
    rw [hserve]
    unfold step
    dsimp only
    split
    · next hgrid => exact ⟨hgrid, h.airborne⟩
    · exact h
  | stays _ hserve =>
    refine ⟨?_, hserve.airborne h.airborne⟩
    rw [onGrid_of_board hserve.board, hserve.position]
    exact h.onGrid

/-! ## Any requests -/

theorem board_serveAll (requests : List Request) (a : GridAvatar) :
    (a.serveAll requests).board = a.board := by
  induction requests generalizing a with
  | nil => rfl
  | cons r requests ih => exact (ih (a.serve r)).trans (a.board_serve r)

theorem Sound.serveAll (requests : List Request) (h : a.Sound) (hs : 1 ≤ a.size) :
    (a.serveAll requests).Sound := by
  induction requests generalizing a with
  | nil => exact h
  | cons r requests ih => exact ih (h.serve hs r) (by rwa [size_serve])

/-- An avatar flies no higher than it has been told to climb. -/
theorem altitude_serveAll_le (requests : List Request) (a : GridAvatar) :
    (a.serveAll requests).altitude.toNat ≤ a.altitude.toNat + requests.countP Request.climbs := by
  induction requests generalizing a with
  | nil => exact Nat.le_refl _
  | cons r requests ih =>
    have hr := a.altitude_serve_le r
    have hrest : (a.serveAll (r :: requests)).altitude.toNat ≤
      (a.serve r).altitude.toNat + requests.countP Request.climbs := ih (a.serve r)
    rw [List.countP_cons]
    cases hclimbs : r.climbs with
    | true =>
      rw [hclimbs, Bool.toNat_true] at hr
      rw [if_pos rfl]
      omega
    | false =>
      rw [hclimbs, Bool.toNat_false] at hr
      rw [if_neg Bool.false_ne_true]
      omega

/-- Among the requests is one that moves the avatar onto one of the cells, and none that sets it
back comes later. -/
def MovedOnto (a : GridAvatar) (cells : List GridCell) (requests : List Request) : Prop :=
  ∃ front r later, requests = front ++ r :: later ∧
    (a.serveAll front).movesOnto cells r = true ∧
    ∀ r' ∈ later, r'.resets a.vocabulary = false

theorem not_movedOnto_nil (cells : List GridCell) : ¬a.MovedOnto cells [] := by
  rintro ⟨front, r, later, hsplit, -⟩
  exact List.append_ne_nil_of_right_ne_nil front (List.cons_ne_nil r later) hsplit.symm

/-- Either the first request moves onto the cells and the avatar is not set back later, or the
requests behind it do. -/
theorem movedOnto_cons (cells : List GridCell) (r : Request) (requests : List Request) :
    a.MovedOnto cells (r :: requests) ↔
      a.movesOnto cells r = true ∧ (∀ r' ∈ requests, r'.resets a.vocabulary = false) ∨
        (a.serve r).MovedOnto cells requests := by
  have hv : (a.serve r).vocabulary = a.vocabulary := congrArg (·.1) (a.board_serve r)
  constructor
  · rintro ⟨_ | ⟨_, front⟩, r', later, hsplit, hmoves, hlater⟩
    · obtain ⟨rfl, rfl⟩ := List.cons.inj hsplit
      exact .inl ⟨hmoves, hlater⟩
    · obtain ⟨rfl, rfl⟩ := List.cons.inj hsplit
      exact .inr ⟨front, r', later, rfl, hmoves, by rwa [hv]⟩
  · rintro (⟨hmoves, hlater⟩ | ⟨front, r', later, rfl, hmoves, hlater⟩)
    · exact ⟨[], r, requests, rfl, hmoves, hlater⟩
    · exact ⟨r :: front, r', later, rfl, hmoves, by rwa [hv] at hlater⟩

/-- What moves an avatar onto a trap does not set it back. -/
theorem not_resets_of_movesOnto {r : Request} (h : a.movesOnto a.traps r = true) :
    r.resets a.vocabulary = false := by
  cases a.outcome r with
  | setBack _ _ hmoves => rw [hmoves] at h; cases h
  | steps _ hresets | stays hresets => exact hresets

/-- An avatar is dead just if it has moved onto a trap since it was set back last, or was dead
before and never set back. -/
theorem dead_serveAll_iff (requests : List Request) (a : GridAvatar) :
    (a.serveAll requests).dead = true ↔ a.MovedOnto a.traps requests ∨
      a.dead = true ∧ ∀ r ∈ requests, r.resets a.vocabulary = false := by
  induction requests generalizing a with
  | nil =>
    rw [or_iff_right (not_movedOnto_nil _)]
    exact (and_iff_left nofun).symm
  | cons r requests ih =>
    have hboard := a.board_serve r
    have hv : (a.serve r).vocabulary = a.vocabulary := congrArg (·.1) hboard
    have htraps : (a.serve r).traps = a.traps := congrArg (·.2.2.2.1) hboard
    have hmove : a.movesOnto a.traps r = true → r.resets a.vocabulary = false :=
      not_resets_of_movesOnto
    have hrest := ih (a.serve r)
    rw [hv, htraps, dead_serve, Bool.and_eq_true, Bool.or_eq_true, Bool.not_eq_true'] at hrest
    rw [movedOnto_cons, List.forall_mem_cons]
    exact hrest.trans (by tauto)

/-- A request that is refused changes nothing and stops no run. -/
theorem refused_of_answer {r : Request} (h : a.answer r = some false) :
    a.serve r = a ∧ a.stopsRun r = false := by
  cases r with
  | reset => cases h
  | perform name args =>
    rw [serve, stopsRun]
    cases hasked : a.asked name args with
    | none => exact (perform_of_refused hasked).symm ▸ ⟨rfl, rfl⟩
    | some action =>
      rw [answer, perform_of_asked hasked] at h
      cases h

/-- A new avatar is sound. -/
theorem sound_new (v : Vocabulary) {size : Int} (hs : 1 ≤ size) (across : Bool)
    (traps : List GridCell) (wired : Bool) : (new v size across traps wired).Sound := by
  have hsize : max size 1 = size := by omega
  refine ⟨?_, fun h => absurd rfl h⟩
  have hstart := onGrid_startCell (a := new v size across traps wired) (by rwa [new, hsize])
  rwa [new, hsize] at hstart ⊢

/-- Whatever a grid avatar is asked for, it is on the grid, in the air only while its engine is on,
and dead just if it has moved onto a trap since it was set back last. It stops the run of its
device, if it is wired to it, just when it moves onto a trap. A command that it does not understand
changes nothing. With fewer than `2 ^ 32` commands to climb, its altitude always has room for the
next one. -/
theorem keeps_to_grid (v : Vocabulary) {size : Int} (hs : 1 ≤ size) (across : Bool)
    (traps : List GridCell) (wired : Bool) (requests : List Request) :
    let start := new v size across traps wired
    let a := start.serveAll requests
    ((0 ≤ a.position.1 ∧ a.position.1 < size) ∧ 0 ≤ a.position.2 ∧ a.position.2 < size) ∧
    (0 < a.altitude → a.engineOn = true) ∧
    (a.dead = true ↔ start.MovedOnto traps requests) ∧
    (∀ r, (a.stopsRun r = true ↔ wired = true ∧ a.movesOnto traps r = true) ∧
      (a.answer r = some false → a.serve r = a ∧ a.stopsRun r = false)) ∧
    (requests.countP Request.climbs < UInt32.size →
      ∀ front r later, requests = front ++ r :: later → r.climbs = true →
        (start.serveAll front).altitude.toNat + 1 < UInt32.size) := by
  intro start a
  have hstart : start.size = size := by
    show max size 1 = size
    omega
  have hsize : a.size = size := (size_serveAll requests start).trans hstart
  have hboard : a.board = start.board := board_serveAll requests start
  have hwired : a.wired = wired := congrArg (·.2.2.2.2) hboard
  have htraps : a.traps = traps := congrArg (·.2.2.2.1) hboard
  have hsound : a.Sound := (sound_new v hs across traps wired).serveAll requests (by rwa [hstart])
  have hgrid := hsound.onGrid
  simp only [onGrid, Bool.and_eq_true, decide_eq_true_eq, hsize] at hgrid
  refine ⟨by omega, fun h => hsound.airborne (UInt32.pos_iff_ne_zero.mp h),
    (dead_serveAll_iff requests start).trans (or_iff_left fun h => Bool.false_ne_true h.1),
    fun r => ⟨?_, refused_of_answer⟩, ?_⟩
  · rw [stopsRun_eq, hwired, htraps, Bool.and_eq_true]
  · rintro hclimbs front r later rfl hr
    have hfront : (start.serveAll front).altitude.toNat ≤ 0 + front.countP Request.climbs :=
      altitude_serveAll_le front start
    rw [List.countP_append, List.countP_cons, if_pos hr] at hclimbs
    omega

/-- An avatar is set back in the air and moves onto a trap. A direction that there is not changes
nothing any more. -/
theorem keeps_to_grid_on_trap :
    let start := new .standard 4 false [(1, 0)] true
    let requests : List Request :=
      [.perform "Start_Engine" [], .perform "Climb_Up" [], .perform "RESET" [],
        .perform "Climb_Up" [], .perform "MOVE" ["EAST"]]
    let a := start.serveAll requests
    (1 : Int) ≤ 4 ∧ requests.countP Request.climbs < UInt32.size ∧
    a.position = (1, 0) ∧ a.altitude = 1 ∧ a.engineOn = true ∧ a.dead = true ∧
    start.MovedOnto [(1, 0)] requests ∧
    a.answer (.perform "MOVE" ["UP"]) = some false ∧ a.serve (.perform "MOVE" ["UP"]) = a ∧
    (start.serveAll (requests.take 3)).altitude.toNat + 1 < UInt32.size := by
  intro start requests a
  have hs : (1 : Int) ≤ 4 := by decide
  have hclimbs : requests.countP Request.climbs < UInt32.size := by decide +kernel
  have hdead : a.dead = true := by decide +kernel
  have hanswer : a.answer (.perform "MOVE" ["UP"]) = some false := by decide +kernel
  obtain ⟨-, -, hdead_iff, hrequest, hroom⟩ :=
    keeps_to_grid .standard hs false [(1, 0)] true requests
  exact ⟨hs, hclimbs, by decide +kernel, by decide +kernel, by decide +kernel, hdead,
    hdead_iff.mp hdead, hanswer, ((hrequest _).2 hanswer).1,
    hroom hclimbs (requests.take 3) _ _ rfl rfl⟩

end GridAvatar

end Tandem
