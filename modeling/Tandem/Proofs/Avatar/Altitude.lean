import Tandem.Proofs.Avatar.Whereabouts
import Mathlib.Data.List.Induction

/-!
# How high a grid avatar flies

The flight of an avatar is told in numbers without bound : with its engine on, each climb takes it
one up and each fall one down, though not below the ground, and to be set back or to switch the
engine off takes it down at once (`Flight`). The avatar itself counts its altitude in a word.

As long as the flight stays below the number of words, the altitude is exact
(`GridAvatar.flown_serveAll`). The climb that reaches that number takes the avatar to the ground
(`GridAvatar.Flown.altitude_of_top`), whence it goes on. So the altitude is exact at all times just
if the flight is never that high (`GridAvatar.altitude_exact`), and there are flights that are
(`GridAvatar.climbs_replicate`).
-/

namespace Tandem

/-- The engine of an avatar, and how high the avatar is. -/
structure Flight where
  engineOn : Bool
  height : Nat
deriving DecidableEq

namespace Flight

/-- The flight after an action. -/
def act (f : Flight) : GridAction → Flight
  | .reset => { f with height := 0 }
  | .startEngine => { f with engineOn := true }
  | .stopEngine => ⟨false, 0⟩
  | .climb => if f.engineOn then { f with height := f.height + 1 } else f
  | .fall => if f.engineOn then { f with height := f.height - 1 } else f
  | _ => f

end Flight

namespace GridAvatar

/-- The action that the request asks of the avatar, if it does. -/
def action? (a : GridAvatar) : Request → Option GridAction
  | .perform name args => a.asked name args
  | .reset => some .reset

/-- The flight of an avatar that is handed the request. -/
def flies (a : GridAvatar) (f : Flight) (r : Request) : Flight :=
  (a.action? r).elim f f.act

/-- The flight of the avatar through the requests. -/
def flight (a : GridAvatar) (requests : List Request) : Flight :=
  requests.foldl a.flies ⟨a.engineOn, a.altitude.toNat⟩

/-- The avatar is where the flight has taken it. -/
structure Flown (a : GridAvatar) (f : Flight) : Prop where
  engineOn : a.engineOn = f.engineOn
  altitude : a.altitude.toNat = f.height

variable {a : GridAvatar} {f : Flight}

/-- What a request asks of an avatar depends on its board only. -/
theorem action?_of_board {b : GridAvatar} (h : b.board = a.board) : b.action? = a.action? := by
  have hv : b.vocabulary = a.vocabulary := congrArg Prod.fst h
  funext r
  cases r with
  | reset => rfl
  | perform name args => simp only [action?, asked, hv]

theorem flies_of_board {b : GridAvatar} (h : b.board = a.board) : b.flies = a.flies := by
  funext f r
  rw [flies, flies, action?_of_board h]

theorem flight_concat (a : GridAvatar) (requests : List Request) (r : Request) :
    a.flight (requests ++ [r]) = a.flies (a.flight requests) r :=
  List.foldl_concat _ _ _ _

/-! ## One request -/

/-- An avatar that is asked for an action acts. -/
theorem serve_of_action? {r : Request} {action : GridAction} (h : a.action? r = some action) :
    a.serve r = a.act action := by
  cases r with
  | reset =>
    obtain rfl := Option.some.inj h
    rfl
  | perform name args => rw [serve, perform_of_asked h]

/-- An avatar that is asked for nothing stays as it is. -/
theorem serve_of_action?_none {r : Request} (h : a.action? r = none) : a.serve r = a := by
  cases r with
  | reset => cases h
  | perform name args => rw [serve, perform_of_refused h]

/-- A step takes the avatar neither up nor down. -/
theorem Flown.step (h : a.Flown f) (d : Direction) : (a.step d).Flown f := by
  unfold GridAvatar.step
  dsimp only
  split
  · exact ⟨h.engineOn, h.altitude⟩
  · exact h

/-- A climb takes the avatar one up, unless that is too high for a word. -/
theorem Flown.climb (h : a.Flown f) (hlow : (f.act .climb).height < UInt32.size) :
    (a.act .climb).Flown (f.act .climb) := by
  rw [Flight.act, ← h.engineOn] at hlow ⊢
  unfold GridAvatar.act
  dsimp only [moveOf?]
  split
  · next hon =>
    rw [if_pos hon] at hlow
    refine ⟨rfl, ?_⟩
    show (a.altitude + 1).toNat = f.height + 1
    rw [UInt32.toNat_add, h.altitude]
    exact Nat.mod_eq_of_lt hlow
  · exact h

/-- A fall takes the avatar one down, as far as the ground. -/
theorem Flown.fall (h : a.Flown f) : (a.act .fall).Flown (f.act .fall) := by
  rw [Flight.act, ← h.engineOn]
  unfold GridAvatar.act
  dsimp only [moveOf?]
  split
  · refine ⟨rfl, ?_⟩
    show (if a.altitude = 0 then 0 else a.altitude - 1).toNat = f.height - 1
    split
    · next hground => rw [← h.altitude, hground]; rfl
    · next hup =>
      have hone : 1 ≤ a.altitude := UInt32.le_iff_toNat_le.mpr
        (Nat.one_le_iff_ne_zero.mpr fun hzero => hup (UInt32.toNat_inj.mp hzero))
      rw [UInt32.toNat_sub_of_le _ _ hone, h.altitude]
      rfl
  · exact h

/-- An action takes the avatar where it takes the flight, unless that is too high for a word. -/
theorem Flown.act (h : a.Flown f) {action : GridAction}
    (hlow : (f.act action).height < UInt32.size) : (a.act action).Flown (f.act action) := by
  cases hmove : a.moveOf? action with
  | some d =>
    have hact : a.act action = a.step d := by
      unfold GridAvatar.act
      rw [hmove]
    have hstill : f.act action = f := by
      cases action <;> first | rfl | cases hmove
    rw [hact, hstill]
    exact h.step d
  | none =>
    cases action with
    | climb => exact h.climb hlow
    | fall => exact h.fall
    | move => cases hmove
    | reset => exact ⟨h.engineOn, rfl⟩
    | startEngine => exact ⟨rfl, h.altitude⟩
    | stopEngine => exact ⟨rfl, rfl⟩
    | forward | backward | nothing =>
      unfold GridAvatar.act
      rw [hmove]
      exact h
    | turnLeft | turnRight =>
      unfold GridAvatar.act
      rw [hmove]
      dsimp only
      split
      · exact ⟨h.engineOn, h.altitude⟩
      · exact h

/-- A request takes the avatar where it takes the flight, unless that is too high for a word. -/
theorem Flown.serve (h : a.Flown f) {r : Request} (hlow : (a.flies f r).height < UInt32.size) :
    (a.serve r).Flown (a.flies f r) := by
  unfold flies at hlow ⊢
  cases hr : a.action? r with
  | none =>
    rw [serve_of_action?_none hr]
    exact h
  | some action =>
    rw [hr] at hlow
    rw [serve_of_action? hr]
    exact h.act hlow

/-- Nothing but a climb takes a flight higher, and it takes it one up. -/
theorem height_act_cases (f : Flight) (action : GridAction) :
    (f.act action).height ≤ f.height ∨
      action = .climb ∧ f.engineOn = true ∧ (f.act action).height = f.height + 1 := by
  cases action with
  | climb =>
    rw [Flight.act]
    split
    · next hon => exact .inr ⟨rfl, hon, rfl⟩
    · exact .inl (Nat.le_refl _)
  | fall =>
    rw [Flight.act]
    split
    · exact .inl (Nat.sub_le _ _)
    · exact .inl (Nat.le_refl _)
  | reset | stopEngine => exact .inl (Nat.zero_le _)
  | move | startEngine | turnLeft | turnRight | forward | backward | nothing =>
    exact .inl (Nat.le_refl _)

/-- The request that takes the flight out of the words takes the avatar to the ground. -/
theorem Flown.altitude_of_top (h : a.Flown f) {r : Request}
    (hlow : f.height < UInt32.size) (htop : UInt32.size ≤ (a.flies f r).height) :
    (a.serve r).altitude = 0 := by
  unfold flies at htop
  cases hr : a.action? r with
  | none =>
    rw [hr] at htop
    exact absurd htop (Nat.not_le.mpr hlow)
  | some action =>
    rw [hr] at htop
    obtain hle | ⟨rfl, hon, hone⟩ := height_act_cases f action
    · exact absurd (Nat.le_trans htop hle) (Nat.not_le.mpr hlow)
    · have htop : UInt32.size ≤ f.height + 1 := Nat.le_trans htop (Nat.le_of_eq hone)
      rw [serve_of_action? hr]
      show (if a.engineOn then { a with altitude := a.altitude + 1 } else a).altitude = 0
      rw [h.engineOn, if_pos hon]
      refine UInt32.toNat_inj.mp ?_
      show (a.altitude + 1).toNat = 0
      rw [UInt32.toNat_add, h.altitude, show f.height + UInt32.toNat 1 = UInt32.size by
        have : UInt32.toNat 1 = 1 := rfl
        omega]
      rfl

/-! ## Any number of requests -/

theorem serveAll_concat (a : GridAvatar) (requests : List Request) (r : Request) :
    a.serveAll (requests ++ [r]) = (a.serveAll requests).serve r :=
  List.foldl_concat _ _ _ _

/-- As long as the flight stays below the number of words, the avatar is where it has taken it. -/
theorem flown_serveAll {a : GridAvatar} {requests : List Request}
    (hlow : ∀ rs, rs <+: requests → (a.flight rs).height < UInt32.size) :
    (a.serveAll requests).Flown (a.flight requests) := by
  induction requests using List.reverseRecOn with
  | nil => exact ⟨rfl, rfl⟩
  | append_singleton requests r ih =>
    have hbefore := ih fun rs hrs => hlow rs (hrs.trans (List.prefix_append _ _))
    have hnext := hlow _ List.prefix_rfl
    rw [flight_concat, ← flies_of_board (board_serveAll requests a)] at hnext ⊢
    rw [serveAll_concat]
    exact hbefore.serve hnext

/-- The altitude is exact after each of the requests just if the flight fits in a word after each
of them. The request with which it first does not fit leaves the avatar on the ground. -/
theorem altitude_exact (a : GridAvatar) (requests : List Request) :
    ((∀ rs, rs <+: requests → (a.serveAll rs).altitude.toNat = (a.flight rs).height) ↔
      ∀ rs, rs <+: requests → (a.flight rs).height < UInt32.size) ∧
    ∀ r, (∀ rs, rs <+: requests → (a.flight rs).height < UInt32.size) →
      UInt32.size ≤ (a.flight (requests ++ [r])).height →
        (a.serveAll (requests ++ [r])).altitude = 0 := by
  refine ⟨⟨fun h rs hrs => ?_, fun h rs hrs => ?_⟩, fun r hlow htop => ?_⟩
  · rw [← h rs hrs]
    exact UInt32.toNat_lt _
  · exact (flown_serveAll fun rs' hrs' => h rs' (hrs'.trans hrs)).altitude
  · rw [flight_concat, ← flies_of_board (board_serveAll requests a)] at htop
    rw [serveAll_concat]
    exact (flown_serveAll hlow).altitude_of_top (hlow _ List.prefix_rfl) htop

/-! ## Climbing on and on -/

/-- The command to climb. -/
def climbing : Request := .perform "Climb_Up" []

/-- The avatar that much higher, in words. -/
def lifted (a : GridAvatar) (n : UInt32) : GridAvatar :=
  { a with altitude := a.altitude + n }

/-- An avatar with its engine on that is told to climb is lifted by one. -/
theorem serve_climbing (hv : a.vocabulary.understands "Climb_Up" [] = true)
    (hon : a.engineOn = true) : a.serve climbing = a.lifted 1 := by
  have haction : a.action? climbing = some .climb := by
    rw [climbing, action?, asked, if_pos hv]
    rfl
  rw [serve_of_action? haction]
  exact if_pos hon

theorem flies_climbing (hv : a.vocabulary.understands "Climb_Up" [] = true)
    (hon : f.engineOn = true) : a.flies f climbing = { f with height := f.height + 1 } := by
  have haction : a.action? climbing = some .climb := by
    rw [climbing, action?, asked, if_pos hv]
    rfl
  rw [flies, haction]
  exact if_pos hon

/-- With its engine on the avatar climbs in words, and its flight in numbers. -/
theorem climbs_replicate (hv : a.vocabulary.understands "Climb_Up" [] = true)
    (hon : a.engineOn = true) (n : Nat) :
    a.serveAll (List.replicate n climbing) = a.lifted (UInt32.ofNat n) ∧
      a.flight (List.replicate n climbing) = ⟨true, a.altitude.toNat + n⟩ := by
  induction n with
  | zero =>
    refine ⟨?_, congrArg (Flight.mk · _) hon⟩
    rw [lifted, show UInt32.ofNat 0 = 0 from rfl, UInt32.add_zero]
    rfl
  | succ n ih =>
    rw [List.replicate_succ', serveAll_concat, flight_concat, ih.1, ih.2]
    refine ⟨?_, flies_climbing hv rfl⟩
    rw [serve_climbing (a := a.lifted (UInt32.ofNat n)) hv hon]
    simp only [lifted, UInt32.ofNat_add, UInt32.add_assoc]
    rfl

end GridAvatar

end Tandem
