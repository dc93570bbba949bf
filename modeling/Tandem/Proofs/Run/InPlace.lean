import Tandem.Proofs.Run.Remaining

/-!
# The walk in place

A walk in place goes through a script with a stack of counters : a frame for each loop that it is
in, which is read and written at the depth of the loop, pushed when the loop is entered, and cut off
with all deeper ones when a child has been passed over. It can go wrong in ways in which a search by
`Cursor.next?` cannot (`WalkFault`) : it may read a frame that is not there, count beyond 32 bits,
or go round in a loop for ever.

None of that happens, whatever the script and whatever cursor was left behind by another one :
`Cursor.settle_eq` says that the walk in place comes to the tick that `Cursor.next?` finds, and to
the same cursor. The search keeps a trail of the loops that it enters and of the frames that it
turns to the next repetition.
-/

namespace Tandem

/-- What would stop a walk in place for good. -/
inductive WalkFault where
  /-- There is no frame at the depth of the loop. -/
  | missingFrame
  /-- A counter of 32 bits is full. -/
  | overflow
  /-- The search of a loop goes on for longer than it has repetitions and children. -/
  | endless
deriving DecidableEq

/-- The counter after another one. -/
def countOn (n : Nat) : Except WalkFault Nat :=
  if n < Binary32.wordCap then .ok (n + 1) else .error .overflow

/-- A counter that has not come to the greatest word goes on. -/
theorem countOn_of_lt {n : Nat} (h : n < Binary32.wordCap) : countOn n = .ok (n + 1) :=
  if_pos h

/-- The state of a search in place. -/
structure Search where
  /-- A frame for each loop that the search is in, and for deeper ones not reached yet. -/
  frames : List LoopProgress
  /-- The ticks spent on the leaf. -/
  spent : Nat
  /-- The depths at which a frame was turned to the next repetition, in order. -/
  turned : List Nat
  /-- The loops entered, in order. -/
  entered : List Command

namespace Search

/-- The frame at that depth. -/
def frame (s : Search) (depth : Nat) : Except WalkFault LoopProgress :=
  match s.frames[depth]? with
  | some f => .ok f
  | none => .error .missingFrame

/-- The loop is entered, if there is no frame for it yet. -/
def arrive (s : Search) (depth : Nat) (c : Command) : Search :=
  if s.frames.length ≤ depth then
    { s with frames := s.frames.take depth ++ [⟨0, 0⟩], entered := s.entered ++ [c] }
  else s

/-- A child has been passed over. What the search knows about deeper loops is cut off. -/
def nextChild (s : Search) (depth : Nat) : Except WalkFault Search := do
  let s := { s with frames := s.frames.take (depth + 1) }
  let f ← s.frame depth
  return { s with frames := s.frames.set depth ⟨f.repetition, f.child + 1⟩, spent := 0 }

/-- All children have been passed over. -/
def turn (s : Search) (depth : Nat) : Except WalkFault Search := do
  let f ← s.frame depth
  let repetition ← countOn f.repetition
  return { s with
    frames := s.frames.set depth ⟨repetition, 0⟩
    turned := s.turned ++ [depth] }

/-- A top-level command has been passed over. -/
def cleared (s : Search) : Search :=
  { s with frames := [], spent := 0 }

variable {s : Search} {outer inner : List LoopProgress} {f : LoopProgress}

/-- The frame at a depth is the one behind so many others. -/
theorem frame_eq (h : s.frames = outer ++ f :: inner) : s.frame outer.length = .ok f := by
  rw [frame, h, List.getElem?_append_right (Nat.le_refl _), Nat.sub_self]
  rfl

theorem mem_of_frame {depth : Nat} (h : s.frame depth = .ok f) : f ∈ s.frames := by
  unfold frame at h
  split at h
  · next g hg =>
    obtain rfl := Except.ok.inj h
    exact List.mem_of_getElem? hg
  · cases h

/-- To go on to the next child only changes a frame that is there. -/
theorem nextChild_eq_ok {s' : Search} {depth : Nat} (h : s.nextChild depth = .ok s') :
    ∃ f ∈ s.frames, s' = { s with
      frames := (s.frames.take (depth + 1)).set depth ⟨f.repetition, f.child + 1⟩
      spent := 0 } := by
  unfold nextChild at h
  dsimp only [bind, Except.bind] at h
  split at h
  · cases h
  · next f hf =>
    exact ⟨f, List.mem_of_mem_take (mem_of_frame hf), (Except.ok.inj h).symm⟩

/-- To turn a frame over only changes one that is there, and whose counter can go on. -/
theorem turn_eq_ok {s' : Search} {depth : Nat} (h : s.turn depth = .ok s') :
    ∃ f ∈ s.frames, f.repetition < Binary32.wordCap ∧ s' = { s with
      frames := s.frames.set depth ⟨f.repetition + 1, 0⟩, turned := s.turned ++ [depth] } := by
  unfold turn at h
  dsimp only [bind, Except.bind] at h
  split at h
  · cases h
  · next f hf =>
    by_cases hlt : f.repetition < Binary32.wordCap
    · rw [countOn_of_lt hlt] at h
      exact ⟨f, mem_of_frame hf, hlt, (Except.ok.inj h).symm⟩
    · rw [countOn, if_neg hlt] at h
      cases h

/-- Where there is no frame yet, one is put for the loop that is entered. -/
theorem arrive_eq (h : s.frames = outer) (c : Command) : s.arrive outer.length c =
    { s with frames := outer ++ [⟨0, 0⟩], entered := s.entered ++ [c] } := by
  subst h
  rw [arrive, if_pos (Nat.le_refl _), List.take_length]

/-- Where there is one, the loop goes on with it. -/
theorem arrive_of_frame (h : s.frames = outer ++ f :: inner) (c : Command) :
    s.arrive outer.length c = s :=
  if_neg (by rw [h, List.length_append, List.length_cons]; omega)

theorem nextChild_eq (h : s.frames = outer ++ f :: inner) : s.nextChild outer.length = .ok
    { s with frames := outer ++ [⟨f.repetition, f.child + 1⟩], spent := 0 } := by
  have hcut : s.frames.take (outer.length + 1) = outer ++ [f] := by
    rw [h, List.take_append, List.take_of_length_le (Nat.le_succ _), Nat.add_sub_cancel_left]
    rfl
  rw [nextChild, hcut, frame_eq (show _ = outer ++ f :: [] from rfl)]
  show Except.ok _ = _
  rw [List.set_append_right _ _ (Nat.le_refl _), Nat.sub_self]
  rfl

/-- A frame whose counter can go on is turned over without a fault. -/
theorem turn_eq (h : s.frames = outer ++ f :: inner) (hf : f.repetition < Binary32.wordCap) :
    s.turn outer.length = .ok
      { s with
        frames := outer ++ ⟨f.repetition + 1, 0⟩ :: inner
        turned := s.turned ++ [outer.length] } := by
  rw [turn, frame_eq h]
  show (countOn f.repetition).bind _ = _
  rw [countOn_of_lt hf, h]
  show Except.ok _ = _
  rw [List.set_append_right _ _ (Nat.le_refl _), Nat.sub_self]
  rfl

end Search

/-- What a search in place comes to : a tick, if it finds one, and the state that it is left in. -/
abbrev SearchResult := Except WalkFault (Option Tick × Search)

namespace Walk

/-- The search of the children of a loop, which has that index : child by child, and repetition by
repetition. It goes round at most as often as the budget allows. -/
def rounds (search : Nat → Search → SearchResult) (index count children depth : Nat) :
    Nat → Search → SearchResult
  | 0, _ => .error .endless
  | budget + 1, s => do
    let f ← s.frame depth
    if count ≤ f.repetition then return (none, s)
    else if f.child < children then
      match ← search f.child s with
      | (some tick, s) => return (some (tick.inside index), s)
      | (none, s) => rounds search index count children depth budget (← s.nextChild depth)
    else rounds search index count children depth budget (← s.turn depth)

/-- The rounds that the search of a loop takes at most. -/
def budget (count children : Nat) : Nat :=
  count * (children + 1) + 1

variable (rule : WaitRule)

mutual

/-- The search of the command, which has that index, at that depth. -/
def settleIn (depth index : Nat) : Command → Search → SearchResult
  | .leaf b, s =>
    if b.flags.disabled then .ok (none, s)
    else if s.spent < rule.leafTicks b then .ok (some (rule.leafTick index b), s)
    else .ok (none, s)
  | .loop b n cs, s =>
    if b.flags.disabled then .ok (none, s)
    else if s.frames.length ≤ depth ∧ (Command.loop b n cs).hasTicks rule = false then .ok (none, s)
    else
      rounds (settleChild (depth + 1) 0 cs) index n.toNat cs.length depth (budget n.toNat cs.length)
        (s.arrive depth (.loop b n cs))
termination_by structural c => c

/-- The search of that one among the commands, the first of which has that index. -/
def settleChild (depth index : Nat) : List Command → Nat → Search → SearchResult
  | [], _, s => .ok (none, s)
  | c :: _, 0, s => settleIn depth index c s
  | _ :: cs, k + 1, s => settleChild depth (index + 1) cs k s
termination_by structural cs => cs

end

/-- The search of the top-level commands, the first of which has that index, one after the other.
Also says where the tick was found. -/
def settleTop (index : Nat) :
    List Command → Search → Except WalkFault (Option (Nat × Tick) × Search)
  | [], s => .ok (none, s)
  | c :: cs, s => do
    match ← settleIn rule 0 index c s with
    | (some tick, s) => return (some (index, tick), s)
    | (none, s) => settleTop (index + 1) cs s.cleared

/-! ## A search in place finds what a search by position finds -/

/-- The search in place has come to what was found, behind the frames of the loops around. -/
def Lands (outer : List LoopProgress) (found? : Option Found) (r : Option Tick × Search) : Prop :=
  match found? with
  | some found =>
    r.1 = some found.tick ∧ r.2.frames = outer ++ found.frames ∧ r.2.spent = found.spent
  | none => r.1 = none ∧ outer <+: r.2.frames

/-- The first tick of a loop, from where it stands on. -/
def seek (among : Nat → List LoopProgress → Nat → Option Found) (index count children : Nat)
    (f : LoopProgress) (inner : List LoopProgress) (spent : Nat) : Option Found :=
  (tries count children f inner spent).findSome? fun t =>
    (among t.1.child t.2.1 t.2.2).map (enter index t.1)

section Loop

variable {among child : Nat → List LoopProgress → Nat → Option Found} {count children : Nat}
  (index : Nat)

/-- A loop that has done its repetitions has no tick left. -/
theorem seek_of_done {repetition : Nat} (h : count ≤ repetition) (k : Nat)
    (inner : List LoopProgress) (spent : Nat) :
    seek among index count children ⟨repetition, k⟩ inner spent = none := by
  rw [seek, findSome?_tries, if_neg (by omega)]

variable
  (hchild : ∀ k inner spent, k < children →
    among k inner spent = (child k inner spent).or (among (k + 1) [] 0))
  (hend : ∀ k inner spent, children ≤ k → among k inner spent = none)

include hchild in
/-- The next tick of a loop is one of the child at which it stands, or else one behind it. -/
theorem seek_of_lt {repetition k : Nat} (hr : repetition < count) (hk : k < children)
    (inner : List LoopProgress) (spent : Nat) :
    seek among index count children ⟨repetition, k⟩ inner spent =
      ((child k inner spent).map (enter index ⟨repetition, k⟩)).or
        (seek among index count children ⟨repetition, k + 1⟩ [] 0) := by
  have hfirst : ∀ f f' : LoopProgress, f.repetition = f'.repetition →
      (among (k + 1) [] 0).map (enter index f) = (among (k + 1) [] 0).map (enter index f') := by
    intro f f' hf
    unfold enter
    rw [hf]
  rw [seek, seek, findSome?_tries, findSome?_tries, if_pos hr, if_pos hr, if_pos hk,
    hchild k inner spent hk, ite_self]
  dsimp only
  rw [hfirst ⟨repetition, k + 1⟩ ⟨repetition, k⟩ rfl]
  cases child k inner spent <;> simp

include hend in
/-- Behind its last child, a loop goes on with its next repetition. -/
theorem seek_of_le {repetition k : Nat} (hr : repetition < count) (hk : children ≤ k)
    (inner : List LoopProgress) (spent : Nat) :
    seek among index count children ⟨repetition, k⟩ inner spent =
      seek among index count children ⟨repetition + 1, 0⟩ inner spent := by
  rw [seek, seek, findSome?_tries, findSome?_tries, if_pos hr, if_neg (Nat.not_lt.mpr hk)]
  dsimp only
  rw [hend k inner spent hk, Option.map_none, Option.none_or]
  by_cases hc : 0 < children
  · rw [if_pos hc]
    -- What one whole repetition does not show, the next one does not show either.
    have hlast : ∀ last : Option Found, (if repetition + 1 + 1 < count then
        (last.map (enter index ⟨repetition + 1 + 1, 0⟩)).or
          (if repetition + 1 + 2 < count then last.map (enter index ⟨repetition + 1 + 2, 0⟩)
            else none) else none) =
        if repetition + 2 < count then last.map (enter index ⟨repetition + 2, 0⟩) else none := by
      rintro (_ | last) <;> simp [Nat.add_assoc]
    rw [hlast]
  · have hnone : ∀ inner spent, among 0 inner spent = none :=
      fun inner spent => hend 0 inner spent (by omega)
    simp [hnone]

/-- The rounds that the search of a loop still takes at most, from where it stands. -/
def roundsLeft (count children : Nat) (f : LoopProgress) : Nat :=
  (count - f.repetition) * (children + 1) - min f.child children + 1

/-- The rounds that are left of a loop are within its budget. -/
theorem roundsLeft_le_budget (count children : Nat) (f : LoopProgress) :
    roundsLeft count children f ≤ budget count children := by
  have h : (count - f.repetition) * (children + 1) ≤ count * (children + 1) :=
    Nat.mul_le_mul_right _ (Nat.sub_le _ _)
  unfold roundsLeft budget
  omega

/-- A repetition that is not done yet has a round for each child, and one to turn. -/
theorem roundsLeft_of_lt {repetition : Nat} (h : repetition < count) (k : Nat) :
    roundsLeft count children ⟨repetition, k⟩ =
      (count - (repetition + 1)) * (children + 1) + (children + 1) - min k children + 1 := by
  have hsucc : count - repetition = count - (repetition + 1) + 1 := by omega
  rw [roundsLeft, hsucc, Nat.succ_mul]

theorem Lands.prefix {outer : List LoopProgress} {f : LoopProgress} {s : Search}
    (h : Lands (outer ++ [f]) none (none, s)) : ∃ rest, s.frames = outer ++ f :: rest := by
  obtain ⟨-, rest, hrest⟩ := h
  exact ⟨rest, by rw [← hrest, List.append_assoc]; rfl⟩

include hchild hend in
/-- The search of a loop in place finds its first tick, within the rounds that it takes. -/
theorem rounds_lands {search : Nat → Search → SearchResult} {outer : List LoopProgress}
    (hsearch : ∀ (k : Nat) (f : LoopProgress) (inner : List LoopProgress) (s : Search),
      s.frames = outer ++ f :: inner →
        ∃ r, search k s = .ok r ∧ Lands (outer ++ [f]) (child k inner s.spent) r)
    (hindex : ∀ k inner spent found, child k inner spent = some found → found.index = k)
    (hcap : count ≤ Binary32.wordCap) :
    ∀ (n : Nat) (f : LoopProgress) (inner : List LoopProgress) (s : Search),
      s.frames = outer ++ f :: inner → roundsLeft count children f ≤ n →
        ∃ r, rounds search index count children outer.length n s = .ok r ∧
          Lands outer (seek among index count children f inner s.spent) r
  | 0, f, _, _, _, hn => absurd hn (Nat.not_succ_le_zero _)
  | n + 1, ⟨repetition, k⟩, inner, s, hs, hn => by
    rw [rounds, Search.frame_eq hs]
    dsimp only [bind, Except.bind]
    by_cases hr : repetition < count
    swap
    · rw [if_pos (Nat.not_lt.mp hr), seek_of_done index (Nat.not_lt.mp hr)]
      exact ⟨_, rfl, rfl, hs ▸ List.prefix_append _ _⟩
    rw [if_neg (Nat.not_le.mpr hr)]
    rw [roundsLeft_of_lt hr] at hn
    by_cases hk : k < children
    · rw [if_pos hk, seek_of_lt index hchild hr hk]
      obtain ⟨⟨tick?, s'⟩, hrun, hlands⟩ := hsearch k ⟨repetition, k⟩ inner s hs
      rw [hrun]
      cases hfound : child k inner s.spent with
      | some found =>
        rw [hfound] at hlands
        obtain ⟨rfl, hframes, hspent⟩ := hlands
        refine ⟨_, rfl, congrArg some ?_, ?_, hspent⟩
        · rfl
        · rw [hframes, List.append_assoc, enter, hindex k inner s.spent found hfound]
          rfl
      | none =>
        rw [hfound] at hlands
        obtain rfl : tick? = none := hlands.1
        obtain ⟨rest, hrest⟩ := hlands.prefix
        dsimp only
        rw [Search.nextChild_eq hrest]
        refine rounds_lands hsearch hindex hcap n ⟨repetition, k + 1⟩ [] _ rfl ?_
        rw [roundsLeft_of_lt hr]
        omega
    · rw [if_neg hk, seek_of_le index hend hr (Nat.not_lt.mp hk),
        Search.turn_eq hs (Nat.lt_of_lt_of_le hr hcap)]
      refine rounds_lands hsearch hindex hcap n ⟨repetition + 1, 0⟩ inner _ rfl ?_
      rw [roundsLeft]
      dsimp only
      omega

end Loop

/-! ## Commands -/

variable {rule}

/-- A start at or before the first command is a start at that command. -/
theorem amongCommands?_of_le {i start : Nat} (h : start ≤ i) :
    ∀ (cs : List Command) (frames : List LoopProgress) (spent : Nat),
      amongCommands? rule i cs start frames spent = amongCommands? rule i cs i frames spent
  | [], _, _ => rfl
  | c :: cs, frames, spent => by
    rw [amongCommands?, amongCommands?, if_neg (by omega), if_neg (by omega),
      amongCommands?_of_le (Nat.le_succ_of_le h) cs, amongCommands?_of_le (Nat.le_succ i) cs]

/-- The first tick of a list of commands, from one of them on, is one of that command, or else one
behind it. -/
theorem amongCommands?_of_lt (i : Nat) : ∀ (cs : List Command) (k : Nat)
    (frames : List LoopProgress) (spent : Nat), k < cs.length →
      amongCommands? rule i cs (i + k) frames spent =
        (cs[k]?.bind fun c => inCommand? rule (i + k) c frames spent).or
          (amongCommands? rule i cs (i + k + 1) [] 0)
  | [], _, _, _, h => absurd h (Nat.not_lt_zero _)
  | c :: cs, 0, frames, spent, _ => by
    rw [Nat.add_zero, amongCommands?, amongCommands?, if_neg (Nat.lt_irrefl i),
      if_pos (Nat.lt_succ_self i), amongCommands?_of_le (Nat.le_succ i)]
    show _ = (inCommand? rule i c frames spent).or _
    cases inCommand? rule i c frames spent <;> rfl
  | c :: cs, k + 1, frames, spent, h => by
    have ih := amongCommands?_of_lt (i + 1) cs k frames spent (Nat.lt_of_succ_lt_succ h)
    rw [show i + 1 + k = i + (k + 1) by omega] at ih
    rw [amongCommands?, amongCommands?, if_pos (by omega), if_pos (by omega), ih]
    rfl

/-- Behind the last command there is no tick. -/
theorem amongCommands?_of_length_le {cs : List Command} {k : Nat} (h : cs.length ≤ k)
    (frames : List LoopProgress) (spent : Nat) :
    amongCommands? rule 0 cs k frames spent = none := by
  by_contra hne
  obtain ⟨found, hfound⟩ := Option.ne_none_iff_exists'.mp hne
  have := index_of_amongCommands? rule hfound
  omega

theorem inCommand?_of_disabled {b : CommandHead} {n : UInt32} {cs : List Command}
    (hd : b.flags.disabled = true) (index : Nat) (frames : List LoopProgress) (spent : Nat) :
    inCommand? rule index (.loop b n cs) frames spent = none := by
  cases frames <;> rw [inCommand?, if_pos hd]

/-- A loop without ticks is not entered. -/
theorem inCommand?_of_not_hasTicks {b : CommandHead} {n : UInt32} {cs : List Command}
    (ht : (Command.loop b n cs).hasTicks rule = false) (index : Nat) (spent : Nat) :
    inCommand? rule index (.loop b n cs) [] spent = none := by
  cases hd : b.flags.disabled with
  | true => exact inCommand?_of_disabled hd _ _ _
  | false =>
    have hn : ¬(0 < n ∧ Command.hasTicksList rule cs = true) := by
      simpa [Command.hasTicks, hd] using ht
    rw [inCommand?, if_neg (Bool.eq_false_iff.mp hd)]
    exact if_neg hn

/-- The next tick of a loop that stands somewhere. -/
theorem inCommand?_of_frame {b : CommandHead} {n : UInt32} {cs : List Command}
    (hd : b.flags.disabled = false) (index : Nat) (f : LoopProgress) (inner : List LoopProgress)
    (spent : Nat) : inCommand? rule index (.loop b n cs) (f :: inner) spent =
      seek (amongCommands? rule 0 cs) index n.toNat cs.length f inner spent := by
  rw [inCommand?, if_neg (Bool.eq_false_iff.mp hd)]
  rfl

/-- The next tick of a loop that was not entered yet. -/
theorem inCommand?_of_nil {b : CommandHead} {n : UInt32} {cs : List Command}
    (hd : b.flags.disabled = false) (ht : (Command.loop b n cs).hasTicks rule = true) (index : Nat)
    (spent : Nat) : inCommand? rule index (.loop b n cs) [] spent =
      seek (amongCommands? rule 0 cs) index n.toNat cs.length ⟨0, 0⟩ [] spent := by
  have ht : 0 < n ∧ Command.hasTicksList rule cs = true := by
    simpa [Command.hasTicks, hd] using ht
  rw [inCommand?, if_neg (Bool.eq_false_iff.mp hd)]
  exact if_pos ht

/-- The search of the commands of a loop finds the next tick of the loop, if the search of a child
finds the next tick of that child. -/
theorem rounds_settleChild_lands {cs : List Command}
    (hchildren : ∀ (k : Nat) (outer inner : List LoopProgress) (s : Search),
      s.frames = outer ++ inner →
        ∃ r, settleChild rule outer.length 0 cs k s = .ok r ∧
          Lands outer (cs[k]?.bind fun c => inCommand? rule (0 + k) c inner s.spent) r)
    (index : Nat) (n : UInt32) {outer inner : List LoopProgress} {f : LoopProgress} {s : Search}
    (hs : s.frames = outer ++ f :: inner) :
    ∃ r, rounds (settleChild rule (outer.length + 1) 0 cs) index n.toNat cs.length outer.length
        (budget n.toNat cs.length) s = .ok r ∧
      Lands outer (seek (amongCommands? rule 0 cs) index n.toNat cs.length f inner s.spent) r := by
  have hcap : n.toNat ≤ Binary32.wordCap := Nat.le_of_lt_succ n.toNat_lt
  have hfirst : ∀ k frames spent, k < cs.length →
      amongCommands? rule 0 cs k frames spent =
        (cs[k]?.bind fun c => inCommand? rule k c frames spent).or
          (amongCommands? rule 0 cs (k + 1) [] 0) := fun k frames spent hk => by
    have h := @amongCommands?_of_lt rule 0 cs k frames spent hk
    rwa [Nat.zero_add] at h
  refine rounds_lands index hfirst (fun k frames spent hk => amongCommands?_of_length_le hk _ _)
    (fun k f inner s hs => ?_) (fun k frames spent found hfound => ?_) hcap _ f inner s hs
    (roundsLeft_le_budget _ _ _)
  · have h := hchildren k (outer ++ [f]) inner s (by rw [hs, List.append_assoc]; rfl)
    rwa [List.length_append, Nat.zero_add] at h
  · obtain ⟨c, -, hc⟩ := Option.bind_eq_some_iff.mp hfound
    exact index_of_inCommand? rule hc

mutual

/-- The search of a command in place finds its next tick. -/
theorem settleIn_lands (index : Nat) : ∀ (c : Command) (outer inner : List LoopProgress)
    (s : Search), s.frames = outer ++ inner →
      ∃ r, settleIn rule outer.length index c s = .ok r ∧
        Lands outer (inCommand? rule index c inner s.spent) r
  | .leaf b, outer, inner, s, hs => by
    unfold settleIn inCommand?
    by_cases hd : b.flags.disabled = true
    · rw [if_pos hd, if_pos hd]
      exact ⟨_, rfl, rfl, hs ▸ List.prefix_append _ _⟩
    · rw [if_neg hd, if_neg hd]
      by_cases hlt : s.spent < rule.leafTicks b
      · rw [if_pos hlt, if_pos hlt]
        exact ⟨_, rfl, rfl, hs, rfl⟩
      · rw [if_neg hlt, if_neg hlt]
        exact ⟨_, rfl, rfl, hs ▸ List.prefix_append _ _⟩
  | .loop b n cs, outer, inner, s, hs => by
    by_cases hd : b.flags.disabled = true
    · rw [settleIn, if_pos hd, inCommand?_of_disabled hd]
      exact ⟨_, rfl, rfl, hs ▸ List.prefix_append _ _⟩
    have hd' : b.flags.disabled = false := Bool.eq_false_iff.mpr hd
    rw [settleIn, if_neg hd]
    cases inner with
    | nil =>
      rw [List.append_nil] at hs
      by_cases ht : (Command.loop b n cs).hasTicks rule = true
      · rw [if_neg (fun h => Bool.noConfusion (ht.symm.trans h.2)), inCommand?_of_nil hd' ht,
          Search.arrive_eq hs]
        exact rounds_settleChild_lands (settleChild_lands 0 cs) index n rfl
      · have ht : (Command.loop b n cs).hasTicks rule = false := Bool.eq_false_iff.mpr ht
        rw [if_pos ⟨Nat.le_of_eq (congrArg List.length hs), ht⟩, inCommand?_of_not_hasTicks ht]
        exact ⟨_, rfl, rfl, hs ▸ List.prefix_rfl⟩
    | cons f inner =>
      have hlen : ¬s.frames.length ≤ outer.length := by
        rw [hs, List.length_append, List.length_cons]
        omega
      rw [if_neg (fun h => hlen h.1), inCommand?_of_frame hd', Search.arrive_of_frame hs]
      exact rounds_settleChild_lands (settleChild_lands 0 cs) index n hs

/-- The search of a child in place finds the next tick of that child. -/
theorem settleChild_lands (index : Nat) : ∀ (cs : List Command) (k : Nat)
    (outer inner : List LoopProgress) (s : Search), s.frames = outer ++ inner →
      ∃ r, settleChild rule outer.length index cs k s = .ok r ∧
        Lands outer (cs[k]?.bind fun c => inCommand? rule (index + k) c inner s.spent) r
  | [], _, outer, inner, s, hs => ⟨_, rfl, rfl, hs ▸ List.prefix_append _ _⟩
  | c :: cs, 0, outer, inner, s, hs => settleIn_lands index c outer inner s hs
  | c :: cs, k + 1, outer, inner, s, hs => by
    have h := settleChild_lands (index + 1) cs k outer inner s hs
    rwa [show index + 1 + k = index + (k + 1) by omega] at h

end

/-! ## What a search keeps -/

/-- The second property holds where a search finds a tick, and the first one is kept until then. -/
structure Keeps (rule : WaitRule) (P Q : Search → Prop) : Prop where
  find : ∀ {s : Search} {b : CommandHead}, P s → s.spent < rule.leafTicks b → Q s
  arrive : ∀ {s : Search} {depth : Nat} {c : Command}, P s →
    (s.frames.length ≤ depth → c.hasTicks rule = true) → P (s.arrive depth c)
  nextChild : ∀ {s s' : Search} {depth : Nat}, P s → s.nextChild depth = .ok s' → P s'
  turn : ∀ {s s' : Search} {depth : Nat}, P s → s.turn depth = .ok s' → P s'
  cleared : ∀ {s : Search}, P s → P s.cleared

/-- What holds once a search has come to that. -/
def AfterSearch {β : Type} (P Q : Search → Prop) : Option β × Search → Prop
  | (some _, s) => Q s
  | (none, s) => P s

section Keeps

variable {P Q : Search → Prop}

/-- What the search in a loop body keeps is kept by all rounds of the loop. -/
theorem Keeps.rounds (hk : Keeps rule P Q) {search : Nat → Search → SearchResult}
    (hsearch : ∀ {k : Nat} {s : Search} {r}, P s → search k s = .ok r → AfterSearch P Q r)
    {index count children depth : Nat} :
    ∀ {n : Nat} {s : Search} {r}, P s →
      Walk.rounds search index count children depth n s = .ok r → AfterSearch P Q r
  | 0, _, _, _, h => nomatch h
  | n + 1, s, r, hp, h => by
    rw [Walk.rounds] at h
    cases hf : s.frame depth with
    | error e => rw [hf] at h; cases h
    | ok f =>
      rw [hf] at h
      dsimp only [bind, Except.bind] at h
      split at h
      · obtain rfl := Except.ok.inj h
        exact hp
      · split at h
        · cases hrun : search f.child s with
          | error e => rw [hrun] at h; cases h
          | ok r' =>
            rw [hrun] at h
            have hafter := hsearch hp hrun
            obtain ⟨_ | tick, s'⟩ := r'
            · cases hnext : s'.nextChild depth with
              | error e => dsimp only at h; rw [hnext] at h; cases h
              | ok s'' =>
                dsimp only at h
                rw [hnext] at h
                exact rounds hk hsearch (hk.nextChild hafter hnext) h
            · obtain rfl := Except.ok.inj h
              exact hafter
        · cases hturn : s.turn depth with
          | error e => rw [hturn] at h; cases h
          | ok s' =>
            rw [hturn] at h
            exact rounds hk hsearch (hk.turn hp hturn) h

mutual

/-- What is kept by each change of a frame is kept by the search in a command. -/
theorem Keeps.settleIn (hk : Keeps rule P Q) {depth index : Nat} :
    ∀ (c : Command) {s : Search} {r}, P s →
      Walk.settleIn rule depth index c s = .ok r → AfterSearch P Q r
  | .leaf b, s, r, hp, h => by
    rw [Walk.settleIn] at h
    split at h
    · obtain rfl := Except.ok.inj h
      exact hp
    · split at h
      · next hlt =>
        obtain rfl := Except.ok.inj h
        exact hk.find hp hlt
      · obtain rfl := Except.ok.inj h
        exact hp
  | .loop b n cs, s, r, hp, h => by
    rw [Walk.settleIn] at h
    split at h
    · obtain rfl := Except.ok.inj h
      exact hp
    · split at h
      · obtain rfl := Except.ok.inj h
        exact hp
      · next hticks =>
        refine hk.rounds (settleChild hk cs) (hk.arrive hp ?_) h
        intro hlen
        exact eq_true_of_ne_false fun ht => hticks ⟨hlen, ht⟩

theorem Keeps.settleChild (hk : Keeps rule P Q) {depth index : Nat} :
    ∀ (cs : List Command) {k : Nat} {s : Search} {r}, P s →
      Walk.settleChild rule depth index cs k s = .ok r → AfterSearch P Q r
  | [], _, _, _, hp, h => by
    obtain rfl := Except.ok.inj h
    exact hp
  | c :: _, 0, _, _, hp, h => settleIn hk c hp h
  | _ :: cs, _ + 1, _, _, hp, h => settleChild hk cs hp h

end

theorem Keeps.settleTop (hk : Keeps rule P Q) {index : Nat} :
    ∀ {cs : List Command} {s : Search} {r}, P s →
      Walk.settleTop rule index cs s = .ok r → AfterSearch P Q r
  | [], _, _, hp, h => by
    obtain rfl := Except.ok.inj h
    exact hp
  | c :: cs, s, r, hp, h => by
    rw [Walk.settleTop] at h
    cases hrun : Walk.settleIn rule 0 index c s with
    | error e => rw [hrun] at h; cases h
    | ok r' =>
      rw [hrun] at h
      have hafter := hk.settleIn c hp hrun
      obtain ⟨_ | tick, s'⟩ := r'
      · exact settleTop hk (hk.cleared hafter) h
      · obtain rfl := Except.ok.inj h
        exact hafter

end Keeps

/-! ## Scripts -/

/-- The commands in front of the one that the walk stands at do not matter. -/
theorem amongCommands?_drop (i : Nat) : ∀ (k : Nat) (cs : List Command)
    (frames : List LoopProgress) (spent : Nat),
      amongCommands? rule (i + k) (cs.drop k) (i + k) frames spent =
        amongCommands? rule i cs (i + k) frames spent
  | 0, _, _, _ => rfl
  | k + 1, [], _, _ => rfl
  | k + 1, c :: cs, frames, spent => by
    have ih := amongCommands?_drop (i + 1) k cs frames spent
    rw [show i + 1 + k = i + (k + 1) by omega] at ih
    rw [List.drop_succ_cons, ih, amongCommands?, if_pos (by omega)]

/-- The search of the top-level commands in place finds their next tick. -/
theorem settleTop_lands (index : Nat) : ∀ (cs : List Command) (s : Search),
    ∃ s', settleTop rule index cs s = .ok
        ((amongCommands? rule index cs index s.frames s.spent).map fun found =>
          (found.index, found.tick), s') ∧
      ∀ found, amongCommands? rule index cs index s.frames s.spent = some found →
        s'.frames = found.frames ∧ s'.spent = found.spent
  | [], s => ⟨s, rfl, nofun⟩
  | c :: cs, s => by
    obtain ⟨⟨tick?, s'⟩, hrun, hlands⟩ := settleIn_lands index c [] s.frames s rfl
    rw [List.length_nil] at hrun
    rw [settleTop, hrun, amongCommands?, if_neg (Nat.lt_irrefl index)]
    cases hfound : inCommand? rule index c s.frames s.spent with
    | some found =>
      rw [hfound] at hlands
      obtain ⟨rfl, hframes, hspent⟩ := hlands
      refine ⟨s', ?_, fun found' h => ?_⟩
      · rw [Option.map_some, index_of_inCommand? rule hfound]
        rfl
      · obtain rfl := Option.some.inj h
        exact ⟨hframes, hspent⟩
    | none =>
      rw [hfound] at hlands
      obtain rfl : tick? = none := hlands.1
      have ih := settleTop_lands (index + 1) cs s'.cleared
      rwa [amongCommands?_of_le (Nat.le_succ index)]

end Walk

/-- What a walk in place comes to : the next tick with the cursor that stands at it, if there is
one, and the trail of the search. -/
structure Settling where
  found : Option (Cursor × Tick)
  /-- The depths at which a frame was turned to the next repetition, in order. -/
  turned : List Nat
  /-- The loops entered, in order. -/
  entered : List Command

namespace Cursor

/-- The walk moves in place to the next tick. -/
def settle (rule : WaitRule) (s : Script) (c : Cursor) : Except WalkFault Settling := do
  let (found, s) ← Walk.settleTop rule c.top (s.commands.drop c.top) ⟨c.frames, c.spent, [], []⟩
  return ⟨found.map fun (top, tick) => (⟨top, s.frames, s.spent⟩, tick), s.turned, s.entered⟩

/-- What the walk in place comes to is what the search of the commands from the cursor on does. -/
theorem settle_cases {rule : WaitRule} {s : Script} {c : Cursor} {st : Settling}
    (h : c.settle rule s = .ok st) : ∃ found? s',
      Walk.settleTop rule c.top (s.commands.drop c.top) ⟨c.frames, c.spent, [], []⟩ =
        .ok (found?, s') ∧
      st = ⟨found?.map fun (top, tick) => (⟨top, s'.frames, s'.spent⟩, tick), s'.turned,
        s'.entered⟩ := by
  unfold settle at h
  cases hrun : Walk.settleTop rule c.top (s.commands.drop c.top) ⟨c.frames, c.spent, [], []⟩ with
  | error e => rw [hrun] at h; cases h
  | ok r =>
    rw [hrun] at h
    exact ⟨r.1, r.2, rfl, (Except.ok.inj h).symm⟩

/-- The walk in place always comes to an end without a fault, at the next tick. -/
theorem settle_eq (rule : WaitRule) (s : Script) (c : Cursor) :
    ∃ turned entered, c.settle rule s = .ok ⟨c.next? rule s, turned, entered⟩ := by
  obtain ⟨s', hrun, hs'⟩ := @Walk.settleTop_lands rule c.top (s.commands.drop c.top)
    ⟨c.frames, c.spent, [], []⟩
  have hdrop := @Walk.amongCommands?_drop rule 0 c.top s.commands c.frames c.spent
  rw [Nat.zero_add] at hdrop
  rw [hdrop] at hrun hs'
  refine ⟨s'.turned, s'.entered, ?_⟩
  rw [settle, hrun, next?]
  cases hfound : Walk.amongCommands? rule 0 s.commands c.top c.frames c.spent with
  | none => rfl
  | some found =>
    obtain ⟨hframes, hspent⟩ := hs' found hfound
    show Except.ok _ = _
    rw [Option.map_some, Option.map_some, Option.map_some, hframes, hspent]
    rfl

/-- What the walk in place finds is the next tick. -/
theorem found_of_settle {rule : WaitRule} {s : Script} {c : Cursor} {st : Settling}
    (h : c.settle rule s = .ok st) : st.found = c.next? rule s := by
  obtain ⟨turned, entered, heq⟩ := settle_eq rule s c
  obtain rfl := Except.ok.inj (h.symm.trans heq)
  rfl

end Cursor

end Tandem
