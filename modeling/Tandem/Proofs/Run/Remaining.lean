import Tandem.Proofs.Script.Expansion
import Tandem.Proofs.Script.Running

/-!
# What remains of a walk

A cursor stands somewhere in the expansion of a script. `Cursor.remaining` is the part of the
expansion that is still ahead of it, read off the tree and the cursor in one go. The walk makes
exactly these ticks, one after the other : it stops if nothing remains
(`remaining_of_next?_eq_none`), and else finds the first of the remaining ticks and a cursor from
which the same ticks remain, and the others do once that tick is spent
(`remaining_of_next?_eq_some`). This holds of every cursor, also of one that was left behind by
another script. At the start, the whole expansion remains (`remaining_start`).

Running flags do not matter for what remains (`remaining_congr`).
-/

namespace Tandem

namespace Walk

/-- The ticks of a loop that remain from where it stands, if `among child inner spent` are those
that remain of one repetition from the child of that index on. A loop that stands behind its last
child goes on with its next repetition, in which what the cursor says about loops further inside
still counts. -/
def loopRemaining (among : Nat → List LoopProgress → Nat → List Tick) (count children : Nat)
    (f : LoopProgress) (inner : List LoopProgress) (spent : Nat) : List Tick :=
  let body := among 0 [] 0
  if count ≤ f.repetition then []
  else if f.child < children then
    among f.child inner spent ++ (List.replicate (count - f.repetition - 1) body).flatten
  else if count ≤ f.repetition + 1 then []
  else among 0 inner spent ++ (List.replicate (count - f.repetition - 2) body).flatten

variable (rule : WaitRule)

mutual

/-- The ticks that remain of the command, which has that index, from a position inside it. -/
def remainingIn (i : Nat) : Command → List LoopProgress → Nat → List Tick
  | .leaf b, _, spent =>
    if b.flags.disabled then []
    else List.replicate (rule.leafTicks b - spent) (rule.leafTick i b)
  | .loop b n cs, frames, spent =>
    if b.flags.disabled then []
    else
      (loopRemaining (remainingAmong 0 cs) n.toNat cs.length (frames.headD ⟨0, 0⟩) frames.tail
        spent).map (Tick.inside i)
termination_by structural c => c

/-- The ticks that remain of the commands, the first of which has that index, from a position
inside the command of index `start`. -/
def remainingAmong (i : Nat) : List Command → Nat → List LoopProgress → Nat → List Tick
  | [], _, _, _ => []
  | c :: cs, start, frames, spent =>
    if i < start then remainingAmong (i + 1) cs start frames spent
    else remainingIn i c frames spent ++ remainingAmong (i + 1) cs start [] 0
termination_by structural cs => cs

end

/-! ## From the start, everything remains -/

/-- A start at or before the first command is a start at that command. -/
theorem remainingAmong_of_le {i start : Nat} (h : start ≤ i) :
    ∀ (cs : List Command) (frames : List LoopProgress) (spent : Nat),
      remainingAmong rule i cs start frames spent = remainingAmong rule i cs i frames spent
  | [], _, _ => rfl
  | c :: cs, frames, spent => by
    rw [remainingAmong, remainingAmong, if_neg (by omega), if_neg (by omega),
      remainingAmong_of_le (Nat.le_succ_of_le h) cs, remainingAmong_of_le (Nat.le_succ i) cs]

theorem loopRemaining_start (among : Nat → List LoopProgress → Nat → List Tick)
    {count children : Nat} (h : children = 0 → among 0 [] 0 = []) :
    loopRemaining among count children ⟨0, 0⟩ [] 0 =
      (List.replicate count (among 0 [] 0)).flatten := by
  unfold loopRemaining
  rcases count with _ | count
  · rfl
  · rcases children with _ | children
    · simp [h rfl]
    · simp [List.replicate_succ]

mutual

/-- Of a command that is not begun, all its ticks remain. -/
theorem remainingIn_start (i : Nat) : ∀ c : Command, remainingIn rule i c [] 0 = c.expansion rule i
  | .leaf b => by simp [remainingIn, Command.expansion]
  | .loop b n cs => by
    have hb := remainingAmong_start 0 cs
    have h : cs.length = 0 → remainingAmong rule 0 cs 0 [] 0 = [] := by
      intro h0
      rw [List.length_eq_zero_iff.1 h0, remainingAmong]
    rw [remainingIn, Command.expansion, List.headD_nil, List.tail_nil,
      loopRemaining_start _ h, hb]

theorem remainingAmong_start (i : Nat) : ∀ cs : List Command,
    remainingAmong rule i cs i [] 0 = Command.expansionList rule i cs
  | [] => rfl
  | c :: cs => by
    rw [remainingAmong, if_neg (Nat.lt_irrefl i), Command.expansionList, remainingIn_start i c,
      remainingAmong_of_le rule (Nat.le_succ i), remainingAmong_start (i + 1) cs]

end

/-! ## Nothing remains of what has no ticks -/

/-- Nothing remains of a loop without rounds, or without ticks in them. -/
theorem loopRemaining_of_nil {among : Nat → List LoopProgress → Nat → List Tick} {count : Nat}
    (h : count = 0 ∨ ∀ child inner spent, among child inner spent = []) (children : Nat)
    (f : LoopProgress) (inner : List LoopProgress) (spent : Nat) :
    loopRemaining among count children f inner spent = [] := by
  unfold loopRemaining
  rcases h with rfl | h
  · simp
  · simp [h]

mutual

/-- Nothing remains of a command without ticks. -/
theorem remainingIn_of_ticks (i : Nat) : ∀ (c : Command) (frames : List LoopProgress)
    (spent : Nat), c.ticks rule = 0 → remainingIn rule i c frames spent = []
  | .leaf b, frames, spent, h => by
    unfold remainingIn
    unfold Command.ticks at h
    split at h <;> simp_all
  | .loop b n cs, frames, spent, h => by
    unfold remainingIn
    unfold Command.ticks at h
    split at h
    · simp_all
    · have hc : n.toNat = 0 ∨
          ∀ child inner spent, remainingAmong rule 0 cs child inner spent = [] := by
        rcases Nat.mul_eq_zero.1 h with h0 | h0
        · exact Or.inl h0
        · exact Or.inr fun child inner spent => remainingAmong_of_ticks 0 cs child inner spent h0
      simp [loopRemaining_of_nil hc]

theorem remainingAmong_of_ticks (i : Nat) : ∀ (cs : List Command) (start : Nat)
    (frames : List LoopProgress) (spent : Nat), Command.ticksList rule cs = 0 →
      remainingAmong rule i cs start frames spent = []
  | [], _, _, _, _ => rfl
  | c :: cs, start, frames, spent, h => by
    rw [Command.ticksList, Nat.add_eq_zero_iff] at h
    rw [remainingAmong, remainingAmong_of_ticks (i + 1) cs start frames spent h.2,
      remainingAmong_of_ticks (i + 1) cs start [] 0 h.2, remainingIn_of_ticks i c frames spent h.1]
    simp

end

/-! ## No more remains than there is -/

/-- Of a loop no more ticks remain than it takes. -/
theorem length_loopRemaining_le {among : Nat → List LoopProgress → Nat → List Tick} {ticks : Nat}
    (h : ∀ child inner spent, (among child inner spent).length ≤ ticks) (count children : Nat)
    (f : LoopProgress) (inner : List LoopProgress) (spent : Nat) :
    (loopRemaining among count children f inner spent).length ≤ count * ticks := by
  have whole : ∀ {child spent : Nat} {n : Nat}, n + 1 ≤ count → (among child inner spent ++
      (List.replicate n (among 0 [] 0)).flatten).length ≤ count * ticks := by
    intro child spent n hn
    calc (among child inner spent ++ (List.replicate n (among 0 [] 0)).flatten).length
        = (among child inner spent).length + n * (among 0 [] 0).length := by simp
      _ ≤ ticks + n * ticks := Nat.add_le_add (h _ _ _) (Nat.mul_le_mul_left n (h _ _ _))
      _ = (n + 1) * ticks := by rw [Nat.add_mul, Nat.one_mul, Nat.add_comm]
      _ ≤ count * ticks := Nat.mul_le_mul_right ticks hn
  unfold loopRemaining
  dsimp only
  split
  · exact Nat.zero_le _
  · split
    · exact whole (by omega)
    · split
      · exact Nat.zero_le _
      · exact whole (by omega)

mutual

/-- Of a command no more ticks remain than it takes. -/
theorem length_remainingIn_le (i : Nat) : ∀ (c : Command) (frames : List LoopProgress)
    (spent : Nat), (remainingIn rule i c frames spent).length ≤ c.ticks rule
  | .leaf b, frames, spent => by
    unfold remainingIn Command.ticks
    split
    · exact Nat.zero_le _
    · rw [List.length_replicate]
      exact Nat.sub_le _ _
  | .loop b n cs, frames, spent => by
    unfold remainingIn Command.ticks
    split
    · exact Nat.zero_le _
    · rw [List.length_map]
      exact length_loopRemaining_le (length_remainingAmong_le 0 cs) _ _ _ _ _

theorem length_remainingAmong_le (i : Nat) : ∀ (cs : List Command) (start : Nat)
    (frames : List LoopProgress) (spent : Nat),
      (remainingAmong rule i cs start frames spent).length ≤ Command.ticksList rule cs
  | [], _, _, _ => Nat.le_refl 0
  | c :: cs, start, frames, spent => by
    rw [remainingAmong, Command.ticksList]
    split
    · exact Nat.le_trans (length_remainingAmong_le (i + 1) cs start frames spent)
        (Nat.le_add_left _ _)
    · rw [List.length_append]
      exact Nat.add_le_add (length_remainingIn_le i c frames spent)
        (length_remainingAmong_le (i + 1) cs start [] 0)

end

/-! ## The walk makes what remains -/

end Walk

/-- The tick that was found, as seen from the commands that it was looked for in. -/
def Found.tick (found : Found) : Tick :=
  ⟨found.index :: found.below, found.name, found.args, found.wait⟩

namespace Walk

/-- The search has found the first of the ticks that remain, if there is one. From the position
that it gives, the same ticks remain, and the others do once that tick is spent : `again` is what
remains from a position inside the command of that index. -/
def Finds (ticks : List Tick) (again : Nat → List LoopProgress → Nat → List Tick) :
    Option Found → Prop
  | none => ticks = []
  | some found =>
    again found.index found.frames found.spent = ticks ∧
      ticks = found.tick :: again found.index found.frames (found.spent + 1)

section Loop

variable {search : Nat → List LoopProgress → Nat → Option Found}
  {among : Nat → List LoopProgress → Nat → List Tick} {count children : Nat}

/-- What remains of a loop, from a position inside one of its children. -/
theorem loopRemaining_of_lt (inner : List LoopProgress) (spent : Nat) {repetition child : Nat}
    (hr : repetition < count) (hc : child < children) :
    loopRemaining among count children ⟨repetition, child⟩ inner spent = among child inner spent ++
      (List.replicate (count - repetition - 1) (among 0 [] 0)).flatten := by
  simp only [loopRemaining]
  rw [if_neg (by omega), if_pos hc]

/-- The tries of a loop, one after the other. -/
theorem findSome?_tries {β : Type} (g : LoopProgress × List LoopProgress × Nat → Option β)
    (repetition child : Nat) (inner : List LoopProgress) (spent : Nat) :
    (tries count children ⟨repetition, child⟩ inner spent).findSome? g =
      if repetition < count then
        (g (⟨repetition, child⟩, inner, spent)).or <|
          if repetition + 1 < count then
            (g (⟨repetition + 1, 0⟩, if child < children then ([], 0) else (inner, spent))).or <|
              if repetition + 2 < count then g (⟨repetition + 2, 0⟩, [], 0) else none
          else none
      else none := by
  unfold tries
  generalize h1 : g (⟨repetition, child⟩, inner, spent) = first
  generalize h2 : g (⟨repetition + 1, 0⟩, if child < children then ([], 0) else (inner, spent)) =
    second
  by_cases hr : repetition < count
  · by_cases hr1 : repetition + 1 < count
    · by_cases hr2 : repetition + 2 < count <;> cases first <;> cases second <;>
        simp [hr, hr1, hr2, h1, h2]
    · have hr2 : ¬repetition + 2 < count := by omega
      cases first <;> simp [hr, hr1, hr2, h1]
  · have hr1 : ¬repetition + 1 < count := by omega
    have hr2 : ¬repetition + 2 < count := by omega
    simp [hr, hr1, hr2]

variable (i : Nat)
  (hs : ∀ child inner spent, Finds (among child inner spent) among (search child inner spent))
  (hi : ∀ child inner spent found, search child inner spent = some found →
    child ≤ found.index ∧ found.index < children)

include hs

theorem among_of_none {child : Nat} {inner : List LoopProgress} {spent : Nat}
    (h : search child inner spent = none) : among child inner spent = [] := by
  have hf := hs child inner spent
  rwa [h] at hf

include hi

/-- A tick found in one repetition is the first one of what remains of the loop. -/
theorem finds_enter {repetition child : Nat} {inner : List LoopProgress} {spent : Nat}
    {found : Found} (h : search child inner spent = some found) (hr : repetition < count) :
    Finds ((among child inner spent ++
        (List.replicate (count - repetition - 1) (among 0 [] 0)).flatten).map (Tick.inside i))
      (fun _ frames spent => (loopRemaining among count children (frames.headD ⟨0, 0⟩) frames.tail
        spent).map (Tick.inside i))
      (some (enter i ⟨repetition, child⟩ found)) := by
  have hf := hs child inner spent
  rw [h] at hf
  obtain ⟨hsame, hrest⟩ := hf
  have hlt := (hi child inner spent found h).2
  refine ⟨?_, ?_⟩
  · simp only [enter, List.headD_cons, List.tail_cons]
    rw [loopRemaining_of_lt _ _ hr hlt, hsame]
  · simp only [enter, List.headD_cons, List.tail_cons]
    rw [loopRemaining_of_lt _ _ hr hlt, hrest]
    rfl

/-- The repetitions after one are still whole, and the first of them shows whether anything is left
in them. -/
theorem finds_later (repetition : Nat) :
    Finds ((List.replicate (count - repetition - 1) (among 0 [] 0)).flatten.map (Tick.inside i))
      (fun _ frames spent => (loopRemaining among count children (frames.headD ⟨0, 0⟩) frames.tail
        spent).map (Tick.inside i))
      (if repetition + 1 < count then
        (search 0 [] 0).map (enter i ⟨repetition + 1, 0⟩) else none) := by
  by_cases hr : repetition + 1 < count
  · rw [if_pos hr, show count - repetition - 1 = count - (repetition + 1) - 1 + 1 by omega,
      List.replicate_succ, List.flatten_cons]
    cases h : search 0 [] 0 with
    | some found => exact finds_enter i hs hi h hr
    | none => simp [among_of_none hs h, Finds]
  · rw [if_neg hr, show count - repetition - 1 = 0 by omega]
    rfl

/-- The tries of a loop find the first of the ticks that remain of it. -/
theorem finds_tries (f : LoopProgress) (inner : List LoopProgress) (spent : Nat) :
    Finds ((loopRemaining among count children f inner spent).map (Tick.inside i))
      (fun _ frames spent => (loopRemaining among count children (frames.headD ⟨0, 0⟩) frames.tail
        spent).map (Tick.inside i))
      ((tries count children f inner spent).findSome? fun t =>
        (search t.1.child t.2.1 t.2.2).map (enter i t.1)) := by
  obtain ⟨repetition, child⟩ := f
  rw [findSome?_tries]
  simp only [loopRemaining]
  by_cases hr : repetition < count
  swap
  · rw [if_neg hr, if_pos (by omega)]
    rfl
  rw [if_pos hr, if_neg (by omega : ¬count ≤ repetition)]
  by_cases hc : child < children
  · rw [if_pos hc]
    cases h : search child inner spent with
    | some found => exact finds_enter i hs hi h hr
    | none =>
      -- What one whole repetition does not show, the next one does not show either.
      have hlast : ∀ last : Option Found, (last.map (enter i ⟨repetition + 1, 0⟩)).or
          (if repetition + 2 < count then last.map (enter i ⟨repetition + 2, 0⟩) else none) =
          last.map (enter i ⟨repetition + 1, 0⟩) := by
        rintro (_ | last) <;> simp
      rw [among_of_none hs h, List.nil_append, Option.map_none, Option.none_or, if_pos hc, hlast]
      exact finds_later i hs hi repetition
  · have h : search child inner spent = none := by
      by_contra hne
      obtain ⟨found, h⟩ := Option.ne_none_iff_exists'.1 hne
      have := hi child inner spent found h
      omega
    rw [if_neg hc, h, Option.map_none, Option.none_or, if_neg hc]
    by_cases hr1 : repetition + 1 < count
    swap
    · rw [if_neg hr1, if_pos (by omega)]
      rfl
    rw [if_pos hr1, if_neg (by omega : ¬count ≤ repetition + 1),
      show count - repetition - 2 = count - (repetition + 1) - 1 by omega]
    cases h1 : search 0 inner spent with
    | some found => exact finds_enter i hs hi h1 hr1
    | none =>
      rw [among_of_none hs h1, List.nil_append, Option.map_none, Option.none_or]
      exact finds_later i hs hi (repetition + 1)

end Loop

variable (rule : WaitRule)

/-- The tick that is found in a command belongs to it. -/
theorem index_of_inCommand? {i : Nat} {frames : List LoopProgress} {spent : Nat} {found : Found} :
    ∀ {c : Command}, inCommand? rule i c frames spent = some found → found.index = i
  | .leaf b, h => by
    unfold inCommand? at h
    split at h
    · simp at h
    · split at h
      · obtain rfl := Option.some.inj h
        rfl
      · simp at h
  | .loop b n cs, h => by
    have of_tries : ∀ f inner, ((tries n.toNat cs.length f inner spent).findSome?
        fun t => (amongCommands? rule 0 cs t.1.child t.2.1 t.2.2).map (enter i t.1)) =
          some found → found.index = i := by
      intro f inner h
      obtain ⟨t, -, ht⟩ := List.exists_of_findSome?_eq_some h
      obtain ⟨inside, -, rfl⟩ := Option.map_eq_some_iff.1 ht
      rfl
    unfold inCommand? at h
    split at h
    · simp at h
    · split at h
      · split at h
        · exact of_tries _ _ h
        · simp at h
      · exact of_tries _ _ h

/-- The tick that is found among commands belongs to one that has not been passed. -/
theorem index_of_amongCommands? {found : Found} : ∀ {cs : List Command} {i start : Nat}
    {frames : List LoopProgress} {spent : Nat},
    amongCommands? rule i cs start frames spent = some found →
      start ≤ found.index ∧ i ≤ found.index ∧ found.index < i + cs.length
  | [], _, _, _, _, h => by simp [amongCommands?] at h
  | c :: cs, i, start, frames, spent, h => by
    unfold amongCommands? at h
    rw [List.length_cons]
    split at h
    · have := index_of_amongCommands? h
      omega
    · cases hc : inCommand? rule i c frames spent with
      | some inside =>
        rw [hc] at h
        obtain rfl := Option.some.inj h
        have := index_of_inCommand? rule hc
        omega
      | none =>
        rw [hc] at h
        have := index_of_amongCommands? h
        omega

/-- A loop without ticks is not entered, and nothing remains of it. -/
theorem nil_of_not_hasTicks {n : UInt32} {cs : List Command}
    (h : ¬(0 < n ∧ Command.hasTicksList rule cs = true)) :
    n.toNat = 0 ∨ ∀ child inner spent, remainingAmong rule 0 cs child inner spent = [] := by
  rw [UInt32.lt_iff_toNat_lt, Command.hasTicksList_iff] at h
  by_cases hn : n.toNat = 0
  · exact Or.inl hn
  · have h0 : Command.ticksList rule cs = 0 := by
      by_contra h0
      exact h ⟨Nat.pos_of_ne_zero hn, Nat.pos_of_ne_zero h0⟩
    exact Or.inr fun child inner spent => remainingAmong_of_ticks rule 0 cs child inner spent h0

/-- A tick behind the first command is found from a position behind it, too. -/
theorem finds_behind {i : Nat} (c : Command) {cs : List Command} {ticks : List Tick} {start : Nat}
    {frames : List LoopProgress} {spent : Nat}
    (h : Finds ticks (remainingAmong rule (i + 1) cs)
      (amongCommands? rule (i + 1) cs start frames spent)) :
    Finds ticks (remainingAmong rule i (c :: cs))
      (amongCommands? rule (i + 1) cs start frames spent) := by
  cases hf : amongCommands? rule (i + 1) cs start frames spent with
  | none => rwa [hf] at h
  | some found =>
    rw [hf] at h
    have hlt : i < found.index := (index_of_amongCommands? rule hf).2.1
    refine ⟨?_, ?_⟩
    · rw [remainingAmong, if_pos hlt]
      exact h.1
    · rw [remainingAmong, if_pos hlt]
      exact h.2

mutual

/-- The search in a command finds the first tick that remains. -/
theorem finds_inCommand? (i : Nat) : ∀ (c : Command) (frames : List LoopProgress) (spent : Nat),
    Finds (remainingIn rule i c frames spent) (fun _ => remainingIn rule i c)
      (inCommand? rule i c frames spent)
  | .leaf b, frames, spent => by
    unfold inCommand?
    by_cases hd : b.flags.disabled = true
    · simp [remainingIn, hd, Finds]
    · rw [if_neg hd]
      by_cases hlt : spent < rule.leafTicks b
      · rw [if_pos hlt]
        refine ⟨rfl, ?_⟩
        simp only [remainingIn, if_neg hd]
        rw [show rule.leafTicks b - spent = rule.leafTicks b - (spent + 1) + 1 by omega,
          List.replicate_succ]
        rfl
      · rw [if_neg hlt, Finds, remainingIn, if_neg hd, show rule.leafTicks b - spent = 0 by omega]
        rfl
  | .loop b n cs, frames, spent => by
    have hs := finds_amongCommands? 0 cs
    have hi : ∀ child inner spent found,
        amongCommands? rule 0 cs child inner spent = some found →
          child ≤ found.index ∧ found.index < cs.length := by
      intro child inner spent found h
      have := index_of_amongCommands? rule h
      omega
    unfold inCommand?
    by_cases hd : b.flags.disabled = true
    · simp [remainingIn, hd, Finds]
    · rw [if_neg hd]
      simp only [remainingIn, if_neg hd]
      cases frames with
      | nil =>
        by_cases ht : 0 < n ∧ Command.hasTicksList rule cs = true
        · simp only [if_pos ht]
          exact finds_tries i hs hi ⟨0, 0⟩ [] spent
        · simp only [if_neg ht]
          rw [Finds, loopRemaining_of_nil (nil_of_not_hasTicks rule ht)]
          rfl
      | cons f inner => exact finds_tries i hs hi f inner spent

theorem finds_amongCommands? (i : Nat) : ∀ (cs : List Command) (start : Nat)
    (frames : List LoopProgress) (spent : Nat),
    Finds (remainingAmong rule i cs start frames spent) (remainingAmong rule i cs)
      (amongCommands? rule i cs start frames spent)
  | [], _, _, _ => rfl
  | c :: cs, start, frames, spent => by
    have hrest := finds_amongCommands? (i + 1) cs
    unfold amongCommands?
    rw [remainingAmong]
    by_cases hlt : i < start
    · rw [if_pos hlt, if_pos hlt]
      exact finds_behind rule c (hrest start frames spent)
    · rw [if_neg hlt, if_neg hlt]
      have hc := finds_inCommand? i c frames spent
      cases hf : inCommand? rule i c frames spent with
      | none =>
        rw [hf] at hc
        rw [show remainingIn rule i c frames spent = [] from hc, List.nil_append]
        exact finds_behind rule c (hrest start [] 0)
      | some found =>
        rw [hf] at hc
        obtain rfl := index_of_inCommand? rule hf
        have hle : start ≤ found.index + 1 := by omega
        have hself : found.index ≤ found.index + 1 := by omega
        obtain ⟨hsame, hfirst⟩ := hc
        simp only at hsame hfirst
        refine ⟨?_, ?_⟩
        · rw [remainingAmong, if_neg (Nat.lt_irrefl _), hsame, remainingAmong_of_le rule hle,
            remainingAmong_of_le rule hself]
        · rw [remainingAmong, if_neg (Nat.lt_irrefl _), hfirst, remainingAmong_of_le rule hle,
            remainingAmong_of_le rule hself]
          rfl

end

/-! ## Running flags -/

/-- Two heads ask for the same ticks. -/
def SameTicks (b b' : CommandHead) : Prop :=
  b'.name = b.name ∧ b'.args = b.args ∧ b'.flags.disabled = b.flags.disabled

mutual

/-- What is changed in a command without changing its ticks leaves the same ticks to be made. -/
theorem remainingIn_mapHeads {f : CommandHead → CommandHead} (hf : ∀ b, SameTicks b (f b))
    (i : Nat) :
    ∀ (c : Command) (frames : List LoopProgress) (spent : Nat),
      remainingIn rule i (c.mapHeads f) frames spent = remainingIn rule i c frames spent
  | .leaf b, _, _ => by
    obtain ⟨hn, ha, hd⟩ := hf b
    simp only [Command.mapHeads, remainingIn, WaitRule.leafTicks, WaitRule.leafTick, hn, ha, hd]
  | .loop b n cs, _, _ => by
    obtain ⟨-, -, hd⟩ := hf b
    have hcs : remainingAmong rule 0 (Command.mapHeadsList f cs) = remainingAmong rule 0 cs := by
      funext start frames spent
      exact remainingAmong_mapHeads hf 0 cs start frames spent
    simp only [Command.mapHeads, remainingIn, hd, hcs, Command.length_mapHeadsList]

theorem remainingAmong_mapHeads {f : CommandHead → CommandHead} (hf : ∀ b, SameTicks b (f b))
    (i : Nat) : ∀ (cs : List Command) (start : Nat) (frames : List LoopProgress) (spent : Nat),
      remainingAmong rule i (Command.mapHeadsList f cs) start frames spent =
        remainingAmong rule i cs start frames spent
  | [], _, _, _ => rfl
  | c :: cs, start, frames, spent => by
    rw [Command.mapHeadsList, remainingAmong, remainingAmong, remainingIn_mapHeads hf i c,
      remainingAmong_mapHeads hf (i + 1) cs, remainingAmong_mapHeads hf (i + 1) cs]

end

end Walk

namespace Cursor

/-- The ticks that are still ahead of the cursor in the script. -/
def remaining (rule : WaitRule) (s : Script) (c : Cursor) : List Tick :=
  Walk.remainingAmong rule 0 s.commands c.top c.frames c.spent

/-- At the start all ticks of the script remain. -/
theorem remaining_start (rule : WaitRule) (s : Script) :
    start.remaining rule s = s.expansion rule :=
  Walk.remainingAmong_start rule 0 s.commands

/-- Of a walk through a script, no more remains than the script takes. -/
theorem length_remaining_le (rule : WaitRule) (s : Script) (c : Cursor) :
    (c.remaining rule s).length ≤ s.ticks rule :=
  Walk.length_remainingAmong_le rule 0 s.commands _ _ _

/-- The walk is at its end when nothing remains. -/
theorem remaining_of_next?_eq_none {rule : WaitRule} {s : Script} {c : Cursor}
    (h : c.next? rule s = none) : c.remaining rule s = [] := by
  have hf := Walk.finds_amongCommands? rule 0 s.commands c.top c.frames c.spent
  rw [next?, Option.map_eq_none_iff] at h
  rwa [h] at hf

/-- The walk finds the first of the ticks that remain. From the cursor that it gives, the same
ticks remain, and the others do once the tick is spent. -/
theorem remaining_of_next?_eq_some {rule : WaitRule} {s : Script} {c c' : Cursor} {tick : Tick}
    (h : c.next? rule s = some (c', tick)) :
    c'.remaining rule s = c.remaining rule s ∧
      c.remaining rule s = tick :: c'.consume.remaining rule s := by
  have hf := Walk.finds_amongCommands? rule 0 s.commands c.top c.frames c.spent
  obtain ⟨found, hfound, heq⟩ := Option.map_eq_some_iff.1 h
  obtain ⟨rfl, rfl⟩ := Prod.mk.inj heq
  rw [hfound] at hf
  exact hf

/-- Scripts that differ in running flags alone have the same ticks ahead of a cursor. -/
theorem remaining_congr {rule : WaitRule} {s s' : Script}
    (h : s'.clearRunning = s.clearRunning) (c : Cursor) :
      c.remaining rule s' = c.remaining rule s := by
  have hclear : ∀ s : Script, c.remaining rule s.clearRunning = c.remaining rule s := by
    intro s
    unfold remaining Script.clearRunning
    rw [Walk.remainingAmong_mapHeads]
    exact fun b => ⟨rfl, rfl, rfl⟩
  rw [← hclear s', h, hclear s]

end Cursor

end Tandem
