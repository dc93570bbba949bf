import Tandem.Proofs.Run.Ticks
import Tandem.Proofs.Script.Counts
import Tandem.Proofs.Script.Skeleton

/-!
# How often the children of a loop are run

A run comes to a command as often as the loops around it ask for, or never if one of them is
disabled (`Script.visits`). Each time that it comes to a loop, it runs the children of the loop as
often as its count says : the ticks of the script inside the loop are those of its children, that
often (`Script.ticksIn_expansion`). A run makes these ticks in order, and all of them once it is
completed.

So the count that runs go by is the one that an editor shows and sets, and the one that is written
and read again (`Script.Made.one_count`).
-/

namespace Tandem

/-- The tick of a command inside the one at the path, as seen from where the path begins. -/
def Tick.under (path : Path) (t : Tick) : Tick :=
  { t with path := path ++ t.path }

/-- The ticks of the commands inside the one at the path. -/
def ticksIn (path : Path) (ts : List Tick) : List Tick :=
  ts.filter fun t => path <+: t.path

/-- The ticks, made that often. -/
def roundsOf (n : Nat) (ts : List Tick) : List Tick :=
  (List.replicate n ts).flatten

section Ticks

theorem ticksIn_append (path : Path) (ts us : List Tick) :
    ticksIn path (ts ++ us) = ticksIn path ts ++ ticksIn path us :=
  List.filter_append ..

/-- Ticks of other commands are not in this one. -/
theorem ticksIn_eq_nil {i : Nat} {path : Path} {ts : List Tick}
    (h : ∀ t ∈ ts, t.path.head? ≠ some i) : ticksIn (i :: path) ts = [] := by
  refine List.filter_eq_nil_iff.mpr fun t ht => ?_
  rw [decide_eq_true_eq]
  rintro ⟨rest, hrest⟩
  exact h t ht (hrest ▸ rfl)

theorem ticksIn_nil (ts : List Tick) : ticksIn [] ts = ts :=
  List.filter_eq_self.mpr fun _ _ => decide_eq_true List.nil_prefix

/-- The ticks in a command, in rounds of all, are the rounds of its ticks. -/
theorem ticksIn_roundsOf (path : Path) (n : Nat) (ts : List Tick) :
    ticksIn path (roundsOf n ts) = roundsOf n (ticksIn path ts) := by
  rw [ticksIn, roundsOf, List.filter_flatten, List.map_replicate]
  rfl

/-- The ticks of a child, inside its loop, are those that it makes. -/
theorem ticksIn_inside (i : Nat) (path : Path) (ts : List Tick) :
    ticksIn (i :: path) (ts.map (Tick.inside i)) = (ticksIn path ts).map (Tick.inside i) := by
  rw [ticksIn, List.filter_map]
  congr 2
  funext t
  simp [Tick.inside, List.cons_prefix_cons]

theorem map_roundsOf (f : Tick → Tick) (n : Nat) (ts : List Tick) :
    (roundsOf n ts).map f = roundsOf n (ts.map f) := by
  rw [roundsOf, List.map_flatten, List.map_replicate]
  rfl

/-- Rounds of rounds are as many as the product tells. -/
theorem roundsOf_roundsOf (m n : Nat) (ts : List Tick) :
    roundsOf m (roundsOf n ts) = roundsOf (m * n) ts := by
  unfold roundsOf
  rw [← List.flatten_replicate_replicate, List.flatten_flatten, List.map_replicate]

end Ticks

namespace Command

/-- How often a run of the command comes to the one at the path inside it. -/
def visits : Path → Command → Nat
  | [], c => if c.disabled then 0 else 1
  | i :: path, c =>
    if c.disabled then 0
    else
      match c with
      | leaf _ => 0
      | loop _ n cs =>
        match cs[i]? with
        | some d => n.toNat * visits path d
        | none => 0

variable (rule : WaitRule)

/-- The ticks of a command begin their path with its index. -/
theorem head?_of_mem_expansion {i : Nat} {c : Command} {t : Tick} (h : t ∈ c.expansion rule i) :
    t.path.head? = some i := by
  cases c with
  | leaf b =>
    unfold expansion at h
    split at h
    · cases h
    · rw [List.eq_of_mem_replicate h]
      rfl
  | loop b n cs =>
    unfold expansion at h
    split at h
    · cases h
    · obtain ⟨t', -, rfl⟩ := List.mem_map.mp h
      rfl

theorem head?_of_mem_expansionList {t : Tick} : ∀ {cs : List Command} {k : Nat},
    t ∈ expansionList rule k cs → ∃ i, k ≤ i ∧ t.path.head? = some i
  | [], _, h => nomatch h
  | c :: cs, k, h => by
    obtain h | h := List.mem_append.mp h
    · exact ⟨k, Nat.le_refl k, head?_of_mem_expansion rule h⟩
    · obtain ⟨i, hi, hhead⟩ := head?_of_mem_expansionList h
      exact ⟨i, by omega, hhead⟩

/-- Among the ticks of a list of commands, those in one of them are its own. -/
theorem ticksIn_expansionList (path : Path) : ∀ {cs : List Command} (k i : Nat) {c : Command},
    cs[i]? = some c → ticksIn ((k + i) :: path) (expansionList rule k cs) =
      ticksIn ((k + i) :: path) (c.expansion rule (k + i))
  | [], _, _, _, h => nomatch h
  | c :: cs, k, 0, d, h => by
    obtain rfl := Option.some.inj h
    have hlater : ticksIn (k :: path) (expansionList rule (k + 1) cs) = [] := by
      refine ticksIn_eq_nil fun t ht => ?_
      obtain ⟨i, hi, hhead⟩ := head?_of_mem_expansionList rule ht
      rw [hhead, ne_eq, Option.some.injEq]
      omega
    rw [expansionList, Nat.add_zero, ticksIn_append, hlater, List.append_nil]
  | c :: cs, k, i + 1, d, h => by
    rw [expansionList, ticksIn_append, ticksIn_eq_nil, List.nil_append, ← Nat.add_assoc,
      Nat.add_right_comm]
    · exact ticksIn_expansionList path (k + 1) i h
    · intro t ht
      rw [head?_of_mem_expansion rule ht, ne_eq, Option.some.injEq]
      omega

/-- The ticks inside a loop are those of its children, as often as the loop asks for each time that
a run comes to it. -/
theorem ticksIn_expansion {b : CommandHead} {n : UInt32} {cs : List Command} :
    ∀ (path : Path) {c : Command}, c.get? path = some (loop b n cs) → ∀ i : Nat,
      ticksIn (i :: path) (c.expansion rule i) =
        (roundsOf (c.visits path * n.toNat) (expansionList rule 0 cs)).map (Tick.under (i :: path))
  | [], c, h, i => by
    obtain rfl := Option.some.inj h
    rw [expansion, visits, disabled, head]
    cases b.flags.disabled with
    | true => rw [if_pos rfl, if_pos rfl, Nat.zero_mul]; rfl
    | false =>
      rw [if_neg Bool.false_ne_true, if_neg Bool.false_ne_true, Nat.one_mul, ticksIn_inside,
        ticksIn_nil]
      rfl
  | k :: path, leaf _, h, _ => nomatch h
  | k :: path, loop b' m ds, h, i => by
    rw [get?, children] at h
    cases hd : ds[k]? with
    | none => rw [hd] at h; cases h
    | some d =>
      rw [hd] at h
      have hchild : ticksIn (k :: path) (expansionList rule 0 ds) =
          (roundsOf (d.visits path * n.toNat) (expansionList rule 0 cs)).map
            (Tick.under (k :: path)) := by
        have hlist := ticksIn_expansionList rule path 0 k hd
        rw [Nat.zero_add] at hlist
        exact hlist.trans (ticksIn_expansion path h k)
      rw [expansion, visits, disabled, head]
      cases b'.flags.disabled with
      | true => rw [if_pos rfl, if_pos rfl, Nat.zero_mul]; rfl
      | false =>
        rw [if_neg Bool.false_ne_true, if_neg Bool.false_ne_true, ticksIn_inside, hd]
        show (ticksIn (k :: path) (roundsOf m.toNat (expansionList rule 0 ds))).map _ = _
        rw [ticksIn_roundsOf, hchild, ← map_roundsOf, roundsOf_roundsOf, List.map_map,
          Nat.mul_assoc]
        rfl

end Command

namespace Script

open Command

/-- How often a run of the script comes to the command at the path. -/
def visits (s : Script) : Path → Nat
  | [] => 0
  | i :: path =>
    match s.commands[i]? with
    | some c => c.visits path
    | none => 0

/-- The ticks of the script inside a loop. -/
def loopTicks (s : Script) (rule : WaitRule) (path : Path) (n : UInt32) (cs : List Command) :
    List Tick :=
  (roundsOf (s.visits path * n.toNat) (expansionList rule 0 cs)).map (Tick.under path)

/-- The ticks that the script takes in a loop are those of the loop, as often as it is come to. -/
theorem ticksIn_expansion (rule : WaitRule) {s : Script} {path : Path} {b : CommandHead}
    {n : UInt32} {cs : List Command} (h : s.get? path = some (.loop b n cs)) :
    ticksIn path (s.expansion rule) = s.loopTicks rule path n cs := by
  cases path with
  | nil => cases h
  | cons i path =>
    rw [get?] at h
    cases hc : s.commands[i]? with
    | none => rw [hc] at h; cases h
    | some c =>
      rw [hc] at h
      have hlist := ticksIn_expansionList rule path 0 i hc
      rw [Nat.zero_add] at hlist
      rw [expansion, hlist, Command.ticksIn_expansion rule path h i, loopTicks, visits, hc]

end Script

namespace Turn

variable {α : Type} [Avatar α]

/-- What a run does of its script, whatever happens to it, is a beginning of the script, and the
whole of it once the run is completed. -/
theorem walked_run {e : Executor α} (he : e.isRunning = false) (s : Script) (calls : List Call) :
    (calls.foldl serve (e.on s).run.1).Walked (s.expansion e.waitRule) := by
  obtain ⟨acts, -, hg⟩ := goes_run (t := e.on s) he
  exact ((Walked.begin e s).goes hg).foldl_serve calls

/-- A run makes the ticks of a loop as often as it comes to it. -/
theorem ticksIn_run {e : Executor α} (he : e.isRunning = false) (s : Script) (calls : List Call)
    {path : Path} {b : CommandHead} {n : UInt32} {cs : List Command}
    (h : s.get? path = some (.loop b n cs)) :
    let t := calls.foldl serve (e.on s).run.1
    ticksIn path t.ticks <+: s.loopTicks e.waitRule path n cs ∧
      (t.hasCompleted → ticksIn path t.ticks = s.loopTicks e.waitRule path n cs) := by
  intro t
  have hwalk := walked_run he s calls
  rw [← s.ticksIn_expansion e.waitRule h, ← hwalk.whole]
  exact ⟨hwalk.walked.behind.filter _, fun hc =>
    congrArg _ (hwalk.walked.finished (hasCompleted_iff.mp hc))⟩

end Turn

namespace Script

open Command

variable {α : Type} [Avatar α]

/-- However a script was made, each loop in it has one count. It is the one that the arguments of
the loop ask for, and its text is the first of them, which the line that closes the loop shows.
That line ends a loop with this count wherever it is read. So the loops of a script that is written
are read back with their counts, and at the same paths if the leaves are read back too. And a run
makes the ticks of the children of the loop as often as this count says, each time that it comes to
the loop. -/
theorem Made.one_count {s : Script} (hs : s.Made) {path : Path} {b : CommandHead} {n : UInt32}
    {cs : List Command} (h : s.get? path = some (.loop b n cs)) :
    ∃ count rest, b.args = count :: rest ∧ count = countText n ∧ countOfArgs b.args = n ∧
      (∀ rich depth, (Command.loop b n cs).text rich depth = faded (rich && b.flags.disabled)
        ("REPEAT \x7b\n" ++ childTexts rich (depth + 1) cs ++ closing depth count)) ∧
      (∀ v depth tail, Line.IsTail tail → ∀ (r : Reading) (l : OpenLoop) (ls : List OpenLoop),
        r.loops = l :: ls → ∀ i, r.readLine v ((closing depth count).toList ++ tail) i =
          { r with commands := .repeated n r.commands.reverse :: l.before, loops := ls }) ∧
      (∀ v (style : Style), (style.rich = true → s.Every fun c => c.disabled = false) →
        (s.Every IsPlain →
          skeletonOf (ofText v (s.text style)).script.commands = skeletonOf s.commands) ∧
        (s.Every (SpokenIn v) →
          (ofText v (s.text style)).script.get? path = some (.repeated n (rebuiltOf cs)))) ∧
      ∀ (e : Executor α) (calls : List Call), e.isRunning = false →
        let t := calls.foldl Turn.serve (e.on s).run.1
        ticksIn path t.ticks <+: s.loopTicks e.waitRule path n cs ∧
          (t.hasCompleted → ticksIn path t.ticks = s.loopTicks e.waitRule path n cs) := by
  have hcounted : (Command.loop b n cs).Counted := (Every.of_get? hs.isCounted h).1
  obtain ⟨rest, hargs⟩ := List.head?_eq_some_iff.mp hcounted
  refine ⟨countText n, rest, hargs, rfl, countOfArgs_of_head? hcounted,
    text_of_counted hcounted hcounted, fun v depth tail ht r l ls hl i => ?_,
    fun v style henabled => ⟨fun hplain => skeleton_ofText_text hplain henabled, fun hspoken => ?_⟩,
    fun e calls he => Turn.ticksIn_run he s calls h⟩
  · exact Reading.readLine_closing v n depth ht hl i
  · rw [get?_ofText_text hspoken henabled, h]
    rfl

/-- A new loop with another loop in it. -/
def nest : Script :=
  ⟨[.repeated 2 [.ofName "MOVE" ["EAST"], .repeated 5 [.ofName "MOVE" ["WEST"]]]]⟩

/-- The inner loop is given arguments, the outer one another name, and a direction is drawn for the
move in each of them. -/
def nestEdited : Script :=
  ⟨[(Command.repeated 2 [.ofName "MOVE" ["SOUTH"],
    (Command.repeated 3 [.ofName "MOVE" ["WEST"]]).setArgs [" +3 ", "often"]]).setName "AGAIN"]⟩

theorem made_nestEdited : nestEdited.Made := by
  have hinner : (Command.repeated 5 [.ofName "MOVE" ["WEST"]]).Built :=
    .repeated 5 (List.forall_mem_singleton.mpr (.ofName "MOVE" ["WEST"]))
  have hbuilt : nest.Made := .built (List.forall_mem_singleton.mpr (.repeated 2
    (List.forall_mem_cons.mpr ⟨.ofName "MOVE" ["EAST"], List.forall_mem_singleton.mpr hinner⟩)))
  have hargs := Made.edit (.setArgs [0, 1] [" +3 ", "often"]) hbuilt nofun rfl
  have hname := Made.edit (.setName [0] "AGAIN") hargs nofun rfl
  exact .randomize (t := ScriptStore.empty.load _) .standard drawDirection
    [0x40000000, 0xC0000000] hname rfl (by decide +kernel)

/-- The inner loop counts to three, is read back so, and makes six ticks in a run. -/
theorem one_count_nestEdited :
    nestEdited.get? [0, 1] =
      some (.loop ⟨loopName, ["3", "often"], Flags.clear⟩ 3 [.ofName "MOVE" ["WEST"]]) ∧
    countOfArgs ["3", "often"] = 3 ∧
    (ofText .standard (nestEdited.text .labelled)).script.get? [0, 1] =
      some (.repeated 3 [.ofName "MOVE" ["WEST"]]) ∧
    let t := (List.replicate 8 (.update 0.5)).foldl Turn.serve (Turn.freeDevice.on nestEdited).run.1
    t.hasCompleted ∧ (ticksIn [0, 1] t.ticks).length = 6 := by
  have hget : nestEdited.get? [0, 1] =
      some (.loop ⟨loopName, ["3", "often"], Flags.clear⟩ 3 [.ofName "MOVE" ["WEST"]]) := by
    decide +kernel
  obtain ⟨_, _, -, -, hcount, -, -, hread, hrun⟩ :=
    Made.one_count (α := GridAvatar) made_nestEdited hget
  have hdone : ((List.replicate 8 (.update 0.5)).foldl Turn.serve
      (Turn.freeDevice.on nestEdited).run.1).hasCompleted := by decide +kernel
  have hspoken : nestEdited.Every (SpokenIn .standard) :=
    ⟨⟨trivial, ⟨by decide +kernel, by decide +kernel⟩,
      ⟨trivial, ⟨by decide +kernel, by decide +kernel⟩, trivial⟩, trivial⟩, trivial⟩
  refine ⟨hget, hcount, ((hread .standard .labelled nofun).2 hspoken).trans rfl, hdone, ?_⟩
  rw [(hrun Turn.freeDevice _ rfl).2 hdone]
  decide +kernel

end Script

end Tandem
