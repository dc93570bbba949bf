import Tandem.Proofs.Run.Advance
import Tandem.Proofs.Script.Alike

/-!
# Turns of loops

A walk in place looks for ticks in loops of any count, in loops inside of loops, and in loops
without any ticks at all. It does not go round in them : from every cursor that the walk reaches in
a script (`Cursor.Reached`), a search turns each frame to its next repetition at most once
(`Cursor.Reached.settle`).

The reason is that a loop is only entered for its ticks. A cursor that the walk has reached stands
in loops each repetition of which has a tick (`Walk.Stands`). So the search of a loop that is
entered anew finds a tick before its children are through (`Walk.settleIn_fresh`), and a loop that
has turned once finds one in the repetition that it has turned to, or is done
(`Walk.rounds_behind`).
-/

namespace Tandem

namespace Walk

variable {rule : WaitRule}

/-! ## Where a walk stands -/

/-- The position is one inside the command : each loop that was entered stands at one of its
children and has ticks in every repetition, and nothing was spent in one that was not entered. -/
def Stands (rule : WaitRule) : Command → List LoopProgress → Nat → Prop
  | .leaf _, _, _ => True
  | .loop _ _ _, [], spent => spent = 0
  | .loop _ _ cs, f :: inner, spent =>
    Command.hasTicksList rule cs = true ∧
      ∃ c, cs[f.child]? = some c ∧ Stands rule c inner spent
termination_by structural _ frames => frames

/-- At a leaf every position is one inside. -/
theorem stands_leaf (rule : WaitRule) (b : CommandHead) (frames : List LoopProgress) (spent : Nat) :
    Stands rule (.leaf b) frames spent := by
  cases frames <;> trivial

theorem stands_fresh (rule : WaitRule) (c : Command) : Stands rule c [] 0 := by
  cases c with
  | leaf b => trivial
  | loop b n cs => rfl

/-- Commands in which a tick is found have ticks. -/
theorem hasTicksList_of_found {i start spent : Nat} {cs : List Command} {frames : List LoopProgress}
    {found : Found} (h : amongCommands? rule i cs start frames spent = some found) :
    Command.hasTicksList rule cs = true := by
  have hf := finds_amongCommands? rule i cs start frames spent
  rw [h] at hf
  rw [Command.hasTicksList_iff]
  refine Nat.pos_of_ne_zero fun h0 => ?_
  have hnil := remainingAmong_of_ticks rule i cs start frames spent h0
  cases hnil.symm.trans hf.2

/-- In commands that have ticks, one is found from the start. -/
theorem found_of_hasTicksList {cs : List Command} (h : Command.hasTicksList rule cs = true) :
    (amongCommands? rule 0 cs 0 [] 0).isSome = true := by
  rw [Option.isSome_iff_ne_none]
  intro hnone
  have hf := finds_amongCommands? rule 0 cs 0 [] 0
  rw [hnone, remainingAmong_start] at hf
  have hlen := Command.length_expansionList rule 0 cs
  rw [show Command.expansionList rule 0 cs = [] from hf] at hlen
  exact absurd hlen (Nat.ne_of_lt ((Command.hasTicksList_iff rule cs).mp h))

mutual

/-- The position at which a tick is found is one inside the command. -/
theorem stands_inCommand? (i : Nat) : ∀ (c : Command) (frames : List LoopProgress) (spent : Nat)
    (found : Found), inCommand? rule i c frames spent = some found →
      ∀ n, Stands rule c found.frames n
  | .leaf b, _, _, _, _, _ => stands_leaf rule b _ _
  | .loop b n cs, frames, spent, found, h, spent' => by
    have of_tries : ∀ f inner, ((tries n.toNat cs.length f inner spent).findSome?
        fun t => (amongCommands? rule 0 cs t.1.child t.2.1 t.2.2).map (enter i t.1)) =
          some found → Stands rule (.loop b n cs) found.frames spent' := by
      intro f inner h
      obtain ⟨t, -, ht⟩ := List.exists_of_findSome?_eq_some h
      obtain ⟨inside, hinside, rfl⟩ := Option.map_eq_some_iff.1 ht
      obtain ⟨c, hc, hstands⟩ := stands_amongCommands? 0 cs _ _ _ inside hinside
      exact ⟨hasTicksList_of_found hinside, c, hc, hstands spent'⟩
    unfold inCommand? at h
    split at h
    · cases h
    · split at h
      · split at h
        · exact of_tries _ _ h
        · cases h
      · exact of_tries _ _ h

theorem stands_amongCommands? (i : Nat) : ∀ (cs : List Command) (start : Nat)
    (frames : List LoopProgress) (spent : Nat) (found : Found),
      amongCommands? rule i cs start frames spent = some found →
        ∃ c, cs[found.index - i]? = some c ∧ ∀ n, Stands rule c found.frames n
  | [], _, _, _, _, h => nomatch h
  | c :: cs, start, frames, spent, found, h => by
    have of_rest : ∀ start frames spent,
        amongCommands? rule (i + 1) cs start frames spent = some found →
          ∃ d, (c :: cs)[found.index - i]? = some d ∧ ∀ n, Stands rule d found.frames n := by
      intro start frames spent h
      obtain ⟨-, hi, -⟩ := index_of_amongCommands? rule h
      obtain ⟨d, hd, hstands⟩ := stands_amongCommands? (i + 1) cs start frames spent found h
      rw [show found.index - i = found.index - (i + 1) + 1 by omega, List.getElem?_cons_succ]
      exact ⟨d, hd, hstands⟩
    unfold amongCommands? at h
    split at h
    · exact of_rest _ _ _ h
    · cases hc : inCommand? rule i c frames spent with
      | some inside =>
        rw [hc] at h
        obtain rfl := Option.some.inj h
        rw [index_of_inCommand? rule hc, Nat.sub_self]
        exact ⟨c, rfl, stands_inCommand? i c frames spent inside hc⟩
      | none =>
        rw [hc] at h
        exact of_rest _ _ _ h

end

/-! ## The rounds of a loop -/

section Rounds

variable {outer inner : List LoopProgress} {index count n : Nat} {cs : List Command}
  {f : LoopProgress} {s : Search} {r : Option Tick × Search}

/-- The search of the loop of those commands, behind the frames of the loops around. -/
abbrev searchLoop (rule : WaitRule) (outer : List LoopProgress) (index count : Nat)
    (cs : List Command) (n : Nat) (s : Search) : SearchResult :=
  rounds (settleChild rule (outer.length + 1) 0 cs) index count cs.length outer.length n s

/-- A round of the search of a loop, and what the search comes to. -/
inductive Round (rule : WaitRule) (outer : List LoopProgress) (index count : Nat)
    (cs : List Command) (n : Nat) (f : LoopProgress) (inner : List LoopProgress) (s : Search) :
    Option Tick × Search → Prop
  | done : count ≤ f.repetition → Round rule outer index count cs n f inner s (none, s)
  | finds {tick : Tick} {s' : Search} :
    settleChild rule (outer.length + 1) 0 cs f.child s = .ok (some tick, s') →
      Round rule outer index count cs n f inner s (some (tick.inside index), s')
  /-- The child has nothing, and the loop goes on behind it. -/
  | next {s' : Search} {r : Option Tick × Search} : f.child < cs.length →
    settleChild rule (outer.length + 1) 0 cs f.child s = .ok (none, s') →
      amongCommands? rule 0 cs f.child inner s.spent =
        amongCommands? rule 0 cs (f.child + 1) [] 0 →
      searchLoop rule outer index count cs n
        { s' with frames := outer ++ [⟨f.repetition, f.child + 1⟩], spent := 0 } = .ok r →
      Round rule outer index count cs n f inner s r
  | turn {r : Option Tick × Search} : cs.length ≤ f.child →
    searchLoop rule outer index count cs n
      { s with
        frames := outer ++ ⟨f.repetition + 1, 0⟩ :: inner
        turned := s.turned ++ [outer.length] } = .ok r →
      Round rule outer index count cs n f inner s r

/-- A search through a loop makes one round, and then goes on or ends. -/
theorem round_of_searchLoop (hs : s.frames = outer ++ f :: inner)
    (h : searchLoop rule outer index count cs (n + 1) s = .ok r) :
    Round rule outer index count cs n f inner s r := by
  rw [searchLoop, rounds, Search.frame_eq hs] at h
  dsimp only [bind, Except.bind] at h
  split at h
  · next hr =>
    obtain rfl := Except.ok.inj h
    exact .done hr
  · next hr =>
    split at h
    · next hk =>
      have hframes : s.frames = (outer ++ [f]) ++ inner := by
        rw [hs, List.append_assoc]
        rfl
      obtain ⟨⟨tick?, s'⟩, hrun, hlands⟩ :=
        @settleChild_lands rule 0 cs f.child (outer ++ [f]) inner s hframes
      have hamong := @amongCommands?_of_lt rule 0 cs f.child inner s.spent hk
      rw [List.length_append, List.length_singleton] at hrun
      rw [Nat.zero_add] at hamong hlands
      rw [hrun] at h
      cases hfound : cs[f.child]?.bind fun c => inCommand? rule f.child c inner s.spent with
      | some found =>
        rw [hfound] at hlands
        obtain rfl : tick? = some found.tick := hlands.1
        obtain rfl := Except.ok.inj h
        exact .finds hrun
      | none =>
        rw [hfound] at hlands
        obtain rfl : tick? = none := hlands.1
        obtain ⟨rest, hrest⟩ := hlands.prefix
        dsimp only at h
        rw [Search.nextChild_eq hrest] at h
        rw [hfound, Option.none_or] at hamong
        exact .next hk hrun hamong h
    · next hk =>
      by_cases hcap : f.repetition < Binary32.wordCap
      · rw [Search.turn_eq hs hcap] at h
        exact .turn (Nat.not_lt.mp hk) h
      · rw [Search.turn, Search.frame_eq hs] at h
        dsimp only [bind, Except.bind] at h
        rw [countOn, if_neg hcap] at h
        cases h

variable (hquiet : ∀ {k : Nat} {s : Search} {r}, s.frames.length = outer.length + 1 →
  s.spent = 0 → settleChild rule (outer.length + 1) 0 cs k s = .ok r → r.2.turned = s.turned)

include hquiet

/-- While there is a tick ahead in the repetition at hand, the loop is not turned. -/
theorem rounds_fresh : ∀ {n repetition k : Nat} {s : Search} {r},
    searchLoop rule outer index count cs n s = .ok r → s.frames = outer ++ [⟨repetition, k⟩] →
      s.spent = 0 → (amongCommands? rule 0 cs k [] 0).isSome = true → r.2.turned = s.turned
  | 0, _, _, _, _, h, _, _, _ => nomatch h
  | n + 1, repetition, k, s, r, h, hs, hspent, hsome => by
    have hlen : s.frames.length = outer.length + 1 := by
      rw [hs, List.length_append, List.length_singleton]
    cases round_of_searchLoop hs h with
    | done _ => rfl
    | @finds _ s' hrun =>
      have hsame : s'.turned = s.turned := hquiet hlen hspent hrun
      exact hsame
    | @next s' _ hk hrun hamong hrest =>
      have hsame : s'.turned = s.turned := hquiet hlen hspent hrun
      rw [hspent] at hamong
      rw [hamong] at hsome
      exact (rounds_fresh hrest rfl rfl hsome).trans hsame
    | turn hk _ =>
      rw [amongCommands?_of_length_le hk] at hsome
      cases hsome

/-- A loop whose repetitions have ticks is turned once at most from behind one of its children. -/
theorem rounds_behind (hticks : Command.hasTicksList rule cs = true) :
    ∀ {n repetition k : Nat} {s : Search} {r},
      searchLoop rule outer index count cs n s = .ok r → s.frames = outer ++ [⟨repetition, k⟩] →
        s.spent = 0 → r.2.turned = s.turned ∨ r.2.turned = s.turned ++ [outer.length]
  | 0, _, _, _, _, h, _, _ => nomatch h
  | n + 1, repetition, k, s, r, h, hs, hspent => by
    have hlen : s.frames.length = outer.length + 1 := by
      rw [hs, List.length_append, List.length_singleton]
    cases round_of_searchLoop hs h with
    | done _ => exact Or.inl rfl
    | @finds _ s' hrun =>
      have hsame : s'.turned = s.turned := hquiet hlen hspent hrun
      exact Or.inl hsame
    | @next s' _ hk hrun hamong hrest =>
      have hsame : s'.turned = s.turned := hquiet hlen hspent hrun
      have hlater := rounds_behind hticks hrest rfl rfl
      rwa [hsame] at hlater
    -- In the repetition that the loop has turned to, there is a tick.
    | turn hk hrest =>
      exact Or.inr (rounds_fresh hquiet hrest rfl hspent (found_of_hasTicksList hticks))

end Rounds

/-! ## Searches that turn -/

mutual

/-- The search of a command that was not entered yet turns nothing. -/
theorem settleIn_fresh {depth index : Nat} : ∀ (c : Command) {s : Search} {r},
    s.frames.length = depth → s.spent = 0 → settleIn rule depth index c s = .ok r →
      r.2.turned = s.turned
  | .leaf b, s, r, _, _, h => by
    unfold settleIn at h
    split at h
    · obtain rfl := Except.ok.inj h
      rfl
    · split at h
      · obtain rfl := Except.ok.inj h
        rfl
      · obtain rfl := Except.ok.inj h
        rfl
  | .loop b n cs, s, r, hs, hspent, h => by
    obtain rfl := hs
    rw [settleIn] at h
    split at h
    · obtain rfl := Except.ok.inj h
      rfl
    · split at h
      · obtain rfl := Except.ok.inj h
        rfl
      · next hticks =>
        have hticks : (Command.loop b n cs).hasTicks rule = true :=
          eq_true_of_ne_false fun ht => hticks ⟨Nat.le_refl _, ht⟩
        have hbody : Command.hasTicksList rule cs = true := by
          rw [Command.hasTicks, Bool.and_eq_true, Bool.and_eq_true] at hticks
          exact hticks.2
        rw [Search.arrive_eq rfl] at h
        have hsame := rounds_fresh (settleChild_fresh cs) h rfl hspent (found_of_hasTicksList hbody)
        exact hsame

/-- A search that enters the children anew turns no frame over. -/
theorem settleChild_fresh {depth index : Nat} : ∀ (cs : List Command) {k : Nat} {s : Search} {r},
    s.frames.length = depth → s.spent = 0 → settleChild rule depth index cs k s = .ok r →
      r.2.turned = s.turned
  | [], _, _, _, _, _, h => by
    obtain rfl := Except.ok.inj h
    rfl
  | c :: _, 0, _, _, hs, hspent, h => settleIn_fresh c hs hspent h
  | _ :: cs, _ + 1, _, _, hs, hspent, h => settleChild_fresh cs hs hspent h

end

/-- From the one state of a search to the other, frames were turned at depths that get less and
less, down to that one. -/
def TurnsDown (depth : Nat) (s s' : Search) : Prop :=
  ∃ turned, s'.turned = s.turned ++ turned ∧ turned.Pairwise (· > ·) ∧ ∀ d ∈ turned, depth ≤ d

theorem TurnsDown.of_eq {depth : Nat} {s s' : Search} (h : s'.turned = s.turned) :
    TurnsDown depth s s' :=
  ⟨[], by rw [h, List.append_nil], .nil, nofun⟩

/-- After the deeper frames, the frame at that depth may be turned. -/
theorem TurnsDown.outward {depth : Nat} {s s' s'' : Search} (h : TurnsDown (depth + 1) s s')
    (hs : s''.turned = s'.turned ∨ s''.turned = s'.turned ++ [depth]) : TurnsDown depth s s'' := by
  obtain ⟨turned, hturned, hdown, hdeep⟩ := h
  obtain hs | hs := hs
  · exact ⟨turned, hs.trans hturned, hdown, fun d hd => Nat.le_of_succ_le (hdeep d hd)⟩
  · refine ⟨turned ++ [depth], by rw [hs, hturned, List.append_assoc], ?_, ?_⟩
    · refine List.pairwise_append.mpr ⟨hdown, List.pairwise_singleton _ _, ?_⟩
      intro d hd d' hd'
      rw [List.mem_singleton.mp hd']
      exact hdeep d hd
    · intro d hd
      obtain hd | hd := List.mem_append.mp hd
      · exact Nat.le_of_succ_le (hdeep d hd)
      · exact Nat.le_of_eq (List.mem_singleton.mp hd).symm

mutual

/-- The search of a command, from where the walk stands in it, turns frames from the inside out,
each of them once. -/
theorem settleIn_turnsDown {index : Nat} : ∀ (c : Command) {outer inner : List LoopProgress}
    {s : Search} {r}, s.frames = outer ++ inner → Stands rule c inner s.spent →
      settleIn rule outer.length index c s = .ok r → TurnsDown outer.length s r.2
  | .leaf b, outer, inner, s, r, hs, _, h => by
    unfold settleIn at h
    split at h
    · obtain rfl := Except.ok.inj h
      exact .of_eq rfl
    · split at h
      · obtain rfl := Except.ok.inj h
        exact .of_eq rfl
      · obtain rfl := Except.ok.inj h
        exact .of_eq rfl
  | .loop b n cs, outer, [], s, r, hs, hstands, h => by
    refine .of_eq (settleIn_fresh _ ?_ hstands h)
    rw [hs, List.append_nil]
  | .loop b n cs, outer, f :: inner, s, r, hs, hstands, h => by
    obtain ⟨hticks, c, hc, hinner⟩ := hstands
    rw [settleIn] at h
    split at h
    · obtain rfl := Except.ok.inj h
      exact .of_eq rfl
    · split at h
      · obtain rfl := Except.ok.inj h
        exact .of_eq rfl
      · have hframes : s.frames = (outer ++ [f]) ++ inner := by
          rw [hs, List.append_assoc]
          rfl
        have hchild : ∀ {r}, settleChild rule (outer.length + 1) 0 cs f.child s = .ok r →
            TurnsDown (outer.length + 1) s r.2 := by
          intro r hrun
          rw [← List.length_singleton (a := f), ← List.length_append] at hrun ⊢
          refine settleChild_turnsDown cs hframes ?_ hrun
          intro d hd
          rwa [Option.some.inj (hd.symm.trans hc)]
        rw [Search.arrive_of_frame hs] at h
        cases round_of_searchLoop hs h with
        | done _ => exact .of_eq rfl
        | finds hrun => exact (hchild hrun).outward (Or.inl rfl)
        | next hk hrun _ hrest =>
          have hlater := rounds_behind (settleChild_fresh cs) hticks hrest rfl rfl
          exact (hchild hrun).outward hlater
        | turn hk _ =>
          rw [List.getElem?_eq_none hk] at hc
          cases hc

/-- A search among the children turns each frame over before those around it. -/
theorem settleChild_turnsDown {index : Nat} : ∀ (cs : List Command) {k : Nat}
    {outer inner : List LoopProgress} {s : Search} {r}, s.frames = outer ++ inner →
      (∀ c, cs[k]? = some c → Stands rule c inner s.spent) →
        settleChild rule outer.length index cs k s = .ok r → TurnsDown outer.length s r.2
  | [], _, _, _, _, _, _, _, h => by
    obtain rfl := Except.ok.inj h
    exact .of_eq rfl
  | c :: _, 0, _, _, _, _, hs, hstands, h => settleIn_turnsDown c hs (hstands c rfl) h
  | _ :: cs, _ + 1, _, _, _, _, hs, hstands, h => settleChild_turnsDown cs hs hstands h

end

/-- A search that enters commands of the script anew turns no frame over. -/
theorem settleTop_fresh {index : Nat} : ∀ {cs : List Command} {s : Search} {r}, s.frames = [] →
    s.spent = 0 → settleTop rule index cs s = .ok r → r.2.turned = s.turned
  | [], _, _, _, _, h => by
    obtain rfl := Except.ok.inj h
    rfl
  | c :: cs, s, r, hs, hspent, h => by
    rw [settleTop] at h
    cases hrun : settleIn rule 0 index c s with
    | error e => rw [hrun] at h; cases h
    | ok r' =>
      rw [hrun] at h
      have hsame := settleIn_fresh c (congrArg List.length hs) hspent hrun
      obtain ⟨_ | tick, s'⟩ := r'
      · exact (settleTop_fresh rfl rfl h).trans hsame
      · obtain rfl := Except.ok.inj h
        exact hsame

/-- The search of the commands, from where the walk stands in the first one. -/
theorem settleTop_turnsDown {index : Nat} {cs : List Command} {s : Search} {r}
    (hstands : ∀ c, cs.head? = some c → Stands rule c s.frames s.spent)
    (h : settleTop rule index cs s = .ok r) : TurnsDown 0 s r.2 := by
  cases cs with
  | nil =>
    obtain rfl := Except.ok.inj h
    exact .of_eq rfl
  | cons c cs =>
    rw [settleTop] at h
    cases hrun : settleIn rule 0 index c s with
    | error e => rw [hrun] at h; cases h
    | ok r' =>
      rw [hrun] at h
      have hframes : s.frames = [] ++ s.frames := rfl
      have hturns := settleIn_turnsDown c hframes (hstands c rfl) hrun
      obtain ⟨_ | tick, s'⟩ := r'
      · obtain ⟨turned, hturned, hdown⟩ := hturns
        exact ⟨turned, (settleTop_fresh rfl rfl h).trans hturned, hdown⟩
      · obtain rfl := Except.ok.inj h
        exact hturns

/-- A search enters no loop without ticks. -/
theorem keeps_entered (rule : WaitRule) :
    Keeps rule (fun s => ∀ c ∈ s.entered, c.hasTicks rule = true)
      (fun s => ∀ c ∈ s.entered, c.hasTicks rule = true) where
  find hs _ := hs
  arrive hs hticks c hc := by
    unfold Search.arrive at hc
    split at hc
    · next hlen =>
      obtain hc | hc := List.mem_append.mp hc
      · exact hs c hc
      · rw [List.mem_singleton.mp hc]
        exact hticks hlen
    · exact hs c hc
  nextChild hs hnext := by
    obtain ⟨f, -, rfl⟩ := Search.nextChild_eq_ok hnext
    exact hs
  turn hs hturn := by
    obtain ⟨f, -, -, rfl⟩ := Search.turn_eq_ok hturn
    exact hs
  cleared hs := hs

end Walk

/-! ## Cursors that the walk reaches -/

namespace Cursor

/-- The walk through the script, while it is left alone, reaches the cursor. -/
inductive Reached (rule : WaitRule) (s : Script) : Cursor → Prop
  | start : Reached rule s start
  | next {c c' : Cursor} {tick : Tick} :
    Reached rule s c → c.next? rule s = some (c', tick) → Reached rule s c'
  | consume {c c' : Cursor} {tick : Tick} :
    Reached rule s c → c.next? rule s = some (c', tick) → Reached rule s c'.consume

namespace Reached

variable {rule : WaitRule} {s : Script} {c : Cursor}

/-- Where a tick was found, the walk stands in the command, however many ticks are spent there. -/
theorem stands_of_next? {c' : Cursor} {tick : Tick} (h : c.next? rule s = some (c', tick)) :
    ∃ cmd, s.commands[c'.top]? = some cmd ∧ ∀ n, Walk.Stands rule cmd c'.frames n := by
  obtain ⟨found, hfound, heq⟩ := Option.map_eq_some_iff.mp h
  obtain ⟨rfl, -⟩ := Prod.mk.inj heq
  exact Walk.stands_amongCommands? 0 s.commands c.top c.frames c.spent found hfound

/-- The position that a walk has reached is one inside its command. -/
theorem stands (h : c.Reached rule s) (cmd : Command) (hcmd : s.commands[c.top]? = some cmd) :
    Walk.Stands rule cmd c.frames c.spent := by
  cases h with
  | start => exact Walk.stands_fresh rule cmd
  | next _ hnext =>
    obtain ⟨cmd', hcmd', hstands⟩ := stands_of_next? hnext
    obtain rfl := Option.some.inj (hcmd.symm.trans hcmd')
    exact hstands _
  | consume _ hnext =>
    obtain ⟨cmd', hcmd', hstands⟩ := stands_of_next? hnext
    obtain rfl := Option.some.inj (hcmd.symm.trans hcmd')
    exact hstands _

/-- Running flags make no difference to where the walk comes. -/
theorem congr {s' : Script} (h : c.Reached rule s) (hs : s'.clearRunning = s.clearRunning) :
    c.Reached rule s' := by
  induction h with
  | start => exact .start
  | next _ hnext ih => exact ih.next ((Script.next?_congr hs _ _).trans hnext)
  | consume _ hnext ih => exact ih.consume ((Script.next?_congr hs _ _).trans hnext)

/-- Of the expansion of the script, the ticks at the end are ahead. -/
theorem remaining_suffix (h : c.Reached rule s) : c.remaining rule s <:+ s.expansion rule := by
  induction h with
  | start => exact (remaining_start rule s) ▸ List.suffix_rfl
  | next _ hnext ih => exact (remaining_of_next?_eq_some hnext).1 ▸ ih
  | consume _ hnext ih =>
    refine List.IsSuffix.trans ?_ ih
    rw [(remaining_of_next?_eq_some hnext).2]
    exact List.suffix_cons _ _

/-- From a cursor that the walk reaches, it moves on to the next tick and turns frames from the
inside out on its way, each of them once at most. It enters no loop without ticks. -/
theorem settle (h : c.Reached rule s) : ∃ turned entered,
    c.settle rule s = .ok ⟨c.next? rule s, turned, entered⟩ ∧ turned.Pairwise (· > ·) ∧
      ∀ l ∈ entered, 0 < l.ticks rule := by
  obtain ⟨turned, entered, hst⟩ := c.settle_eq rule s
  obtain ⟨found?, s', hrun, heq⟩ := settle_cases hst
  obtain ⟨-, rfl, rfl⟩ := Settling.mk.inj heq
  refine ⟨_, _, hst, ?_, ?_⟩
  · have hdown := Walk.settleTop_turnsDown (fun cmd hcmd => h.stands cmd ?_) hrun
    · obtain ⟨turned, hturned, hdown, -⟩ := hdown
      rw [List.nil_append] at hturned
      exact hturned ▸ hdown
    · rwa [List.head?_drop] at hcmd
  · have hnone : ∀ l ∈ ([] : List Command), l.hasTicks rule = true := nofun
    have hentered := (Walk.keeps_entered rule).settleTop hnone hrun
    intro l hl
    rw [← Command.hasTicks_iff]
    cases found? with
    | none => exact hentered l hl
    | some found => exact hentered l hl

end Reached

end Cursor

/-! ## Advances -/

namespace Turn

variable {α : Type} [Avatar α] {t t' : Turn α}

/-- The ticks that an advance makes are the first of those ahead. -/
theorem Advances.ticks (h : Advances t t') : ∃ made, made <+:
    t.exec.cursor.remaining t.exec.waitRule t.script ∧ t'.ticks = t.ticks ++ made := by
  have hnone : ∀ {t t' : Turn α}, t'.ticks = t.ticks → ∃ made, made <+: t.side.left ∧
      t'.ticks = t.ticks ++ made := by
    intro t t' h
    exact ⟨[], List.nil_prefix, by rw [h, List.append_nil]⟩
  show ∃ made, made <+: t.side.left ∧ t'.ticks = t.ticks ++ made
  induction h with
  | @cleared t _ => exact hnone (ofTicks_tickWatch.seen_finish t .interrupted)
  | @done t _ _ _ _ => exact hnone (ofTicks_tickWatch.seen_finish t .completed)
  | @held t _ _ c tick _ _ _ hg =>
    have hseen := ofTicks_tickWatch.seen_passGate (t.moveTo c) tick
    rw [hg] at hseen
    exact hnone hseen
  | @tick t _ _ st c tick _ hst hst' hg _ _ ih =>
    obtain rfl := eq_of_passGate hg
    have hnext := (Cursor.found_of_settle hst).symm.trans hst'
    obtain ⟨-, rest, hrest⟩ := side_moveTo hnext
    obtain ⟨made, hmade, hticks⟩ := ih
    rw [side_makeTick hnext, Side.after, hrest, List.tail_cons] at hmade
    have hseen : ((t.moveTo c).makeTick tick).ticks = t.ticks ++ [tick] :=
      ofTicks_tickWatch.seen_makeTick (t.moveTo c) tick
    refine ⟨tick :: made, ?_, ?_⟩
    · rw [hrest]
      exact (List.prefix_cons_inj tick).mpr hmade
    · rw [hticks, hseen, List.append_assoc]
      rfl

/-- An advance stays among the cursors that the walk reaches. -/
theorem Advances.reached {rule : WaitRule} {s : Script} (h : Advances t t')
    (hrule : t.exec.waitRule = rule) (hs : t.script.clearRunning = s.clearRunning)
    (hc : t.exec.cursor.Reached rule s) : t'.exec.cursor.Reached rule s := by
  refine h.keeps .start ?_ hrule hs hc
  intro s' c c' tick hs' hc hnext
  rw [Script.next?_congr hs'] at hnext
  exact ⟨hc.next hnext, hc.consume hnext⟩

/-- From a cursor that the walk reaches in the script at hand, whatever the policy, the avatars and
the run flag are, an advance comes to its end. On the way to the first tick each frame is turned
once at most, and no loop without ticks is entered. The ticks that the advance makes are the first
of those that are left of the expansion of the script, and the cursor is again one that the walk
reaches. -/
theorem advance_of_reached (h : t.exec.cursor.Reached t.exec.waitRule t.script) :
    (∃ turned entered, t.exec.cursor.settle t.exec.waitRule t.script =
        .ok ⟨t.exec.cursor.next? t.exec.waitRule t.script, turned, entered⟩ ∧
      turned.Pairwise (· > ·) ∧ ∀ l ∈ entered, 0 < l.ticks t.exec.waitRule) ∧
    Advances t t.advance ∧
    t.advance.exec.cursor.Reached t.exec.waitRule t.script ∧
    t.exec.cursor.remaining t.exec.waitRule t.script <:+ t.script.expansion t.exec.waitRule ∧
    ∃ made, made <+: t.exec.cursor.remaining t.exec.waitRule t.script ∧
      t.advance.ticks = t.ticks ++ made :=
  ⟨h.settle, t.advances_advance, t.advances_advance.reached rfl rfl h, h.remaining_suffix,
    t.advances_advance.ticks⟩

/-- Steps do not change how waiting is cut into ticks. -/
theorem Steps.waitRule (h : Steps t t') : t'.exec.waitRule = t.exec.waitRule :=
  congrArg (fun u => (⟨u.waitCommand, u.timings.ticksPerSecond⟩ : WaitRule)) h.setup

end Turn

/-! ## Careers without edits -/

namespace Career

variable {α : Type} [Avatar α]

/-- The executor has walked through the script up to its cursor. -/
structure Walks (rule : WaitRule) (s : Script) (c : Career α) : Prop where
  waitRule : c.exec.waitRule = rule
  script : c.script.clearRunning = s.clearRunning
  cursor : c.exec.cursor.Reached rule s

/-- An order walks on, if it lends no other script. -/
theorem Walks.obey {rule : WaitRule} {s : Script} {c : Career α} (h : c.Walks rule s) {o : Order}
    (ho : o.lent? = none) : (c.obey o).Walks rule s := by
  have hsteps := Turn.steps_obey (c.exec.on c.script) ho
  refine ⟨hsteps.waitRule.trans h.waitRule, hsteps.script.trans h.script, ?_⟩
  show ((c.exec.on c.script).obey o).exec.cursor.Reached rule s
  obtain hp | ⟨t, ht, hp, hgoes⟩ := (c.exec.on c.script).obey_cases o
  · exact hp.keeps .start h.cursor
  · rw [hgoes]
    exact t.advances_advance.reached (ht.waitRule.trans h.waitRule) (ht.script.trans h.script)
      (hp.keeps .start h.cursor)

/-- While its script is left alone, an executor is at a cursor that the walk reaches. -/
theorem reached (role : Role) (mode : SyncMode) (timings : Timings) (wait : String) (own rival : α)
    (s : Script) {orders : List Order} (hlend : ∀ o ∈ orders, o.lent? = none) :
    let c := (Executor.new role mode timings wait own rival).career s orders
    c.exec.cursor.Reached c.exec.waitRule c.script := by
  have h : ∀ {rule : WaitRule} (orders : List Order) {c : Career α},
      (∀ o ∈ orders, o.lent? = none) → c.Walks rule s → (orders.foldl obey c).Walks rule s := by
    intro rule orders
    induction orders with
    | nil => exact fun _ h => h
    | cons o orders ih =>
      intro c hlend h
      rw [List.forall_mem_cons] at hlend
      exact ih hlend.2 (h.obey hlend.1)
  intro c
  have hwalks : c.Walks _ s := h orders hlend ⟨rfl, rfl, .start⟩
  rw [hwalks.waitRule]
  exact hwalks.cursor.congr hwalks.script

/-- Loops of more than two thousand million repetitions, inside of each other, and another one that
is empty. -/
def hugeNest : Script :=
  ⟨[.repeated 2147483648
    [.repeated 4294967295 [], .repeated 2147483648 [.ofName "MOVE" ["EAST"]]]]⟩

/-- In the nest, two ticks are made as anywhere else, and the next advance comes to its end too. -/
theorem advance_in_nest :
    let c := (Executor.new .master .async .standard "Continue_Sec"
      (GridAvatar.new .standard 6 false [] true) (GridAvatar.new .standard 6 true [] false)).career
      hugeNest [.run, .call (.update 0.5)]
    let t := c.exec.on c.script
    (t.exec.cursor.Reached t.exec.waitRule t.script ∧
      t.exec.cursor = ⟨0, [⟨0, 1⟩, ⟨2, 0⟩], 0⟩) ∧ Turn.Advances t t.advance := by
  intro c t
  have hcursor : t.exec.cursor = ⟨0, [⟨0, 1⟩, ⟨2, 0⟩], 0⟩ := by decide +kernel
  have hreached : t.exec.cursor.Reached t.exec.waitRule t.script :=
    reached .master .async .standard "Continue_Sec" (GridAvatar.new .standard 6 false [] true)
      (GridAvatar.new .standard 6 true [] false) hugeNest (by simp [Order.lent?])
  exact ⟨⟨hreached, hcursor⟩, (Turn.advance_of_reached hreached).2.1⟩

end Career

end Tandem
