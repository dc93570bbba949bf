import Tandem.Proofs.Run.Fresh
import Mathlib.Data.List.Chain

/-!
# The distance between ticks

The policy keeps a distance between ticks that take part in the synchronisation
(`SyncPolicy.spacing`). It does so by a delay in front of the later one, which is counted down by
the time that passes (`countdown`), while the age of the earlier one is counted up (`elapsed`).

A tick that is held back for the other device never sees its delay : once it is released it is made
at the next update, however soon that comes after the tick before (`Turn.released_too_soon`). Where
the later one of two ticks that follow each other is not held back, the distance is kept to, in the
numbers that the device counts in (`Turn.spaced_unless_held`).

The invariant is `Turn.Paced`. It says how far the delay has been counted down while a run waits,
and a tick that is made hands it on to the next one.
-/

namespace Tandem

/-! ## Distances -/

/-- The distance that is kept between ticks that take part in the synchronisation. -/
def SyncPolicy.spacing (p : SyncPolicy) : Float32 :=
  match p.mode with
  | .stepSwitching => remainder p.timings.smoothingDelay (some 0)
  | .async | .cmdSwitching => p.timings.commandDelay

/-- The spacing of a policy is set up with the executor. -/
theorem SyncPolicy.spacing_eq {c c' : Core} (h : c'.setup = c.setup) :
    c'.policy.spacing = c.policy.spacing := by
  obtain ⟨-, hmode, htimings, -⟩ := Setup.mk.inj h
  rw [spacing, spacing, hmode, htimings]

/-- The time that is counted up from a tick over the stretches of time. -/
def elapsed (spans : List Float32) : Float32 :=
  spans.foldl (· + ·) 0

/-- What is left of the delay for a distance after the stretches of time. -/
def countdown (spacing : Float32) (spans : List Float32) : Float32 :=
  spans.foldl (· - ·) (if 0 < spacing then spacing else 0)

/-- Another span is added to the time that has passed. -/
theorem elapsed_concat (spans : List Float32) (dt : Float32) :
    elapsed (spans ++ [dt]) = elapsed spans + dt := by
  rw [elapsed, List.foldl_append]
  rfl

/-- Another span is taken off the countdown. -/
theorem countdown_concat (spacing : Float32) (spans : List Float32) (dt : Float32) :
    countdown spacing (spans ++ [dt]) = countdown spacing spans - dt := by
  rw [countdown, List.foldl_append]
  rfl

/-- What tells how ticks follow each other. -/
inductive Beat where
  /-- A tick, which takes part in the synchronisation or not, so long after the one before it. -/
  | tick (lock : Bool) (age : Option Float32)
  /-- The tick ahead is held back until the other device releases this one. -/
  | held
  /-- The lock was held for too long, and the tick ahead is let through. -/
  | forced
deriving DecidableEq

/-- Sees the beats. -/
def beatWatch : Watch Beat where
  see
    | .tick _ kind age => some (.tick kind.lock age)
    | .event (.waitingForPeer _) => some .held
    | .event (.lockTimeout _) => some .forced
    | _ => none
  see_logged _ := rfl

/-- If the beats are two ticks that take part in the synchronisation, then the later one is made
when the delay for the distance has run out, over stretches of time that have passed one after
another since the earlier one. -/
def Beat.Spaced (spacing : Float32) (spans : List Float32) : Beat → Beat → Prop
  | .tick true _, .tick true age =>
    ∃ since, since <:+: spans ∧ age = some (elapsed since) ∧ ¬timeSlack < countdown spacing since
  | _, _ => True

/-- The stretch of time that passes in the call. -/
def Call.span? : Call → Option Float32
  | update dt => some dt
  | _ => none

namespace Beat

variable {spacing : Float32} {spans spans' : List Float32}

/-- Beats that keep their distance still do when more time has passed. -/
theorem Spaced.mono {a b : Beat} (h : Spaced spacing spans a b) (hs : spans <+: spans') :
    Spaced spacing spans' a b := by
  unfold Spaced at h ⊢
  split
  · obtain ⟨since, hin, hage, hout⟩ := h
    exact ⟨since, hin.trans hs.isInfix, hage, hout⟩
  · trivial

/-- Only ticks that take part in the synchronisation have to keep a distance. -/
theorem spaced_of {a : Beat} {lock : Bool} {age : Option Float32}
    (h : lock = true → ∀ before, a = .tick true before → ∃ since, since <:+: spans ∧
      age = some (elapsed since) ∧ ¬timeSlack < countdown spacing since) :
    Spaced spacing spans a (.tick lock age) := by
  unfold Spaced
  split
  · next before _ heq =>
    obtain ⟨rfl, rfl⟩ := Beat.tick.inj heq
    exact h rfl before rfl
  · trivial

end Beat

theorem alike_beatWatch : beatWatch.TakesCommandsAlike :=
  ⟨fun _ _ _ _ => rfl, fun _ _ => rfl, fun _ _ => rfl, fun _ _ => rfl⟩

/-! ## The gate -/

/-- Right after a tick, one that takes part in the synchronisation has to keep the whole distance,
or is held back. -/
theorem SyncPolicy.beforeTick_spacing (p : SyncPolicy) {kind : TickClass} (hk : kind.lock = true) :
    p.beforeTick kind (some 0) = (p, .proceed (countdown p.spacing []), false) ∨
    ∃ p' sending, p.beforeTick kind (some 0) = (p', .block, sending) := by
  unfold beforeTick spacing
  rw [hk]
  cases p.mode with
  | async => exact Or.inl rfl
  | stepSwitching =>
    cases p.locked with
    | true => exact Or.inr ⟨_, _, rfl⟩
    | false => exact Or.inl rfl
  | cmdSwitching =>
    cases p.locked with
    | true => exact Or.inr ⟨_, _, rfl⟩
    | false => exact Or.inl rfl

namespace Turn

variable {α : Type} [Avatar α]

/-! ## The invariant -/

/-- What is known of a tick that takes part in the synchronisation and comes next after another one.
In the midst of an advance it comes at once; a tick that has to wait does so for what is left of the
delay, and is let through when the delay has run out. -/
def Nears (spacing : Float32) (spans : List Float32) (t : Turn α) : Prop :=
  match t.exec.pending with
  | .nothing => t.exec.age = some 0
  | .pacing remaining => ∃ since, since <:+ spans ∧ t.exec.age = some (elapsed since) ∧
      remaining = countdown spacing since
  | .peer => False
  | .ready => ∃ since, since <:+ spans ∧ t.exec.age = some (elapsed since) ∧
      ¬timeSlack < countdown spacing since

/-- After those stretches of time, the ticks of the run keep their distances, and the tick ahead
will keep its own. -/
structure Paced (spacing : Float32) (spans : List Float32) (t : Turn α) : Prop where
  policy : t.exec.policy.spacing = spacing
  chain : (t.seen beatWatch).IsChain (Beat.Spaced spacing spans)
  nears : t.exec.isRunning = true → ∀ tick, t.side.left.head? = some tick →
    Avatar.isLock t.exec.own tick.name = true →
      ∀ age, (t.seen beatWatch).getLast? = some (.tick true age) → t.Nears spacing spans

namespace Paced

variable {spacing : Float32} {spans spans' : List Float32} {t t' : Turn α}

/-- What makes no beats keeps the distances, as long as the tick ahead does. -/
theorem of_same (h : t.Paced spacing spans) (hs : spans <+: spans') (hsetup : t'.setup = t.setup)
    (hseen : t'.seen beatWatch = t.seen beatWatch)
    (hnears : t'.exec.isRunning = true → t.exec.isRunning = true ∧ t'.side.left = t.side.left ∧
      (∀ name, Avatar.isLock t'.exec.own name = Avatar.isLock t.exec.own name) ∧
        (t.Nears spacing spans → t'.Nears spacing spans')) : t'.Paced spacing spans' := by
  refine ⟨(SyncPolicy.spacing_eq hsetup).trans h.policy, ?_,
    fun hr tick hhead hlock age hlast => ?_⟩
  · rw [hseen]
    exact h.chain.imp fun _ _ hab => hab.mono hs
  · obtain ⟨hr, hleft, hown, hn⟩ := hnears hr
    rw [hleft] at hhead
    rw [hown] at hlock
    rw [hseen] at hlast
    exact hn (h.nears hr tick hhead hlock age hlast)

/-- Without a run, only the ticks made so far matter. -/
theorem of_stopped (h : t.Paced spacing spans) (hs : spans <+: spans') (hsetup : t'.setup = t.setup)
    (hseen : t'.seen beatWatch = t.seen beatWatch) (hr : t'.exec.isRunning = false) :
    t'.Paced spacing spans' :=
  h.of_same hs hsetup hseen fun hr' => by cases hr.symm.trans hr'

/-- A beat that is no tick keeps the distances, whatever the tick ahead does. -/
theorem of_beat (h : t.Paced spacing spans) (hs : spans <+: spans') (hsetup : t'.setup = t.setup)
    (b : Beat) (hb : ∀ lock age, b ≠ .tick lock age)
    (hseen : t'.seen beatWatch = t.seen beatWatch ++ [b]) : t'.Paced spacing spans' := by
  refine ⟨(SyncPolicy.spacing_eq hsetup).trans h.policy, ?_, fun _ _ _ _ age hlast => ?_⟩
  · rw [hseen]
    refine (h.chain.imp fun _ _ hab => hab.mono hs).append (.singleton _) fun a _ c hc => ?_
    obtain rfl : b = c := Option.some.inj hc
    unfold Beat.Spaced
    split
    · exact absurd rfl (hb _ _)
    · trivial
  · rw [hseen, List.getLast?_append_of_ne_nil _ (List.cons_ne_nil _ _)] at hlast
    exact absurd (Option.some.inj hlast) (hb _ _)

/-- The end of a run keeps the spacing. -/
theorem finish (h : t.Paced spacing spans) (hs : spans <+: spans') {outcome : Phase}
    (ho : outcome = .completed ∨ outcome = .interrupted) :
      (t.finish outcome).Paced spacing spans' := by
  refine h.of_stopped hs (t.setup_finish outcome) ?_ ?_
  · rw [seen_finish]
    obtain rfl | rfl := ho <;> cases t.exec.policy.peerFinished <;> exact List.append_nil _
  · have hcore := t.core_finish outcome
    exact (congrArg Core.isRunning hcore).trans (Core.rests_ended _ ho).isRunning

end Paced

/-! ## The steps of an advance -/

section Advance

variable {spacing : Float32} {spans : List Float32} {t : Turn α} {tick : Tick}

/-- A tick that comes right after another one has to keep the whole distance, or is held back. -/
theorem passGate_spacing (hn : t.exec.pending = .nothing) (hage : t.exec.age = some 0)
    (hlock : Avatar.isLock t.exec.own tick.name = true) :
    (t.passGate tick = if timeSlack < countdown t.exec.policy.spacing [] then
      (t.mapExec fun e => { e with pending := .pacing (countdown t.exec.policy.spacing []) }, false)
      else (t, true)) ∨
    (t.passGate tick).1.exec.pending = .peer ∧ (t.passGate tick).2 = false := by
  have hready : ¬t.exec.pending = .ready := by
    rw [hn]
    nofun
  have hkind : (t.tickClass tick).lock = true := hlock
  unfold passGate
  rw [if_neg hready, hage]
  obtain hgate | ⟨p, sending, hgate⟩ := t.exec.policy.beforeTick_spacing hkind
  · rw [hgate]
    exact Or.inl rfl
  · rw [hgate]
    exact Or.inr ⟨rfl, rfl⟩

/-- A tick that is let through keeps its distance. One that is not will keep it. -/
theorem Paced.passGate (h : t.Paced spacing spans) (hr : t.exec.isRunning = true)
    (hn : t.exec.pending = .nothing ∨ t.exec.pending = .ready)
    (hhead : t.side.left.head? = some tick) :
    (t.passGate tick = (t, true) ∧
      ∀ b, (t.seen beatWatch).getLast? = some b →
        Beat.Spaced spacing spans b (.tick (t.tickClass tick).lock t.exec.age)) ∨
    ∃ t', t.passGate tick = (t', false) ∧ t'.Paced spacing spans := by
  obtain ⟨hg, -⟩ | ⟨delay, hg, -, -⟩ | ⟨t', hg, -, hcore, -, hseen⟩ := t.passGate_cases tick
  · refine Or.inl ⟨hg, fun b hb => Beat.spaced_of fun hlock before hbefore => ?_⟩
    have hnear := h.nears hr tick hhead hlock before (hbefore ▸ hb)
    obtain hn | hn := hn
    · have hage : t.exec.age = some 0 := by rwa [Nears, hn] at hnear
      refine ⟨[], List.nil_infix, hage, ?_⟩
      obtain hd | ⟨-, hd⟩ := passGate_spacing hn hage hlock
      · rw [hg, h.policy] at hd
        split at hd
        · cases congrArg Prod.snd hd
        · next hout => exact hout
      · cases (congrArg Prod.snd hg).symm.trans hd
    · rw [Nears, hn] at hnear
      obtain ⟨since, hin, hage, hout⟩ := hnear
      exact ⟨since, hin.isInfix, hage, hout⟩
  · refine Or.inr ⟨_, hg, h.policy, h.chain, fun _ other hother hlock before hbefore => ?_⟩
    obtain rfl : tick = other := Option.some.inj (hhead.symm.trans hother)
    have hnear := h.nears hr tick hhead hlock before hbefore
    obtain hn | hn := hn
    · have hage : t.exec.age = some 0 := by rwa [Nears, hn] at hnear
      obtain hd | ⟨hd, -⟩ := passGate_spacing hn hage hlock
      · rw [hg] at hd
        split at hd
        · have hdelay := congrArg (fun r => r.1.exec.pending) hd
          exact ⟨[], List.nil_suffix, hage, h.policy ▸ Pending.pacing.inj hdelay⟩
        · cases congrArg Prod.snd hd
      · cases (congrArg (fun r => r.1.exec.pending) hg).symm.trans hd
    · have hpass : t.passGate tick = (t, true) := by rw [Turn.passGate, if_pos hn]
      cases congrArg Prod.snd (hpass.symm.trans hg)
  · have hbeats : t'.seen beatWatch = t.seen beatWatch ++ [.held] := by
      rw [hseen]
      cases t.exec.policy.owesRelease <;> rfl
    have hsetup : t'.setup = t.setup := by
      rw [setup, hcore, Core.setup_heldBack]
      rfl
    have hheld : ∀ lock age, Beat.held ≠ .tick lock age := fun _ _ he => Beat.noConfusion he
    exact Or.inr ⟨t', hg, h.of_beat List.prefix_rfl hsetup .held hheld hbeats⟩

/-- A tick keeps the spacing if it is spaced from the beat in front of it. -/
theorem Paced.makeTick (h : t.Paced spacing spans)
    (hnext : ∀ b, (t.seen beatWatch).getLast? = some b →
      Beat.Spaced spacing spans b (.tick (t.tickClass tick).lock t.exec.age)) :
    (t.makeTick tick).Paced spacing spans := by
  have hbeats : (t.makeTick tick).seen beatWatch =
      t.seen beatWatch ++ [.tick (t.tickClass tick).lock t.exec.age] := by
    rw [seen_makeTick _ _ _ alike_beatWatch, Watch.ofTick]
    cases t.exec.policy.releasesAfter (t.tickClass tick) <;> cases tick.wait <;> rfl
  refine ⟨(SyncPolicy.spacing_eq (t.setup_makeTick tick)).trans h.policy, ?_, ?_⟩
  · rw [hbeats]
    refine h.chain.append (.singleton _) fun a ha b hb => ?_
    obtain rfl := Option.some.inj hb
    exact hnext a ha
  · intro _ _ _ _ _ _
    have hcore := t.core_makeTick tick
    rw [Nears, show (t.makeTick tick).exec.pending = .nothing from congrArg Core.pending hcore]
    exact congrArg Core.age hcore

/-- An advance keeps the spacing. -/
theorem Paced.advanceBy : ∀ (n : Nat) {t : Turn α}, t.Paced spacing spans →
    t.exec.phase = .running → t.exec.pending = .nothing ∨ t.exec.pending = .ready →
      (advanceBy n t).Paced spacing spans
  | 0, _, h, _, _ => h
  | n + 1, t, h, hp, hn => by
    have hr : t.exec.isRunning = true := by
      rw [Executor.isRunning, hp]
      rfl
    unfold Turn.advanceBy
    split
    · exact h.finish List.prefix_rfl (Or.inr rfl)
    · cases hnext : t.exec.cursor.next? t.exec.waitRule t.script with
      | none => exact h.finish List.prefix_rfl (Or.inl rfl)
      | some found =>
        obtain ⟨c, tick⟩ := found
        obtain ⟨hside, rest, hrest⟩ := side_moveTo hnext
        have hmove : (t.moveTo c).Paced spacing spans :=
          h.of_same List.prefix_rfl rfl rfl fun hr =>
            ⟨hr, congrArg Side.left hside, fun _ => rfl, fun hn => hn⟩
        have hhead : (t.moveTo c).side.left.head? = some tick := by
          rw [hside, hrest]
          rfl
        obtain ⟨hg, hspaced⟩ | ⟨t', hg, hpaced⟩ := hmove.passGate hr hn hhead
        · dsimp only
          rw [hg]
          have hcore := (t.moveTo c).core_makeTick tick
          exact (hmove.makeTick hspaced).advanceBy n ((congrArg Core.phase hcore).trans hp)
            (Or.inl (congrArg Core.pending hcore))
        · dsimp only
          rw [hg]
          exact hpaced

end Advance

/-! ## Whatever happens to a run -/

section Run

variable {spacing : Float32} {spans : List Float32} {t : Turn α}

omit [Avatar α] in
/-- While a tick is put off, a stretch of time is counted up for the age of the tick before it, and
down for the delay. -/
theorem Nears.pass {remaining : Float32} (h : t.Nears spacing spans)
    (hn : t.exec.pending = .pacing remaining) (dt : Float32) :
    ∃ since, since <:+ spans ++ [dt] ∧ t.exec.age.map (· + dt) = some (elapsed since) ∧
      remaining - dt = countdown spacing since := by
  rw [Nears, hn] at h
  obtain ⟨since, ⟨before, hsuffix⟩, hage, hleft⟩ := h
  refine ⟨since ++ [dt], ⟨before, by rw [← List.append_assoc, hsuffix]⟩, ?_, ?_⟩
  · rw [hage, elapsed_concat]
    rfl
  · rw [hleft, countdown_concat]

/-- Once time has passed for a run that has halted, the tick ahead is let through or waits on. -/
theorem Paced.passTime (h : t.Paced spacing spans) (hh : t.exec.core.Halted) (dt : Float32)
    {u : Turn α} (hu : u = t.nextUpdate.mapExec fun e => { e with age := e.age.map (· + dt) }) :
    (u.passTime dt).1.Paced spacing (spans ++ [dt]) ∧
      ((u.passTime dt).2 = true →
        (u.passTime dt).1.exec.phase = .running ∧ (u.passTime dt).1.exec.pending = .ready) := by
  have hs : spans <+: spans ++ [dt] := List.prefix_append spans [dt]
  have hr : t.exec.isRunning = true := hh.isRunning
  have hpending : u.exec.pending = t.exec.pending := by rw [hu]; rfl
  have hpolicy : u.exec.policy = t.exec.policy := by rw [hu]; rfl
  obtain ⟨hp, hn⟩ | ⟨hp, remaining, hn, -⟩ := hh
  -- While a run waits for the other device, its next tick does not follow another one.
  · have hn : t.exec.pending = .peer := hn
    have hfalse : ∀ {p : Prop}, t.Nears spacing spans → p := fun hnear => by
      rw [Nears, hn] at hnear
      exact hnear.elim
    unfold Turn.passTime
    rw [hpending, hn, hpolicy]
    dsimp only
    obtain ⟨-, hw⟩ | ⟨-, held, hw⟩ | ⟨-, held, hw⟩ := t.exec.policy.waitFor_cases dt
    · rw [hw]
      subst hu
      exact ⟨h.of_same hs rfl rfl fun _ => ⟨hr, rfl, fun _ => rfl, hfalse⟩, fun _ => ⟨rfl, rfl⟩⟩
    · rw [hw]
      subst hu
      exact ⟨h.of_beat hs rfl .forced nofun (seen_record (setPolicy _ _) _ _), fun _ => ⟨rfl, rfl⟩⟩
    · rw [hw]
      subst hu
      exact ⟨h.of_same hs rfl rfl fun _ => ⟨hr, rfl, fun _ => rfl, hfalse⟩, nofun⟩
  · have hp : t.exec.phase = .running := hp
    have hn : t.exec.pending = .pacing remaining := hn
    unfold Turn.passTime
    rw [hpending, hn]
    subst hu
    dsimp only
    split
    · exact ⟨h.of_same hs rfl rfl fun _ => ⟨hr, rfl, fun _ => rfl, fun hnear => hnear.pass hn dt⟩,
        nofun⟩
    · next hout =>
      refine ⟨h.of_same hs rfl rfl fun _ => ⟨hr, rfl, fun _ => rfl, fun hnear => ?_⟩,
        fun _ => ⟨hp, rfl⟩⟩
      obtain ⟨since, hin, hage, hleft⟩ := hnear.pass hn dt
      exact ⟨since, hin, hage, hleft ▸ hout⟩

/-- An update keeps it with another span of time. -/
theorem Paced.update (h : t.Paced spacing spans) (hset : t.exec.Settled) (dt : Float32) :
    (t.update dt).Paced spacing (spans ++ [dt]) := by
  have hs : spans <+: spans ++ [dt] := List.prefix_append spans [dt]
  unfold Turn.update
  split
  · next hr => exact h.of_stopped hs rfl rfl (by simpa using hr)
  · next hr =>
    obtain ⟨-, hh⟩ := hset.halts_of_running (by simpa using hr)
    dsimp only
    split
    · have hnext : t.nextUpdate.Paced spacing spans :=
        h.of_same List.prefix_rfl rfl rfl fun hr => ⟨hr, rfl, fun _ => rfl, fun hn => hn⟩
      exact hnext.finish hs (Or.inr rfl)
    · obtain ⟨hpaced, hgo⟩ := h.passTime hh dt rfl
      split
      · next hpass =>
        rw [hpass] at hpaced hgo
        obtain ⟨hp, hn⟩ := hgo rfl
        exact hpaced.advanceBy _ hp (Or.inr hn)
      · next hpass =>
        rw [hpass] at hpaced
        exact hpaced

theorem settled_serve (h : t.exec.Settled) (call : Call) : (t.serve call).exec.Settled := by
  cases call with
  | update dt =>
    cases hr : t.exec.isRunning with
    | true =>
      obtain ⟨hu, hh⟩ := h.halts_of_running hr
      exact (runsTo_update hu hh dt).settled
    | false =>
      rw [serve, Turn.update, hr]
      exact h
  | release => exact settled_afterRelease h
  | peerEnd => exact settled_afterPeerEnd h
  | command name args =>
    exact settled_of_same h (t.core_dispatch name args true) (still_dispatch · name args true)
  | interrupt =>
    rw [serve, Turn.interrupt]
    split
    · exact settled_finish _ (Or.inr rfl)
    · exact h
  | clearFlag => exact settled_of_same h rfl fun hs => ⟨rfl, hs.shownTop, hs.shownChild⟩

/-- In calls in which no time passes, the run keeps its distances. -/
theorem Paced.serve_of_span? [Avatar.Steady α] (h : t.Paced spacing spans) {call : Call}
    (hc : call.span? = none) : (t.serve call).Paced spacing spans := by
  cases call with
  | update dt => cases hc
  | release =>
    exact h.of_same List.prefix_rfl rfl ((t.seen_afterRelease _).trans (List.append_nil _))
      fun hr => ⟨hr, rfl, fun _ => rfl, fun hn => hn⟩
  | peerEnd =>
    have hseen : t.afterPeerEnd.seen beatWatch = t.seen beatWatch := by
      rw [seen_afterPeerEnd]
      cases t.side.due <;> exact List.append_nil _
    by_cases hd : t.exec.cleanupDue = true
    · refine h.of_stopped List.prefix_rfl t.setup_afterPeerEnd hseen ?_
      have hside : t.afterPeerEnd.side.isRunning = false := by
        rw [side_afterPeerEnd, Side.peerEnded, if_pos (show t.side.due = true from hd)]
        rfl
      exact hside
    · have hend : t.afterPeerEnd =
          (t.record .peerFinished).setPolicy t.exec.policy.afterPeerEnd := by
        rw [afterPeerEnd]
        exact if_neg hd
      refine h.of_same List.prefix_rfl t.setup_afterPeerEnd hseen fun hr => ?_
      rw [Turn.serve, hend] at hr ⊢
      exact ⟨hr, rfl, fun _ => rfl, fun hn => hn⟩
  | command name args =>
    have hcore := t.core_dispatch name args true
    have hpending : (t.dispatch name args true).1.exec.pending = t.exec.pending :=
      congrArg Core.pending hcore
    have hage : (t.dispatch name args true).1.exec.age = t.exec.age := congrArg Core.age hcore
    refine h.of_same List.prefix_rfl (t.setup_dispatch name args true) ?_ fun hr => ?_
    · exact (t.seen_dispatch _ name args true alike_beatWatch).trans (List.append_nil _)
    · refine ⟨(congrArg Core.isRunning hcore).symm.trans hr,
        congrArg Side.left (t.side_dispatch name args true), t.isLock_dispatch name args true,
        fun hn => ?_⟩
      rw [Nears] at hn ⊢
      rwa [Turn.serve, hpending, hage]
  | interrupt =>
    rw [Turn.serve, Turn.interrupt]
    split
    · exact h.finish List.prefix_rfl (Or.inr rfl)
    · exact h
  | clearFlag =>
    exact h.of_same List.prefix_rfl rfl rfl fun hr => ⟨hr, rfl, fun _ => rfl, fun hn => hn⟩

/-- Whatever happens, the run keeps its distances. -/
theorem Paced.serve [Avatar.Steady α] (h : t.Paced spacing spans) (hset : t.exec.Settled)
    (call : Call) : (t.serve call).Paced spacing (spans ++ call.span?.toList) := by
  cases hc : call.span? with
  | none =>
    rw [Option.toList_none, List.append_nil]
    exact h.serve_of_span? hc
  | some dt =>
    obtain rfl : call = .update dt := by
      cases call with
      | update => exact congrArg Call.update (Option.some.inj hc)
      | release | peerEnd | command | interrupt | clearFlag => cases hc
    exact h.update hset dt

/-- A run that has just been started keeps its distances. -/
theorem paced_run (e : Executor α) (s : Script) (he : e.isRunning = false) :
    (e.on s).run.1.Paced e.policy.spacing [] := by
  have hseen : (e.on s).begin.seen beatWatch = [] := by
    rw [seen_begin]
    cases (e.on s).exec.cleanupDue <;> rfl
  have hcore := (e.on s).core_begin
  have hbegin : (e.on s).begin.Paced e.policy.spacing [] := by
    refine ⟨SyncPolicy.spacing_eq (e.on s).setup_begin, hseen ▸ .nil, fun _ _ _ _ _ hlast => ?_⟩
    rw [hseen] at hlast
    cases hlast
  rw [run, show (e.on s).exec.isRunning = false from he]
  exact hbegin.advanceBy _ (congrArg Core.phase hcore) (Or.inl (congrArg Core.pending hcore))

/-- In every run, whatever happens to it : of two ticks that take part in the synchronisation, with
no other tick between them, the later one was held back until the other device released this one or
finished, or until the lock was held for too long, or else it is made once the delay for the
distance has been counted down, and is as old as the time that has passed since the earlier one. -/
theorem spaced_unless_held [Avatar.Steady α] (e : Executor α) (s : Script)
    (he : e.isRunning = false) (calls : List Call) :
    ((calls.foldl serve (e.on s).run.1).seen beatWatch).IsChain
      (Beat.Spaced e.policy.spacing (calls.filterMap Call.span?)) := by
  have hrun : ∀ (calls : List Call) {t : Turn α} {spans : List Float32}, t.exec.Settled →
      t.Paced e.policy.spacing spans →
        (calls.foldl serve t).Paced e.policy.spacing (spans ++ calls.filterMap Call.span?) := by
    intro calls
    induction calls with
    | nil =>
      intro t spans _ h
      rwa [List.filterMap_nil, List.append_nil]
    | cons call calls ih =>
      intro t spans hset h
      have hnext := ih (settled_serve hset call) (h.serve hset call)
      rw [List.append_assoc] at hnext
      cases hspan : call.span? <;> simpa [hspan] using hnext
  have hset : (e.on s).run.1.exec.Settled := (runsTo_run he).settled
  exact (hrun calls hset (paced_run e s he)).chain

end Run

/-! ## Two devices -/

/-- A device that steps in parallel with the other one. -/
def steppingDevice : Executor GridAvatar :=
  (Simulation.device .standard .master).exec

/-- Two commands that take part in the synchronisation. -/
def twoSteps : Script :=
  ⟨[.ofName "MOVE" ["EAST"], .ofName "MOVE" ["EAST"]]⟩

/-- A step that was held back is made as soon as the other device has released this one, an eighth
after the step before it, although the policy is to keep half a unit between them and no lock was
held for too long. -/
theorem released_too_soon :
    let t := [Call.release, .update 0.125].foldl serve (steppingDevice.on twoSteps).run.1
    Timings.check .standard = .ok () ∧ steppingDevice.isRunning = false ∧
      steppingDevice.policy.timings = .standard ∧ steppingDevice.policy.mode = .stepSwitching ∧
      t.seen beatWatch = [.tick true none, .held, .tick true (some 0.125)] ∧
      0.125 < Timings.standard.smoothingDelay - timeSlack := by
  decide +kernel

/-- A device that is on its own keeps its distances once the other one has finished. -/
theorem spaced_after_peer_end :
    let calls : List Call := [.peerEnd, .update 0.25, .update 0.25, .update 0.25]
    let t := calls.foldl serve (steppingDevice.on spiral).run.1
    steppingDevice.isRunning = false ∧
      t.seen beatWatch = [.tick true none, .held, .tick true (some 0.25), .tick true (some 0.5)] ∧
      (t.seen beatWatch).IsChain
        (Beat.Spaced steppingDevice.policy.spacing (calls.filterMap Call.span?)) :=
  ⟨by decide +kernel, by decide +kernel, spaced_unless_held steppingDevice spiral (by decide) _⟩

end Turn

end Tandem
