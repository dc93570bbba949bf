import Tandem.Proofs.Script.Expansion
import Tandem.Proofs.Script.Running

/-!
# Scripts that run alike

A run reads little of a script : the names and arguments of its leaves, the counts of its loops, and
which commands are disabled. Scripts are alike if they are the same code and the flags of their
commands, one by one, look the same to a `view` of flags. Scripts of the same code with the same
commands disabled are alike (`Script.alike_of_sameCode`).

Alike scripts have the same next tick from every cursor (`Script.Alike.next?_eq`), and showing a
command as running leaves them alike (`Script.Alike.setRunning`).
-/

namespace Tandem

/-- What a run reads and writes of the flags of a command. -/
def Flags.gist (f : Flags) : Bool × Bool := (f.disabled, f.running)

namespace Command

variable {β γ : Type}

mutual

/-- The commands are the same code, and at every place their flags have the same view. -/
def Alike (view : Flags → β) : Command → Command → Prop
  | leaf a, leaf b => a.name = b.name ∧ a.args = b.args ∧ view a.flags = view b.flags
  | loop a n cs, loop b m ds => view a.flags = view b.flags ∧ n = m ∧ AllAlike view cs ds
  | _, _ => False

/-- The commands of the one list are alike to those of the other, one by one. -/
def AllAlike (view : Flags → β) : List Command → List Command → Prop
  | [], [] => True
  | c :: cs, d :: ds => Alike view c d ∧ AllAlike view cs ds
  | _, _ => False

end

mutual

theorem Alike.refl (view : Flags → β) : ∀ c : Command, Alike view c c
  | leaf _ => ⟨rfl, rfl, rfl⟩
  | loop _ _ cs => ⟨rfl, rfl, AllAlike.refl view cs⟩

theorem AllAlike.refl (view : Flags → β) : ∀ cs : List Command, AllAlike view cs cs
  | [] => trivial
  | c :: cs => ⟨Alike.refl view c, AllAlike.refl view cs⟩

end

mutual

/-- Likeness has no direction. -/
theorem Alike.symm {view : Flags → β} : ∀ {c d : Command}, Alike view c d → Alike view d c
  | leaf _, leaf _, h => ⟨h.1.symm, h.2.1.symm, h.2.2.symm⟩
  | loop _ _ _, loop _ _ _, h => ⟨h.1.symm, h.2.1.symm, AllAlike.symm h.2.2⟩
  | leaf _, loop _ _ _, h => nomatch h
  | loop _ _ _, leaf _, h => nomatch h

theorem AllAlike.symm {view : Flags → β} :
    ∀ {cs ds : List Command}, AllAlike view cs ds → AllAlike view ds cs
  | [], [], _ => trivial
  | _ :: _, _ :: _, h => ⟨Alike.symm h.1, AllAlike.symm h.2⟩
  | [], _ :: _, h => nomatch h
  | _ :: _, [], h => nomatch h

end

mutual

/-- Commands whose flags are changed where the view does not look are alike to what they were. -/
theorem alike_mapFlags {view : Flags → β} {φ : Flags → Flags} (h : ∀ f, view (φ f) = view f) :
    ∀ c : Command, Alike view (mapHeads (fun b => { b with flags := φ b.flags }) c) c
  | leaf _ => ⟨rfl, rfl, h _⟩
  | loop _ _ cs => ⟨h _, rfl, allAlike_mapFlags h cs⟩

/-- A change of flags that the view does not show leaves the commands alike. -/
theorem allAlike_mapFlags {view : Flags → β} {φ : Flags → Flags} (h : ∀ f, view (φ f) = view f) :
    ∀ cs : List Command,
      AllAlike view (mapHeadsList (fun b => { b with flags := φ b.flags }) cs) cs
  | [] => trivial
  | c :: cs => ⟨alike_mapFlags h c, allAlike_mapFlags h cs⟩

end

/-! ## The same code -/

mutual

theorem length_nodes_of_sameCode : ∀ (c d : Command) (p q : Path), sameCode c d = true →
    (nodes p c).length = (nodes q d).length
  | leaf _, leaf _, _, _, _ => rfl
  | loop _ _ cs, loop _ _ ds, p, q, h => by
    rw [sameCode, Bool.and_eq_true] at h
    rw [nodes, nodes, List.length_cons, List.length_cons,
      length_nodesList_of_sameCode cs ds p q 0 0 h.2]
  | leaf _, loop _ _ _, _, _, h => nomatch h
  | loop _ _ _, leaf _, _, _, h => nomatch h

theorem length_nodesList_of_sameCode : ∀ (cs ds : List Command) (p q : Path) (i j : Nat),
    sameCodeList cs ds = true → (nodesList p i cs).length = (nodesList q j ds).length
  | [], [], _, _, _, _, _ => rfl
  | c :: cs, d :: ds, p, q, i, j, h => by
    rw [sameCodeList, Bool.and_eq_true] at h
    rw [nodesList, nodesList, List.length_append, List.length_append,
      length_nodes_of_sameCode c d _ _ h.1,
      length_nodesList_of_sameCode cs ds p q (i + 1) (j + 1) h.2]
  | [], _ :: _, _, _, _, _, h => nomatch h
  | _ :: _, [], _, _, _, _, h => nomatch h

end

mutual

/-- Two commands of the same code are alike, if their nodes look the same one by one. -/
theorem alike_of_sameCode {view : Flags → β} : ∀ (c d : Command) (p q : Path),
    sameCode c d = true →
      (nodes p c).map (view ·.2.flags) = (nodes q d).map (view ·.2.flags) → Alike view c d
  | leaf _, leaf _, _, _, h, hv => by
    simp only [sameCode, Bool.and_eq_true, decide_eq_true_iff] at h
    exact ⟨h.1, h.2, (List.cons.inj hv).1⟩
  | loop _ _ cs, loop _ _ ds, p, q, h, hv => by
    simp only [sameCode, Bool.and_eq_true, decide_eq_true_iff] at h
    obtain ⟨hhead, hv⟩ := List.cons.inj hv
    exact ⟨hhead, h.1, allAlike_of_sameCode cs ds p q 0 0 h.2 hv⟩
  | leaf _, loop _ _ _, _, _, h, _ => nomatch h
  | loop _ _ _, leaf _, _, _, h, _ => nomatch h

theorem allAlike_of_sameCode {view : Flags → β} : ∀ (cs ds : List Command) (p q : Path)
    (i j : Nat), sameCodeList cs ds = true →
      (nodesList p i cs).map (view ·.2.flags) = (nodesList q j ds).map (view ·.2.flags) →
        AllAlike view cs ds
  | [], [], _, _, _, _, _, _ => trivial
  | c :: cs, d :: ds, p, q, i, j, h, hv => by
    rw [sameCodeList, Bool.and_eq_true] at h
    rw [nodesList, nodesList, List.map_append, List.map_append] at hv
    have hlen := length_nodes_of_sameCode c d (p ++ [i]) (q ++ [j]) h.1
    obtain ⟨hc, hcs⟩ := List.append_inj hv (by rw [List.length_map, List.length_map, hlen])
    exact ⟨alike_of_sameCode c d _ _ h.1 hc, allAlike_of_sameCode cs ds p q _ _ h.2 hcs⟩
  | [], _ :: _, _, _, _, _, h, _ => nomatch h
  | _ :: _, [], _, _, _, _, h, _ => nomatch h

end

/-! ## Other flags -/

section Flags

variable {view : Flags → β} {view' : Flags → γ}

mutual

/-- What looks the same to one view looks the same to a view that it decides. -/
theorem Alike.mono (h : ∀ f g, view f = view g → view' f = view' g) :
    ∀ {c d : Command}, Alike view c d → Alike view' c d
  | leaf _, leaf _, hc => ⟨hc.1, hc.2.1, h _ _ hc.2.2⟩
  | loop _ _ _, loop _ _ _, hc => ⟨h _ _ hc.1, hc.2.1, AllAlike.mono h hc.2.2⟩
  | leaf _, loop _ _ _, hc => nomatch hc
  | loop _ _ _, leaf _, hc => nomatch hc

theorem AllAlike.mono (h : ∀ f g, view f = view g → view' f = view' g) :
    ∀ {cs ds : List Command}, AllAlike view cs ds → AllAlike view' cs ds
  | [], [], _ => trivial
  | _ :: _, _ :: _, hc => ⟨Alike.mono h hc.1, AllAlike.mono h hc.2⟩
  | [], _ :: _, hc => nomatch hc
  | _ :: _, [], hc => nomatch hc

end

variable {φ : Flags → Flags}

mutual

/-- The flags of all commands are changed in the same way. -/
theorem Alike.mapHeads (h : ∀ f g, view f = view g → view' (φ f) = view' (φ g)) :
    ∀ {c d : Command}, Alike view c d →
      Alike view' (c.mapHeads fun b => { b with flags := φ b.flags })
        (d.mapHeads fun b => { b with flags := φ b.flags })
  | leaf _, leaf _, hc => ⟨hc.1, hc.2.1, h _ _ hc.2.2⟩
  | loop _ _ _, loop _ _ _, hc => ⟨h _ _ hc.1, hc.2.1, AllAlike.mapHeadsList h hc.2.2⟩
  | leaf _, loop _ _ _, hc => nomatch hc
  | loop _ _ _, leaf _, hc => nomatch hc

theorem AllAlike.mapHeadsList (h : ∀ f g, view f = view g → view' (φ f) = view' (φ g)) :
    ∀ {cs ds : List Command}, AllAlike view cs ds →
      AllAlike view' (Command.mapHeadsList (fun b => { b with flags := φ b.flags }) cs)
        (Command.mapHeadsList (fun b => { b with flags := φ b.flags }) ds)
  | [], [], _ => trivial
  | _ :: _, _ :: _, hc => ⟨Alike.mapHeads h hc.1, AllAlike.mapHeadsList h hc.2⟩
  | [], _ :: _, hc => nomatch hc
  | _ :: _, [], hc => nomatch hc

end

/-- The flags of one command are changed in the same way. -/
theorem Alike.mapFlags (h : ∀ f g, view f = view g → view (φ f) = view (φ g)) {c d : Command}
    (hc : Alike view c d) : Alike view (c.mapFlags φ) (d.mapFlags φ) := by
  cases c <;> cases d
  · exact ⟨hc.1, hc.2.1, h _ _ hc.2.2⟩
  · exact nomatch hc
  · exact nomatch hc
  · exact ⟨h _ _ hc.1, hc.2⟩

end Flags

/-! ## One command among others -/

section Modify

variable {view : Flags → β} {g : Command → Command}

/-- Lists of commands stay alike when the same command of both is changed alike. -/
theorem AllAlike.modify (h : ∀ {c d}, Alike view c d → Alike view (g c) (g d)) :
    ∀ {cs ds : List Command} (i : Nat), AllAlike view cs ds →
      AllAlike view (cs.modify i g) (ds.modify i g)
  | [], [], _, _ => by simp [AllAlike]
  | _ :: _, _ :: _, 0, hc => ⟨h hc.1, hc.2⟩
  | _ :: _, _ :: _, i + 1, hc => ⟨hc.1, AllAlike.modify h i hc.2⟩
  | [], _ :: _, _, hc => nomatch hc
  | _ :: _, [], _, hc => nomatch hc

/-- Commands stay alike when the same place in both is changed alike. -/
theorem Alike.modify (h : ∀ {c d}, Alike view c d → Alike view (g c) (g d)) :
    ∀ (path : Path) {c d : Command}, Alike view c d →
      Alike view (Command.modify g path c) (Command.modify g path d)
  | [], _, _, hc => h hc
  | _ :: _, leaf _, leaf _, hc => hc
  | i :: path, loop _ _ _, loop _ _ _, hc =>
    ⟨hc.1, hc.2.1, AllAlike.modify (Alike.modify h path) i hc.2.2⟩
  | _ :: _, leaf _, loop _ _ _, hc => nomatch hc
  | _ :: _, loop _ _ _, leaf _, hc => nomatch hc

end Modify

/-! ## The same ticks -/

section Ticks

variable (rule : WaitRule)

/-- The name and the arguments of a leaf settle its ticks. -/
theorem leafTicks_of_eq {a b : CommandHead} (hn : a.name = b.name) (ha : a.args = b.args) :
    rule.leafTicks a = rule.leafTicks b := by
  rw [WaitRule.leafTicks, WaitRule.leafTicks, hn, ha]

mutual

/-- Commands that differ in nothing but flags, and have the same ones disabled, take the same ticks.
-/
theorem Alike.ticks_eq : ∀ {c d : Command}, Alike Flags.disabled c d → ticks rule c = ticks rule d
  | leaf _, leaf _, hc => by rw [ticks, ticks, hc.2.2, leafTicks_of_eq rule hc.1 hc.2.1]
  | loop _ _ _, loop _ _ _, hc => by
    rw [ticks, ticks, hc.1, hc.2.1, AllAlike.ticksList_eq hc.2.2]
  | leaf _, loop _ _ _, hc => nomatch hc
  | loop _ _ _, leaf _, hc => nomatch hc

theorem AllAlike.ticksList_eq : ∀ {cs ds : List Command}, AllAlike Flags.disabled cs ds →
    ticksList rule cs = ticksList rule ds
  | [], [], _ => rfl
  | _ :: _, _ :: _, hc => by
    rw [ticksList, ticksList, Alike.ticks_eq hc.1, AllAlike.ticksList_eq hc.2]
  | [], _ :: _, hc => nomatch hc
  | _ :: _, [], hc => nomatch hc

end

theorem AllAlike.hasTicksList_eq {cs ds : List Command} (h : AllAlike Flags.disabled cs ds) :
    hasTicksList rule cs = hasTicksList rule ds := by
  rw [Bool.eq_iff_iff, hasTicksList_iff, hasTicksList_iff, h.ticksList_eq]

theorem AllAlike.length_eq {view : Flags → β} : ∀ {cs ds : List Command}, AllAlike view cs ds →
    cs.length = ds.length
  | [], [], _ => rfl
  | _ :: _, _ :: _, hc => congrArg (· + 1) (AllAlike.length_eq hc.2)
  | [], _ :: _, hc => nomatch hc
  | _ :: _, [], hc => nomatch hc

end Ticks

end Command

namespace Walk

open Command

variable (rule : WaitRule)

mutual

/-- The search finds the same tick in commands that have the same parts disabled. -/
theorem inCommand?_of_alike (i : Nat) : ∀ {c d : Command}, Alike Flags.disabled c d →
    ∀ frames spent, inCommand? rule i c frames spent = inCommand? rule i d frames spent
  | .leaf _, .leaf _, hc, frames, spent => by
    obtain ⟨hn, ha, hd⟩ := hc
    rw [inCommand?, inCommand?, hd, leafTicks_of_eq rule hn ha, hn, ha]
  | .loop _ n cs, .loop _ _ ds, hc, frames, spent => by
    obtain ⟨hd, rfl, hcs⟩ := hc
    have hamong : amongCommands? rule 0 cs = amongCommands? rule 0 ds := by
      funext child inner spent
      exact amongCommands?_of_alike 0 hcs child inner spent
    unfold inCommand?
    rw [hd, hamong, hcs.hasTicksList_eq, hcs.length_eq]
  | .leaf _, .loop _ _ _, hc, _, _ => nomatch hc
  | .loop _ _ _, .leaf _, hc, _, _ => nomatch hc

/-- The search finds the same tick among such commands. -/
theorem amongCommands?_of_alike (i : Nat) : ∀ {cs ds : List Command},
    AllAlike Flags.disabled cs ds → ∀ start frames spent,
      amongCommands? rule i cs start frames spent = amongCommands? rule i ds start frames spent
  | [], [], _, _, _, _ => rfl
  | c :: cs, d :: ds, hc, start, frames, spent => by
    rw [amongCommands?, amongCommands?, inCommand?_of_alike i hc.1,
      amongCommands?_of_alike (i + 1) hc.2, amongCommands?_of_alike (i + 1) hc.2]
  | [], _ :: _, hc, _, _, _ => nomatch hc
  | _ :: _, [], hc, _, _, _ => nomatch hc

end

end Walk

namespace Script

variable {β γ : Type} {view : Flags → β} {view' : Flags → γ} {s s' : Script}

/-- The scripts are the same code, and at every place the flags of their commands have the same
view. -/
def Alike (view : Flags → β) (s s' : Script) : Prop :=
  Command.AllAlike view s.commands s'.commands

/-- Scripts of the same code with the same commands disabled are alike. -/
theorem alike_of_sameCode (h : s.sameCode s' = true)
    (hd : s.nodes.map (·.2.disabled) = s'.nodes.map (·.2.disabled)) :
    s.Alike Flags.disabled s' :=
  Command.allAlike_of_sameCode _ _ [] [] 0 0 h hd

namespace Alike

theorem refl (view : Flags → β) (s : Script) : s.Alike view s :=
  Command.AllAlike.refl view s.commands

theorem symm (h : s.Alike view s') : s'.Alike view s :=
  Command.AllAlike.symm h

/-- Scripts that look alike look alike to whoever sees less of the flags. -/
theorem mono (h : s.Alike view s') (hv : ∀ f g, view f = view g → view' f = view' g) :
    s.Alike view' s' :=
  Command.AllAlike.mono hv h

/-- Scripts with the same gist have the same commands disabled. -/
theorem disabled (h : s.Alike Flags.gist s') : s.Alike Flags.disabled s' :=
  h.mono fun _ _ hfg => congrArg Prod.fst hfg

theorem length_eq (h : s.Alike view s') : s.length = s'.length :=
  Command.AllAlike.length_eq h

/-- Alike scripts take the same ticks. -/
theorem ticks_eq (h : s.Alike Flags.disabled s') (rule : WaitRule) :
    s.ticks rule = s'.ticks rule :=
  Command.AllAlike.ticksList_eq rule h

/-- The walk through either script finds the same tick. -/
theorem next?_eq (h : s.Alike Flags.disabled s') (rule : WaitRule) (c : Cursor) :
    c.next? rule s = c.next? rule s' := by
  rw [Cursor.next?, Cursor.next?, Walk.amongCommands?_of_alike rule 0 h]

/-- The same command is shown as running, or is no more. -/
theorem setRunning (h : s.Alike Flags.gist s') (path : Path) (value : Bool) :
    (s.setRunning path value).Alike Flags.gist (s'.setRunning path value) := by
  have hset : ∀ {c d : Command}, Command.Alike Flags.gist c d →
      Command.Alike Flags.gist (c.setRunning value) (d.setRunning value) :=
    Command.Alike.mapFlags fun _ _ hfg => congrArg (·.1, value) hfg
  cases path with
  | nil => exact h
  | cons i path => exact Command.AllAlike.modify (Command.Alike.modify hset path) i h

/-- With no command shown as running, alike scripts also look alike. -/
theorem clearRunning (h : s.Alike Flags.disabled s') :
    s.clearRunning.Alike Flags.gist s'.clearRunning := by
  refine Command.AllAlike.mapHeadsList (φ := fun f => { f with running := false }) ?_ h
  intro f g hfg
  exact congrArg (·, false) hfg

end Alike

/-- Scripts that differ in running flags alone have the same next tick. -/
theorem next?_congr (h : s'.clearRunning = s.clearRunning) (rule : WaitRule) (c : Cursor) :
    c.next? rule s' = c.next? rule s := by
  have hclear : ∀ s : Script, c.next? rule s.clearRunning = c.next? rule s := by
    intro s
    have halike : s.clearRunning.Alike Flags.disabled s :=
      Command.allAlike_mapFlags (φ := fun f => { f with running := false }) (fun _ => rfl) _
    exact halike.next?_eq rule c
  rw [← hclear s', h, hclear s]

end Script

end Tandem
