import Tandem.Proofs.Script.Marks

/-!
# Editing one command at a time

The store remembers the path of the command that is being edited, and ends its editing by clearing
the mark of whatever that path leads to. Commands may be pushed and taken out meanwhile. While none
is taken out in front of the one being edited, the path goes on leading to it, and it is the only
one that is marked. Each command taken out in front of it can leave one mark behind, which no end of
editing is bound to clear: a script has to be loaded or restored.
-/

namespace Tandem

namespace Script

/-- The script as the body of one loop. -/
def root (s : Script) : Command :=
  .loop (.plain loopName []) 1 s.commands

/-- The number of marked commands in the script. -/
def marks (s : Script) : Nat :=
  Command.marksList s.commands

/-- The command at the path is there, and is marked. -/
def markedAt (s : Script) (path : Path) : Bool :=
  (s.get? path).any (·.flags.edited)

section Root

variable {s s' : Script} {path : Path} {f : Command → Command}

/-- A script has the marks of its commands. -/
theorem marks_root (s : Script) : s.root.marks = s.marks :=
  Nat.zero_add _

theorem markedAt_root (s : Script) (path : Path) : s.root.markedAt path = s.markedAt path := by
  cases path <;> rfl

theorem get?_root (h : path ≠ []) : s.root.get? path = s.get? path := by
  cases path with
  | nil => exact absurd rfl h
  | cons i path => rfl

theorem root_modify (h : path ≠ []) : (s.modify path f).root = s.root.modify f path := by
  cases path with
  | nil => exact absurd rfl h
  | cons i path => rfl

theorem ne_nil_of_get? {p : Command → Bool} (h : (s.get? path).any p = true) : path ≠ [] := by
  rintro rfl
  cases h

/-- A command is pushed into the loop at the path. -/
theorem root_of_push? {c : Command} (h : s.push? path c = some s') :
    s'.root = s.root.modify (Command.pushChild c) path := by
  cases path with
  | nil =>
    obtain rfl := Option.some.inj h
    rfl
  | cons i path =>
    simp only [push?, modify?] at h
    split at h
    · obtain rfl := Option.some.inj h
      rfl
    · cases h

/-- A command is taken out of the loop that the path to it goes through last. -/
theorem root_of_remove? (h : s.remove? path = some s') : ∃ parent k child,
    path = parent ++ [k] ∧ s.root.get? path = some child ∧
      s'.root = s.root.modify (Command.removeChild k) parent := by
  unfold remove? at h
  split at h
  · next hsome =>
    obtain ⟨child, hchild⟩ := Option.isSome_iff_exists.mp hsome
    obtain rfl | ⟨parent, k, rfl⟩ := List.eq_nil_or_concat' path
    · cases hchild
    · refine ⟨parent, k, child, rfl, (get?_root (by simp)).trans hchild, ?_⟩
      rw [List.getLast?_concat, List.dropLast_concat] at h
      cases parent with
      | nil =>
        obtain rfl := Option.some.inj h
        rfl
      | cons i parent =>
        obtain rfl := Option.some.inj h
        rfl
  · cases h

/-! ## Its marks -/

/-- Clearing the mark at a path takes away that mark. -/
theorem marks_clear (s : Script) (path : Path) :
    (s.modify path (Command.setEdited false)).marks + (s.markedAt path).toNat = s.marks := by
  cases path with
  | nil => rfl
  | cons i path =>
    rw [← marks_root, ← marks_root, ← markedAt_root, root_modify (List.cons_ne_nil i path)]
    exact Command.marks_clear _ _

theorem isSome_get?_clearEdited (s : Script) (editing : Option Path) (e : Path) :
    ((ScriptStore.clearEdited s editing).get? e).isSome = (s.get? e).isSome := by
  cases editing with
  | none => rfl
  | some p =>
    cases p with
    | nil => rfl
    | cons i p =>
      cases e with
      | nil => rfl
      | cons j e =>
        rw [ScriptStore.clearEdited, ← get?_root (List.cons_ne_nil j e),
          ← get?_root (List.cons_ne_nil j e), root_modify (List.cons_ne_nil i p)]
        exact Command.isSome_get?_modify_setEdited _ _ _ _

/-- Marking the command at a path marks that one, and makes one mark more at most. -/
theorem marks_mark (h : (s.get? path).isSome = true) :
    (s.modify path (Command.setEdited true)).marks ≤ s.marks + 1 ∧
      (s.modify path (Command.setEdited true)).markedAt path = true := by
  have hne : path ≠ [] := by
    rintro rfl
    cases h
  rw [← marks_root, ← marks_root, ← markedAt_root, root_modify hne, Command.markedAt_mark,
    get?_root hne]
  exact ⟨Command.marks_mark_le _ _, h⟩

/-- Scripts with the same marks have as many of them, at the same places. -/
theorem marks_eq_of_sameMarks (h : Command.SameMarks s'.root s.root) :
    s'.marks = s.marks ∧ ∀ e, s'.markedAt e = s.markedAt e := by
  rw [← marks_root, ← marks_root, h.marks_eq]
  refine ⟨rfl, fun e => ?_⟩
  rw [← markedAt_root, ← markedAt_root, h.markedAt_eq]

theorem sameMarks_setDisabled {value : Bool} (h : s.edit (.setDisabled path value) = some s') :
    Command.SameMarks s'.root s.root := by
  simp only [edit, modify?] at h
  split at h
  · next hany =>
    obtain rfl := Option.some.inj h
    rw [root_modify (ne_nil_of_get? hany)]
    exact Command.SameMarks.modify_setDisabled value path s.root
  · cases h

/-- An unmarked command that is pushed changes no marks. -/
theorem marks_push? {c : Command} (hc : c.marks = 0) (h : s.push? path c = some s') :
    s'.marks ≤ s.marks ∧ ∀ e, s.markedAt e = true → s'.markedAt e = true := by
  have hroot := root_of_push? h
  constructor
  · rw [← marks_root, ← marks_root, hroot]
    exact Command.marks_push_le hc path s.root
  · intro e he
    rw [← markedAt_root, hroot]
    rw [← markedAt_root] at he
    exact Command.markedAt_modify_mono (fun _ _ => Command.markedAt_pushChild c) he

/-- A command is taken out with its marks. Unless it stood in front, what was marked at a path is
among these, or is still marked at that path. -/
theorem marks_remove? (h : s.remove? path = some s') (e : Path) :
    s'.marks ≤ s.marks ∧ (path.isBefore e = true ∨
      s'.marks + (s.markedAt e).toNat ≤ s.marks + (s'.markedAt e).toNat) := by
  obtain ⟨parent, k, child, rfl, hchild, hroot⟩ := root_of_remove? h
  have hmarks := Command.marks_remove hchild
  have hmarked := Command.markedAt_remove (e := e) hchild
  rw [← hroot, marks_root, marks_root] at hmarks
  rw [← hroot, markedAt_root, markedAt_root] at hmarked
  refine ⟨by omega, hmarked.imp_right ?_⟩
  rintro (hle | heq)
  · omega
  · rw [heq]
    omega

end Root

end Script

/-! ## Operations -/

/-- An operation of a store, or an edit of its working script that pushes a command or takes one
out. Directions are drawn from a source `σ`. -/
inductive StoreAct (σ : Type) where
  | load (s : Script)
  | unload
  | restore
  | startEditing (path : Path)
  | endEditing
  | setDisabled (path : Path) (value : Bool)
  | randomize (v : Vocabulary) (source : σ)
  | push (path : Path) (command : Command)
  | remove (path : Path)

/-- No marks come in from outside. -/
def StoreAct.IsUnmarked {σ : Type} : StoreAct σ → Prop
  | load s => s.marks = 0
  | push _ command => command.marks = 0
  | _ => True

instance {σ : Type} : (a : StoreAct σ) → Decidable a.IsUnmarked
  | .load s => inferInstanceAs (Decidable (s.marks = 0))
  | .push _ command => inferInstanceAs (Decidable (command.marks = 0))
  | .unload | .restore | .startEditing _ | .endEditing | .setDisabled _ _ | .randomize _ _
  | .remove _ => isTrue trivial

namespace ScriptStore

variable {σ : Type} (draw : σ → Direction × σ)

/-- The store after the operation. -/
def act (t : ScriptStore) : StoreAct σ → ScriptStore
  | .load s => t.load s
  | .unload => t.unload
  | .restore => t.restore
  | .startEditing path => (t.startEditing path).1
  | .endEditing => t.endEditing
  | .setDisabled path value => (t.setDisabled path value).1
  | .randomize v source => (t.randomize v draw source).1
  | .push path command => (t.edit (.push path command)).1
  | .remove path => (t.edit (.remove path)).1

/-- The number of marked commands in the working script. -/
def marks (t : ScriptStore) : Nat :=
  match t.working with
  | some s => s.marks
  | none => 0

/-- The command at the path of the working script is marked. -/
def markedAt (t : ScriptStore) (path : Path) : Bool :=
  t.working.any (·.markedAt path)

/-- How many commands, with this operation, have been taken out in front of the one being edited
since a script was loaded or restored. -/
def displacedBy (t : ScriptStore) (n : Nat) : StoreAct σ → Nat
  | .load _ | .unload => 0
  | .restore => if t.reference.isSome then 0 else n
  | .remove path =>
    if t.editing.any (fun e => path.isBefore e && t.markedAt e) then n + 1 else n
  | _ => n

/-- A store and the number of commands that have been taken out in front, after the operation. -/
def track (t : ScriptStore × Nat) (a : StoreAct σ) : ScriptStore × Nat :=
  (t.1.act draw a, t.1.displacedBy t.2 a)

/-- No more marks are left behind than commands were taken out in front of the one being edited, and
what was loaded has none. -/
structure LeavesBehind (t : ScriptStore) (n : Nat) : Prop where
  reference : ∀ s ∈ t.reference, s.marks = 0
  working : ∀ s ∈ t.working, s.marks ≤ n + (t.editing.any s.markedAt).toNat

section Steps

variable {t : ScriptStore} {n : Nat}

theorem leavesBehind_empty : empty.LeavesBehind 0 where
  reference := nofun
  working := nofun

theorem LeavesBehind.mono (h : t.LeavesBehind n) {m : Nat} (hle : n ≤ m) : t.LeavesBehind m where
  reference := h.reference
  working := fun s hs => (h.working s hs).trans (Nat.add_le_add_right hle _)

/-- Besides the marks that were left behind there is one at most. -/
theorem LeavesBehind.marks_le (h : t.LeavesBehind n) : t.marks ≤ n + 1 := by
  unfold marks
  cases hw : t.working with
  | none => exact Nat.zero_le _
  | some s =>
    have := h.working s hw
    have := Bool.toNat_le (t.editing.any s.markedAt)
    show s.marks ≤ n + 1
    omega

/-- Once the mark at the remembered path is cleared, only those that were left behind are there. -/
theorem LeavesBehind.marks_clearEdited (h : t.LeavesBehind n) {s : Script}
    (hs : t.working = some s) : (clearEdited s t.editing).marks ≤ n := by
  have hle := h.working s hs
  cases he : t.editing with
  | none =>
    rw [he] at hle
    exact hle
  | some e =>
    rw [he, Option.any_some] at hle
    have := s.marks_clear e
    rw [clearEdited]
    omega

/-- The editing of a command is started, or is refused. -/
theorem startEditing_cases (t : ScriptStore) (path : Path) : t.startEditing path = (t, false) ∨
    ∃ s, t.working = some s ∧ (s.get? path).isSome = true ∧ t.startEditing path =
      ({ t with
        working := some ((clearEdited s t.editing).modify path (Command.setEdited true))
        editing := some path }, true) := by
  unfold startEditing
  cases t.working with
  | none => exact Or.inl rfl
  | some s =>
    by_cases hopen : (s.get? path).any (!·.flags.locked) = true
    · refine Or.inr ⟨s, rfl, ?_, if_pos hopen⟩
      cases hc : s.get? path with
      | none => rw [hc] at hopen; cases hopen
      | some c => rfl
    · exact Or.inl (if_neg hopen)

/-- The command whose editing is started is marked, with those that were left behind. -/
theorem LeavesBehind.startEditing (h : t.LeavesBehind n) {path : Path}
    (hstart : (t.startEditing path).2 = true) :
    (t.startEditing path).1.marks ≤ n + 1 ∧ (t.startEditing path).1.markedAt path = true ∧
      (t.startEditing path).1.LeavesBehind n := by
  obtain heq | ⟨s, hs, hpath, heq⟩ := t.startEditing_cases path
  · rw [heq] at hstart
    cases hstart
  have hclear := h.marks_clearEdited hs
  obtain ⟨hmarks, hmarked⟩ := Script.marks_mark (s := clearEdited s t.editing)
    (by rw [Script.isSome_get?_clearEdited, hpath])
  rw [heq]
  refine ⟨hmarks.trans (Nat.succ_le_succ hclear), hmarked, ⟨h.reference, ?_⟩⟩
  rintro s' ⟨⟩
  rw [Option.any_some, hmarked]
  exact hmarks.trans (Nat.succ_le_succ hclear)

/-- Once the editing has ended, only what was left behind is marked. -/
theorem LeavesBehind.endEditing (h : t.LeavesBehind n) :
    t.endEditing.marks ≤ n ∧ t.endEditing.LeavesBehind n := by
  have hmarks : ∀ s ∈ t.endEditing.working, s.marks ≤ n := by
    intro s' hs'
    obtain ⟨s, hs, rfl⟩ := Option.map_eq_some_iff.mp hs'
    exact h.marks_clearEdited hs
  refine ⟨?_, h.reference, hmarks⟩
  unfold marks
  cases hw : t.endEditing.working with
  | none => exact Nat.zero_le n
  | some s => exact hmarks s hw

/-- An edit of the working script is made, or is refused. -/
theorem edit_cases (t : ScriptStore) (e : Edit) : t.edit e = (t, false) ∨
    ∃ s s', t.working = some s ∧ s.edit e = some s' ∧
      t.edit e = ({ t with working := some s' }, true) := by
  unfold edit
  cases hs' : t.working.bind fun s => s.edit e with
  | none => exact Or.inl rfl
  | some s' =>
    obtain ⟨s, hs, hedit⟩ := Option.bind_eq_some_iff.mp hs'
    exact Or.inr ⟨s, s', hs, hedit, rfl⟩

/-- Another working script in place of the one that was there. -/
theorem LeavesBehind.of_working (h : t.LeavesBehind n) {s s' : Script} {m : Nat}
    (hs : t.working = some s) (hle : ∀ e ∈ t.editing, s.marks ≤ n + (s.markedAt e).toNat →
      s'.marks ≤ m + (s'.markedAt e).toNat) (hnone : s.marks ≤ n → s'.marks ≤ m) :
    { t with working := some s' : ScriptStore }.LeavesBehind m := by
  refine ⟨h.reference, ?_⟩
  rintro _ ⟨⟩
  have hbefore := h.working s hs
  show s'.marks ≤ m + (t.editing.any s'.markedAt).toNat
  cases he : t.editing with
  | none =>
    rw [he] at hbefore
    exact hnone hbefore
  | some e =>
    rw [he] at hbefore
    exact hle e he hbefore

/-- Whatever leaves the marks of the script as they are leaves none behind. -/
theorem LeavesBehind.of_sameMarks (h : t.LeavesBehind n) {s s' : Script} (hs : t.working = some s)
    (hsame : Command.SameMarks s'.root s.root) :
    { t with working := some s' : ScriptStore }.LeavesBehind n := by
  obtain ⟨hmarks, hmarked⟩ := Script.marks_eq_of_sameMarks hsame
  refine h.of_working hs (fun e _ => ?_) ?_
  · rw [hmarks, hmarked e]
    exact id
  · rw [hmarks]
    exact id

/-- A new command has no mark, so none is left behind. -/
theorem LeavesBehind.push (h : t.LeavesBehind n) {path : Path} {c : Command} (hc : c.marks = 0) :
    (t.edit (.push path c)).1.LeavesBehind n := by
  obtain heq | ⟨s, s', hs, hpush, heq⟩ := t.edit_cases (.push path c)
  · rwa [heq]
  · obtain ⟨hmarks, hmarked⟩ := Script.marks_push? hc hpush
    rw [heq]
    refine h.of_working hs (fun e _ hle => ?_) (hmarks.trans ·)
    have := Bool.toNat_le_toNat (hmarked e)
    omega

/-- If a command in front of the one being edited is taken out, one mark more may be left behind. -/
theorem LeavesBehind.remove (h : t.LeavesBehind n) (path : Path) :
    (t.edit (.remove path)).1.LeavesBehind (t.displacedBy n (.remove path : StoreAct σ)) := by
  have hle : n ≤ t.displacedBy n (.remove path : StoreAct σ) := by
    rw [displacedBy]
    split <;> omega
  obtain heq | ⟨s, s', hs, hremove, heq⟩ := t.edit_cases (.remove path)
  · rw [heq]
    exact h.mono hle
  have hmarks := Script.marks_remove? hremove
  have hmarked : ∀ e, t.markedAt e = s.markedAt e := fun e => by rw [markedAt, hs]; rfl
  rw [heq]
  refine h.of_working hs (fun e he hbefore => ?_) fun hbefore =>
    (hmarks []).1.trans (hbefore.trans hle)
  obtain ⟨hfewer, hfront | hbehind⟩ := hmarks e
  · -- The mark, if there is one, does not stand at the remembered path any more.
    have hcount : t.displacedBy n (.remove path : StoreAct σ) = n + (s.markedAt e).toNat := by
      rw [displacedBy, he, Option.any_some, hfront, Bool.true_and, hmarked]
      cases s.markedAt e <;> rfl
    omega
  · omega

/-- One operation keeps the count of what was left behind. -/
theorem LeavesBehind.track (h : t.LeavesBehind n) {a : StoreAct σ} (ha : a.IsUnmarked) :
    (t.act draw a).LeavesBehind (t.displacedBy n a) := by
  cases a with
  | load s =>
    have hs : ∀ s' ∈ some s, s'.marks ≤ 0 := by
      rintro s' ⟨⟩
      exact Nat.le_of_eq ha
    exact ⟨fun s' hs' => Nat.le_zero.mp (hs s' hs'), hs⟩
  | unload => exact leavesBehind_empty
  | restore =>
    show t.restore.LeavesBehind (if t.reference.isSome then 0 else n)
    unfold restore
    cases hr : t.reference with
    | none => exact h
    | some s =>
      refine ⟨fun s' hs' => h.reference s' (hr ▸ hs'), ?_⟩
      rintro s' ⟨⟩
      exact Nat.le_of_eq (h.reference s hr)
  | startEditing path =>
    show (t.startEditing path).1.LeavesBehind n
    cases hstart : (t.startEditing path).2 with
    | true => exact (h.startEditing hstart).2.2
    | false =>
      obtain heq | ⟨s, -, -, heq⟩ := t.startEditing_cases path
      · rwa [heq]
      · rw [heq] at hstart
        cases hstart
  | endEditing => exact h.endEditing.2
  | setDisabled path value =>
    -- Setting a flag is the edit that does so.
    show (t.edit (.setDisabled path value)).1.LeavesBehind n
    obtain heq | ⟨s, s', hs, hset, heq⟩ := t.edit_cases (.setDisabled path value)
    · rwa [heq]
    · rw [heq]
      exact h.of_sameMarks hs (Script.sameMarks_setDisabled hset)
  | randomize v source =>
    show (t.randomize v draw source).1.LeavesBehind n
    unfold randomize
    cases hs : t.working with
    | none => exact h
    | some s =>
      exact h.of_sameMarks hs (congrArg (Command.loop _ _)
        (Command.mapHeadsList_randomizeList v.directionNames draw s.commands source))
  | push path c => exact h.push ha
  | remove path => exact h.remove path

end Steps

/-- The count is right after any operations. -/
theorem leavesBehind_foldl {acts : List (StoreAct σ)} (hacts : ∀ a ∈ acts, a.IsUnmarked)
    {p : ScriptStore × Nat} (h : p.1.LeavesBehind p.2) :
    (acts.foldl (track draw) p).1.LeavesBehind (acts.foldl (track draw) p).2 := by
  induction acts generalizing p with
  | nil => exact h
  | cons a acts ih =>
    obtain ⟨ha, hacts⟩ := List.forall_mem_cons.mp hacts
    exact ih hacts (h.track draw ha)

/-- After any operations there are no more marks than one, and one for each command that was taken
out in front of the one being edited. A command whose editing is started is marked, and once the
editing has ended only those that were left behind are. So as long as no command was taken out in
front, the one being edited is the only one. -/
theorem marks_le_displaced (acts : List (StoreAct σ)) (hacts : ∀ a ∈ acts, a.IsUnmarked) :
    let r := acts.foldl (track draw) (empty, 0)
    r.1.marks ≤ r.2 + 1 ∧
      (∀ path, (r.1.startEditing path).2 = true →
        (r.1.startEditing path).1.markedAt path = true ∧
          (r.1.startEditing path).1.marks ≤ r.2 + 1) ∧
      r.1.endEditing.marks ≤ r.2 := by
  intro r
  have h : r.1.LeavesBehind r.2 := leavesBehind_foldl draw hacts leavesBehind_empty
  refine ⟨h.marks_le, fun path hstart => ?_, h.endEditing.1⟩
  obtain ⟨hmarks, hmarked, -⟩ := h.startEditing hstart
  exact ⟨hmarked, hmarks⟩

/-- A command in a loop is edited while another one is pushed and taken out behind it. -/
theorem marks_le_displaced_behind :
    let r := ([.load ⟨[.ofName "A" [], .repeated 2 [.ofName "B" []]]⟩, .startEditing [1, 0],
      .push [] (.ofName "C" []), .push [1] (.ofName "D" []), .remove [1, 1], .remove [2]] :
        List (StoreAct (List UInt32))).foldl (track drawDirection) (empty, 0)
    r.2 = 0 ∧ r.1.markedAt [1, 0] = true ∧ r.1.marks ≤ 1 ∧
      (r.1.startEditing [0]).1.markedAt [0] = true ∧ (r.1.startEditing [0]).1.marks ≤ 1 ∧
      r.1.endEditing.marks ≤ 0 := by
  obtain ⟨hmarks, hstart, hend⟩ := marks_le_displaced drawDirection
    [.load ⟨[.ofName "A" [], .repeated 2 [.ofName "B" []]]⟩, .startEditing [1, 0],
      .push [] (.ofName "C" []), .push [1] (.ofName "D" []), .remove [1, 1], .remove [2]]
    (by decide)
  obtain ⟨hmarked, hone⟩ := hstart [0] (by decide)
  exact ⟨by decide, by decide, hmarks, hmarked, hone, hend⟩

/-- The second of three commands is edited, the first one is taken out, and the editing of the
second one is started, which was the third: now two are marked, and one of them is left behind. -/
theorem two_marked :
    let acts : List (StoreAct (List UInt32)) :=
      [.load ⟨[.ofName "A" [], .ofName "B" [], .ofName "C" []]⟩, .startEditing [1], .remove [0]]
    let r := acts.foldl (act drawDirection) empty
    (∀ a ∈ acts, a.IsUnmarked) ∧ (r.startEditing [1]).2 = true ∧
      (r.startEditing [1]).1.marks = 2 ∧ (r.startEditing [1]).1.endEditing.marks = 1 := by
  decide

end ScriptStore

end Tandem
