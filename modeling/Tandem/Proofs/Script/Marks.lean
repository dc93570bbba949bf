import Tandem.Script.Randomize
import Tandem.Proofs.Script.Places

/-!
# Marks of editing

A command that is being edited is marked. How many commands of a tree are marked (`Command.marks`)
follows from what a change at one place does there (`Command.marks_modify`), and so does whether the
command at a path is marked (`Command.markedAt`). A path goes on leading to the same command unless
one is taken out in front of it : an earlier sibling of that command, or of a loop that it stands in
(`Path.isBefore`, `Script.markedAt_remove?`).
-/

namespace Tandem

/-- The one path leads to an earlier sibling of the command that the other leads to, or of a loop
that this command stands in. -/
def Path.isBefore : Path → Path → Bool
  | [i], j :: _ => i < j
  | i :: path, j :: other => i = j && isBefore path other
  | _, _ => false

theorem Path.isBefore_append (k j : Nat) (rest : Path) : ∀ parent : Path,
    isBefore (parent ++ [k]) (parent ++ j :: rest) = decide (k < j)
  | [] => rfl
  | [i] => by simp [isBefore]
  | i :: l :: parent => by
    have ih := isBefore_append k j rest (l :: parent)
    simpa [isBefore] using ih

namespace Command

mutual

/-- The number of marked commands, of the command and all in it. -/
def marks : Command → Nat
  | leaf b => b.flags.edited.toNat
  | loop b _ cs => b.flags.edited.toNat + marksList cs

/-- The number of marked commands, of those in the list and all in them. -/
def marksList : List Command → Nat
  | [] => 0
  | c :: cs => marks c + marksList cs

end

/-- The command at the end of the path is there, and is marked. -/
def markedAt (path : Path) (c : Command) : Bool :=
  (c.get? path).any (·.flags.edited)

theorem markedAt_cons (i : Nat) (e : Path) (c : Command) :
    markedAt (i :: e) c = c.children[i]?.any (markedAt e) := by
  rw [markedAt, get?]
  cases c.children[i]? <;> rfl

section Lists

variable {cs : List Command} {c : Command} {i : Nat}

theorem marksList_append : ∀ cs ds : List Command,
    marksList (cs ++ ds) = marksList cs + marksList ds
  | [], ds => (Nat.zero_add _).symm
  | c :: cs, ds => by
    rw [List.cons_append, marksList, marksList, marksList_append cs ds, Nat.add_assoc]

theorem marksList_split (h : cs[i]? = some c) :
    marksList cs = marksList (cs.take i) + (marks c + marksList (cs.drop (i + 1))) := by
  obtain ⟨hi, rfl⟩ := List.getElem?_eq_some_iff.mp h
  conv_lhs => rw [← List.take_append_drop i cs, List.drop_eq_getElem_cons hi, marksList_append,
    marksList]

theorem marksList_modify (h : cs[i]? = some c) (f : Command → Command) :
    marksList (cs.modify i f) + marks c = marksList cs + marks (f c) := by
  obtain ⟨hi, rfl⟩ := List.getElem?_eq_some_iff.mp h
  rw [marksList_split h, List.modify_eq_take_cons_drop hi, marksList_append, marksList]
  omega

/-- A command that is removed takes its marks with it. -/
theorem marksList_eraseIdx (h : cs[i]? = some c) :
    marksList (cs.eraseIdx i) + marks c = marksList cs := by
  rw [marksList_split h, List.eraseIdx_eq_take_drop_succ, marksList_append]
  omega

end Lists

/-! ## A change at one place -/

section Modify

variable {f : Command → Command}

/-- A place below another is looked up in the command at that one. -/
theorem get?_append (e : Path) : ∀ (p : Path) (c : Command),
    c.get? (p ++ e) = (c.get? p).bind (get? e)
  | [], _ => rfl
  | i :: p, c => by
    rw [List.cons_append, get?, get?]
    cases c.children[i]? with
    | none => rfl
    | some d => exact get?_append e p d

theorem get?_modify_self : ∀ (p : Path) (c : Command), (modify f p c).get? p = (c.get? p).map f
  | [], _ => rfl
  | _ :: _, leaf _ => rfl
  | i :: p, loop b n cs => by
    rw [modify, get?, get?, children, children, List.getElem?_modify_eq]
    cases cs[i]? with
    | none => rfl
    | some c => exact get?_modify_self p c

/-- A change at a place that does not exist changes nothing. -/
theorem modify_of_get?_none : ∀ {p : Path} {c : Command}, c.get? p = none → modify f p c = c
  | [], _, h => nomatch h
  | _ :: _, leaf _, _ => rfl
  | i :: p, loop b n cs, h => by
    have hsame : ∀ c, cs[i]? = some c → modify f p c = c := fun c hc =>
      modify_of_get?_none (by rwa [get?, children, hc] at h)
    rw [modify]
    congr 1
    refine List.ext_getElem? fun j => ?_
    rw [List.getElem?_modify]
    split
    · next hij =>
      subst hij
      cases hc : cs[i]? with
      | none => rfl
      | some c => exact congrArg some (hsame c hc)
    · exact id_map' _

/-- What is marked elsewhere stays so, and what is changed at one place is changed in number. -/
theorem marks_modify : ∀ {p : Path} {c d : Command}, c.get? p = some d →
    marks (modify f p c) + marks d = marks c + marks (f d)
  | [], c, d, h => by
    obtain rfl := Option.some.inj h
    exact Nat.add_comm _ _
  | _ :: _, leaf _, _, h => nomatch h
  | i :: p, loop b n cs, d, h => by
    rw [get?, children] at h
    cases hc : cs[i]? with
    | none => rw [hc] at h; cases h
    | some c =>
      rw [hc] at h
      have ih := marks_modify h
      have hlist := marksList_modify hc (modify f p)
      rw [modify, marks, marks]
      omega

/-- A place is marked if it is marked in the command that it lies in. -/
theorem markedAt_append (p e : Path) (c : Command) :
    markedAt (p ++ e) c = (c.get? p).any (markedAt e) := by
  rw [markedAt, get?_append]
  cases c.get? p <;> rfl

/-- At the place itself and below, the changed command is found. -/
theorem markedAt_modify_append (p e : Path) (c : Command) :
    markedAt (p ++ e) (modify f p c) = (c.get? p).any fun d => markedAt e (f d) := by
  rw [markedAt_append, get?_modify_self]
  cases c.get? p <;> rfl

/-- Elsewhere nothing is changed. -/
theorem markedAt_modify_elsewhere : ∀ {p e : Path}, ¬p <+: e → ∀ c : Command,
    markedAt e (modify f p c) = markedAt e c
  | [], e, h, _ => absurd (List.nil_prefix) h
  | _ :: _, _, _, leaf _ => rfl
  | _ :: _, [], _, loop _ _ _ => rfl
  | i :: p, j :: e, h, loop b n cs => by
    rw [markedAt_cons, markedAt_cons, modify, children, children]
    by_cases hij : i = j
    · subst hij
      have hne : ¬p <+: e := fun hpre => h (List.cons_prefix_cons.mpr ⟨rfl, hpre⟩)
      rw [List.getElem?_modify_eq]
      cases cs[i]? with
      | none => rfl
      | some c => exact markedAt_modify_elsewhere hne c
    · rw [List.getElem?_modify_ne _ _ hij]

/-- What keeps the marks of every command keeps them at its place. -/
theorem markedAt_modify_mono (hf : ∀ d e, markedAt e d = true → markedAt e (f d) = true)
    {p e : Path} {c : Command} (h : markedAt e c = true) : markedAt e (modify f p c) = true := by
  by_cases hpre : p <+: e
  · obtain ⟨rest, rfl⟩ := hpre
    rw [markedAt_append] at h
    rw [markedAt_modify_append]
    cases hd : c.get? p with
    | none => rw [hd] at h; cases h
    | some d => rw [hd] at h; exact hf d rest h
  · rwa [markedAt_modify_elsewhere hpre]

end Modify

/-- A command that is marked is counted. -/
theorem toNat_markedAt_le : ∀ (e : Path) (c : Command), (markedAt e c).toNat ≤ marks c
  | [], leaf _ => Nat.le_refl _
  | [], loop _ _ _ => Nat.le_add_right _ _
  | _ :: _, leaf _ => Nat.zero_le _
  | i :: e, loop b n cs => by
    rw [markedAt_cons, children, marks]
    cases hc : cs[i]? with
    | none => exact Nat.zero_le _
    | some c =>
      have hle := toNat_markedAt_le e c
      have hsplit := marksList_split hc
      rw [Option.any_some]
      omega

/-! ## Setting and clearing a mark -/

/-- To set a mark or to clear it changes the marks by that one. -/
theorem marks_setEdited (value : Bool) (c : Command) :
    marks (setEdited value c) + c.flags.edited.toNat = marks c + value.toNat := by
  cases c <;> simp [setEdited, mapFlags, mapHead, marks, flags, head] <;> omega

/-- Clearing the mark at a path takes away that mark. -/
theorem marks_clear (p : Path) (c : Command) :
    marks (modify (setEdited false) p c) + (markedAt p c).toNat = marks c := by
  cases hd : c.get? p with
  | none => rw [modify_of_get?_none hd, markedAt, hd]; rfl
  | some d =>
    have hmodify := marks_modify (f := setEdited false) hd
    have hset := marks_setEdited false d
    rw [markedAt, hd, Option.any_some]
    simp only [Bool.toNat_false] at hset
    omega

/-- Marking the command at a path makes one mark more at most. -/
theorem marks_mark_le (p : Path) (c : Command) :
    marks (modify (setEdited true) p c) ≤ marks c + 1 := by
  cases hd : c.get? p with
  | none => rw [modify_of_get?_none hd]; omega
  | some d =>
    have hmodify := marks_modify (f := setEdited true) hd
    have hset := marks_setEdited true d
    simp only [Bool.toNat_true] at hset
    omega

/-- A place that exists is marked when it has been marked. -/
theorem markedAt_mark (p : Path) (c : Command) :
    markedAt p (modify (setEdited true) p c) = (c.get? p).isSome := by
  have h := markedAt_modify_append (f := setEdited true) p [] c
  rw [List.append_nil] at h
  rw [h]
  cases c.get? p with
  | none => rfl
  | some d => cases d <;> rfl

/-- Where commands stand does not depend on their marks. -/
theorem isSome_get?_modify_setEdited (value : Bool) (p e : Path) (c : Command) :
    ((modify (setEdited value) p c).get? e).isSome = (c.get? e).isSome := by
  have hsame : mapHeads (fun _ => .plain "" []) (modify (setEdited value) p c) =
      mapHeads (fun _ => .plain "" []) c :=
    mapHeads_modify (fun c => by cases c <;> rfl) p c
  have hget := congrArg (fun d => (d.get? e).isSome) hsame
  simpa only [get?_mapHeads, Option.isSome_map] using hget

/-! ## Children -/

/-- A child without marks adds none. -/
theorem marks_pushChild_le {child : Command} (h : child.marks = 0) (c : Command) :
    marks (pushChild child c) ≤ marks c := by
  cases c with
  | leaf b => exact Nat.le_refl _
  | loop b n cs =>
    rw [pushChild, marks, marks, marksList_append, marksList, marksList, h]
    exact Nat.le_refl _

theorem markedAt_pushChild (child : Command) {e : Path} {c : Command} (h : markedAt e c = true) :
    markedAt e (pushChild child c) = true := by
  cases c with
  | leaf b => exact h
  | loop b n cs =>
    cases e with
    | nil => exact h
    | cons i e =>
      rw [markedAt_cons, children] at h
      have hi : i < cs.length := by
        by_contra hge
        rw [List.getElem?_eq_none (Nat.le_of_not_lt hge)] at h
        cases h
      rw [markedAt_cons, pushChild, children, List.getElem?_append_left hi]
      exact h

/-- An unmarked command that is pushed somewhere makes no mark more. -/
theorem marks_push_le {child : Command} (h : child.marks = 0) (p : Path) (c : Command) :
    marks (modify (pushChild child) p c) ≤ marks c := by
  cases hd : c.get? p with
  | none => rw [modify_of_get?_none hd]
  | some d =>
    have hmodify := marks_modify (f := pushChild child) hd
    have hpush := marks_pushChild_le h d
    omega

/-- A child that is removed takes its marks with it. -/
theorem marks_removeChild {k : Nat} {c child : Command} (h : c.children[k]? = some child) :
    marks (removeChild k c) + marks child = marks c := by
  cases c with
  | leaf b => cases h
  | loop b n cs =>
    rw [children] at h
    have := marksList_eraseIdx h
    rw [removeChild, marks, marks]
    omega

/-- The children in front of the one that is taken out stay where they are. -/
theorem markedAt_removeChild {k : Nat} {e : Path} (h : ∀ j ∈ e.head?, j < k) (c : Command) :
    markedAt e (removeChild k c) = markedAt e c := by
  cases c with
  | leaf b => rfl
  | loop b n cs =>
    cases e with
    | nil => rfl
    | cons j e =>
      rw [markedAt_cons, markedAt_cons, removeChild, children, children,
        List.getElem?_eraseIdx_of_lt (h j rfl)]

/-- A child is taken out with its marks. What stands at a path stays there, unless it is taken out
or stands behind. -/
theorem markedAt_remove {p e : Path} {k : Nat} {c child : Command}
    (h : c.get? (p ++ [k]) = some child) :
    Path.isBefore (p ++ [k]) e = true ∨ (markedAt e c).toNat ≤ marks child ∨
      markedAt e (modify (removeChild k) p c) = markedAt e c := by
  by_cases hpre : p <+: e
  · obtain ⟨rest, rfl⟩ := hpre
    cases rest with
    | nil =>
      refine Or.inr (Or.inr ?_)
      rw [markedAt_modify_append, markedAt_append]
      congr 1
      funext d
      exact markedAt_removeChild (by simp) d
    | cons j rest =>
      obtain hlt | rfl | hgt := lt_trichotomy k j
      · exact Or.inl (by rw [Path.isBefore_append]; exact decide_eq_true hlt)
      · refine Or.inr (Or.inl ?_)
        rw [show p ++ k :: rest = p ++ [k] ++ rest by simp, markedAt_append, h]
        exact toNat_markedAt_le rest child
      · refine Or.inr (Or.inr ?_)
        rw [markedAt_modify_append, markedAt_append]
        congr 1
        funext d
        exact markedAt_removeChild (by simpa using hgt) d
  · exact Or.inr (Or.inr (markedAt_modify_elsewhere hpre c))

/-- Wherever a command is removed, its marks go with it. -/
theorem marks_remove {p : Path} {k : Nat} {c child : Command} (h : c.get? (p ++ [k]) = some child) :
    marks (modify (removeChild k) p c) + marks child = marks c := by
  rw [get?_append] at h
  cases hd : c.get? p with
  | none => rw [hd] at h; cases h
  | some d =>
    rw [hd, Option.bind_some, get?] at h
    have hchild : d.children[k]? = some child := by
      cases hk : d.children[k]? with
      | none => rw [hk] at h; cases h
      | some x => rw [hk] at h; exact h
    have hmodify := marks_modify (f := removeChild k) hd
    have hremove := marks_removeChild hchild
    omega

/-! ## What does not touch marks -/

/-- The mark of a command, and nothing else of it. -/
def onlyMark (b : CommandHead) : CommandHead :=
  ⟨"", [], { Flags.clear with edited := b.flags.edited }⟩

/-- The commands are the same tree with the same marks. -/
def SameMarks (c d : Command) : Prop :=
  mapHeads onlyMark c = mapHeads onlyMark d

mutual

theorem marks_mapHeads_onlyMark : ∀ c : Command, marks (mapHeads onlyMark c) = marks c
  | leaf _ => rfl
  | loop b _ cs => congrArg (b.flags.edited.toNat + ·) (marksList_mapHeadsList_onlyMark cs)

theorem marksList_mapHeadsList_onlyMark : ∀ cs : List Command,
    marksList (mapHeadsList onlyMark cs) = marksList cs
  | [] => rfl
  | c :: cs => by
    rw [mapHeadsList, marksList, marksList, marks_mapHeads_onlyMark c,
      marksList_mapHeadsList_onlyMark cs]

end

theorem markedAt_mapHeads_onlyMark (e : Path) (c : Command) :
    markedAt e (mapHeads onlyMark c) = markedAt e c := by
  rw [markedAt, markedAt, get?_mapHeads]
  cases c.get? e with
  | none => rfl
  | some d => cases d <;> rfl

namespace SameMarks

variable {c d : Command}

/-- Commands with the same marks have as many. -/
theorem marks_eq (h : SameMarks c d) : c.marks = d.marks := by
  rw [← marks_mapHeads_onlyMark c, h, marks_mapHeads_onlyMark]

theorem markedAt_eq (h : SameMarks c d) (e : Path) : c.markedAt e = d.markedAt e := by
  rw [← markedAt_mapHeads_onlyMark e c, h, markedAt_mapHeads_onlyMark]

/-- The mark of a command says nothing of whether it is disabled. -/
theorem modify_setDisabled (value : Bool) (p : Path) (c : Command) :
    SameMarks (modify (setDisabled value) p c) c :=
  mapHeads_modify (fun c => by cases c <;> rfl) p c

end SameMarks

section Randomize

variable {σ : Type} (names : List String) (draw : σ → Direction × σ)

mutual

/-- Drawing directions changes arguments only. -/
theorem sameMarks_randomize : ∀ (c : Command) (source : σ),
    SameMarks (randomize names draw c source).1 c
  | leaf b, source => by
    unfold SameMarks randomize
    split <;> rfl
  | loop b n cs, source =>
    congrArg (loop (onlyMark b) n) (mapHeadsList_randomizeList cs source)

/-- New directions leave the marks where they are. -/
theorem mapHeadsList_randomizeList : ∀ (cs : List Command) (source : σ),
    mapHeadsList onlyMark (randomizeList names draw cs source).1 = mapHeadsList onlyMark cs
  | [], _ => rfl
  | c :: cs, source => by
    rw [randomizeList, mapHeadsList, mapHeadsList, sameMarks_randomize c source,
      mapHeadsList_randomizeList cs]

end

end Randomize

end Command

end Tandem
