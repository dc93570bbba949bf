import Tandem.Proofs.Script.RoundTrip
import Tandem.Script.Randomize

/-!
# The count of a loop

A loop has its count twice : as the number that runs and texts go by, and as the text of its first
argument, which can be set like any other. A loop is counted if the two are the same
(`Command.Counted`). New loops are, and so are those that are read from a text. No edit and no
drawing of directions changes that, at whatever path : what sets the one sets the other, whatever
was to be set. So every loop of a script that was made in any of these ways is counted
(`Script.Made.isCounted`).

A counted loop is written with its first argument in the line that closes it, and this line is read
as that count wherever it stands (`Reading.readLine_closing`). In a script that is read back from
its text, the loop has this count again, at the same path (`Script.get?_ofText_text`).
-/

namespace Tandem

open Text

namespace Command

/-- A loop has the text of its count as its first argument. -/
def Counted : Command → Prop
  | leaf _ => True
  | loop b n _ => b.args.head? = some (countText n)

/-- The command is new : made from names, arguments and counts alone. -/
inductive Built : Command → Prop
  | ofName (name : String) (args : List String) : Built (ofName name args)
  | repeated (n : UInt32) {cs : List Command} (h : ∀ c ∈ cs, Built c) : Built (repeated n cs)

section Lists

variable {P : Command → Prop} {cs : List Command}

theorem EveryOf.append {ds : List Command} (h : EveryOf P cs) (hd : EveryOf P ds) :
    EveryOf P (cs ++ ds) :=
  everyOf_iff.mpr (List.forall_mem_append.mpr ⟨everyOf_iff.mp h, everyOf_iff.mp hd⟩)

theorem EveryOf.eraseIdx (h : EveryOf P cs) (i : Nat) : EveryOf P (cs.eraseIdx i) :=
  everyOf_iff.mpr fun c hc => everyOf_iff.mp h c (List.mem_of_mem_eraseIdx hc)

/-- What holds of each command still holds when one of them is changed in a way that keeps it. -/
theorem EveryOf.modify {f : Command → Command} (hf : ∀ c, c.Every P → (f c).Every P)
    (h : EveryOf P cs) (i : Nat) : EveryOf P (cs.modify i f) := by
  induction cs generalizing i with
  | nil => rw [List.modify_nil]; trivial
  | cons c cs ih =>
    cases i with
    | zero => exact ⟨hf c h.1, h.2⟩
    | succ i => exact ⟨h.1, ih h.2 i⟩

/-- What holds of every command of a tree holds at each path. -/
theorem Every.of_get? : ∀ {path : Path} {c d : Command}, c.Every P → c.get? path = some d →
    d.Every P
  | [], _, _, h, hd => Option.some.inj hd ▸ h
  | i :: path, leaf _, _, _, hd => nomatch hd
  | i :: path, loop b n cs, d, h, hd => by
    rw [get?, children] at hd
    cases hc : cs[i]? with
    | none => rw [hc] at hd; cases hd
    | some c =>
      rw [hc] at hd
      exact Every.of_get? (everyOf_iff.mp h.2 c (List.mem_of_getElem? hc)) hd

end Lists

/-! ## Counts that are set -/

/-- The first argument of a loop is its count. -/
theorem head?_withCountText (n : UInt32) (args : List String) :
    (withCountText n args).head? = some (countText n) := by
  cases args <;> rfl

/-- The count is the one that the arguments ask for. -/
theorem countOfArgs_of_head? {args : List String} {n : UInt32}
    (h : args.head? = some (countText n)) : countOfArgs args = n := by
  have htight : Tight (countText n).toList := .of_all (Line.repr_ne_nil n.toNat) fun c hc =>
    Line.not_isBlank_of_isWordChar (Line.isWordChar_of_isDigit (Line.isDigit_of_mem_repr hc))
  rw [countOfArgs, h, Option.bind_some, htight.trim, readCount?_countText, Option.getD_some]

section Changes

/-- The change keeps every loop counted. -/
def KeepsCounts (f : Command → Command) : Prop :=
  ∀ c, c.Every Counted → (f c).Every Counted

theorem keepsCounts_mapHead {f : CommandHead → CommandHead} (hf : ∀ b, (f b).args = b.args) :
    KeepsCounts (mapHead f)
  | leaf _, _ => trivial
  | loop b _ _, h => ⟨(congrArg List.head? (hf b)).trans h.1, h.2⟩

/-- Flags have nothing to do with counts. -/
theorem keepsCounts_mapFlags (f : Flags → Flags) : KeepsCounts (mapFlags f) :=
  keepsCounts_mapHead fun _ => rfl

theorem keepsCounts_setName (name : String) : KeepsCounts (setName name) :=
  keepsCounts_mapHead fun _ => rfl

/-- Whatever the arguments ask for, the first one becomes the text of the count. -/
theorem keepsCounts_setArgs (args : List String) : KeepsCounts (setArgs args)
  | leaf _, _ => trivial
  | loop _ _ _, h => ⟨head?_withCountText (countOfArgs args) args, h.2⟩

/-- The count of a loop is set together with its first argument. -/
theorem keepsCounts_setCount (n : UInt32) : KeepsCounts (setCount n)
  | leaf _, _ => trivial
  | loop b _ _, h => ⟨head?_withCountText n b.args, h.2⟩

/-- A child may be added if the counts in it are right. -/
theorem keepsCounts_pushChild {child : Command} (hc : child.Every Counted) :
    KeepsCounts (pushChild child)
  | leaf _, _ => trivial
  | loop _ _ _, h => ⟨h.1, h.2.append ⟨hc, trivial⟩⟩

/-- A child may be removed. -/
theorem keepsCounts_removeChild (i : Nat) : KeepsCounts (removeChild i)
  | leaf _, _ => trivial
  | loop _ _ _, h => ⟨h.1, h.2.eraseIdx i⟩

/-- A change that keeps counts does so at any path. -/
theorem KeepsCounts.modify {f : Command → Command} (hf : KeepsCounts f) :
    ∀ path : Path, KeepsCounts (Command.modify f path)
  | [], c, h => hf c h
  | _ :: _, leaf _, h => h
  | i :: path, loop _ _ _, h => ⟨h.1, h.2.modify (hf.modify path) i⟩

section Randomize

variable {σ : Type} (names : List String) (draw : σ → Direction × σ)

mutual

/-- Directions are drawn for leaves only. -/
theorem counted_randomize : ∀ (c : Command) (source : σ), c.Every Counted →
    (randomize names draw c source).1.Every Counted
  | leaf b, source, _ => by
    unfold randomize
    split <;> trivial
  | loop _ _ cs, source, h => ⟨h.1, counted_randomizeList cs source h.2⟩

/-- New directions leave the counts right. -/
theorem counted_randomizeList : ∀ (cs : List Command) (source : σ), EveryOf Counted cs →
    EveryOf Counted (randomizeList names draw cs source).1
  | [], _, _ => trivial
  | c :: cs, source, h =>
    ⟨counted_randomize c source h.1, counted_randomizeList cs _ h.2⟩

end

end Randomize

end Changes

/-! ## New commands -/

/-- A command that is built has the right counts. -/
theorem Built.counted {c : Command} (h : c.Built) : c.Every Counted := by
  induction h with
  | ofName => trivial
  | repeated n _ ih => exact ⟨rfl, everyOf_iff.mpr ih⟩

mutual

/-- A command that is built anew has the right counts, whatever it had before. -/
theorem counted_rebuilt : ∀ c : Command, (rebuilt c).Every Counted
  | leaf _ => trivial
  | loop _ _ cs => ⟨rfl, counted_rebuiltOf cs⟩

theorem counted_rebuiltOf : ∀ cs : List Command, EveryOf Counted (rebuiltOf cs)
  | [] => trivial
  | c :: cs => ⟨counted_rebuilt c, counted_rebuiltOf cs⟩

end

theorem getElem?_rebuiltOf (cs : List Command) (i : Nat) :
    (rebuiltOf cs)[i]? = cs[i]?.map rebuilt := by
  induction cs generalizing i with
  | nil => rfl
  | cons c cs ih =>
    cases i with
    | zero => rfl
    | succ i => exact ih i

/-- Building a command anew keeps each of its places. -/
theorem get?_rebuilt : ∀ (path : Path) (c : Command),
    (rebuilt c).get? path = (c.get? path).map rebuilt
  | [], _ => rfl
  | _ :: _, leaf _ => rfl
  | i :: path, loop b n cs => by
    rw [rebuilt, get?, get?, repeated, children, children, getElem?_rebuiltOf]
    cases cs[i]? with
    | none => rfl
    | some c => exact get?_rebuilt path c

/-! ## Counts that are written -/

/-- The line that closes a loop at that depth, with that text for its count. -/
def closing (depth : Nat) (count : String) : String :=
  indentation depth ++ "\x7d " ++ count ++ " Times"

/-- A counted loop is written with its first argument in its last line. -/
theorem text_of_counted {b : CommandHead} {n : UInt32} {cs : List Command} {count : String}
    (h : (loop b n cs).Counted) (hb : b.args.head? = some count) (rich : Bool) (depth : Nat) :
    (loop b n cs).text rich depth = faded (rich && b.flags.disabled)
      ("REPEAT \x7b\n" ++ childTexts rich (depth + 1) cs ++ closing depth count) := by
  obtain rfl := Option.some.inj (hb.symm.trans h)
  rw [text, closing]
  simp only [String.append_assoc]

end Command

/-- The line that closes a loop ends the innermost one that is open, with the count that it
shows. -/
theorem Reading.readLine_closing (v : Vocabulary) (n : UInt32) (depth : Nat) {tail : List Char}
    (ht : Line.IsTail tail) {r : Reading} {l : OpenLoop} {ls : List OpenLoop}
    (hl : r.loops = l :: ls) (i : Nat) :
    r.readLine v ((Command.closing depth (countText n)).toList ++ tail) i =
      { r with commands := .repeated n r.commands.reverse :: l.before, loops := ls } := by
  have hline : (Command.closing depth (countText n)).toList ++ tail =
      (indentation depth).toList ++ (Line.closeBody n ++ tail) := by
    rw [Command.closing, Command.closeBody_eq]
    simp only [String.toList_append, List.append_assoc]
  rw [hline, readLine, (Line.says_loopClose n ht).ofText_append (Line.heading_indentation depth)]
  simp only [hl]

namespace Script

open Command

theorem get?_rebuilt (path : Path) (s : Script) :
    s.rebuilt.get? path = (s.get? path).map Command.rebuilt := by
  cases path with
  | nil => rfl
  | cons i path =>
    rw [get?, get?, rebuilt, getElem?_rebuiltOf]
    cases s.commands[i]? with
    | none => rfl
    | some c => exact c.get?_rebuilt path

/-- What holds of every command of a script holds of the one at a place. -/
theorem Every.of_get? {P : Command → Prop} {s : Script} {path : Path} {d : Command}
    (h : s.Every P) (hd : s.get? path = some d) : d.Every P := by
  cases path with
  | nil => cases hd
  | cons i path =>
    rw [get?] at hd
    cases hc : s.commands[i]? with
    | none => rw [hc] at hd; cases hd
    | some c =>
      rw [hc] at hd
      exact Command.Every.of_get? (everyOf_iff.mp h c (List.mem_of_getElem? hc)) hd

/-- A script that is read back from its text has the same commands at the same paths. -/
theorem get?_ofText_text {v : Vocabulary} {s : Script} {style : Style} (hs : s.Every (SpokenIn v))
    (he : style.rich = true → s.Every fun c => c.disabled = false) (path : Path) :
    (ofText v (s.text style)).script.get? path = (s.get? path).map Command.rebuilt := by
  rw [ofText_text_eq_rebuilt hs he]
  exact s.get?_rebuilt path

/-- Every loop of the script is counted. -/
def IsCounted (s : Script) : Prop := s.Every Counted

/-! ## Edits -/

namespace IsCounted

variable {s s' : Script} {path : Path} {f : Command → Command}

/-- A change that keeps counts may be made anywhere in a script. -/
theorem modify (h : s.IsCounted) (hf : KeepsCounts f) (path : Path) :
    (s.modify path f).IsCounted := by
  cases path with
  | nil => exact h
  | cons i path => exact EveryOf.modify (hf.modify path) h i

theorem modify? {test : Command → Bool} (h : s.IsCounted) (hf : KeepsCounts f)
    (hs : s.modify? path test f = some s') : s'.IsCounted := by
  unfold Script.modify? at hs
  split at hs
  · exact Option.some.inj hs ▸ h.modify hf path
  · cases hs

theorem push? {c : Command} (h : s.IsCounted) (hc : c.Every Counted)
    (hs : s.push? path c = some s') : s'.IsCounted := by
  cases path with
  | nil =>
    obtain rfl := Option.some.inj hs
    exact EveryOf.append h ⟨hc, trivial⟩
  | cons i path => exact h.modify? (keepsCounts_pushChild hc) hs

theorem remove? (h : s.IsCounted) (hs : s.remove? path = some s') : s'.IsCounted := by
  unfold Script.remove? at hs
  split at hs
  · split at hs
    · cases hs
    · next i _ =>
      split at hs
      · exact Option.some.inj hs ▸ EveryOf.eraseIdx h i
      · exact Option.some.inj hs ▸ h.modify (keepsCounts_removeChild i) _
  · cases hs

/-- No edit parts the two counts of a loop, unless a pushed command brings such a loop in. -/
theorem edit {e : Edit} (h : s.IsCounted) (hpush : ∀ path c, e = .push path c → c.Every Counted)
    (hs : s.edit e = some s') : s'.IsCounted := by
  cases e with
  | push path c => exact h.push? (hpush path c rfl) hs
  | remove path => exact h.remove? hs
  | setName path name => exact h.modify? (keepsCounts_setName name) hs
  | setArgs path args => exact h.modify? (keepsCounts_setArgs args) hs
  | setCount path count => exact h.modify? (keepsCounts_setCount count) hs
  | setDisabled | setRunning | setEdited | setLocked => exact h.modify? (keepsCounts_mapFlags _) hs

end IsCounted

/-! ## Scripts that were made -/

/-- The script was made : from new commands or from a text, by edits at any paths, and by drawing
directions. What is pushed comes out of a script that was made as well. -/
inductive Made : Script → Prop
  | built {cs : List Command} (h : ∀ c ∈ cs, c.Built) : Made ⟨cs⟩
  | read (v : Vocabulary) (text : String) : Made (ofText v text).script
  | push {s s' t : Script} {c : Command} (path place : Path) (h : Made s) (ht : Made t)
    (hc : t.get? place = some c) (hs : s.edit (.push path c) = some s') : Made s'
  | edit {s s' : Script} (e : Edit) (h : Made s) (he : ∀ path c, e ≠ .push path c)
    (hs : s.edit e = some s') : Made s'
  | randomize {s s' : Script} {t : ScriptStore} {σ : Type} (v : Vocabulary)
    (draw : σ → Direction × σ) (source : σ) (h : Made s) (ht : t.working = some s)
    (hs : (t.randomize v draw source).1.working = some s') : Made s'

/-- Every loop of a script that was made is counted. -/
theorem Made.isCounted {s : Script} (h : s.Made) : s.IsCounted := by
  induction h with
  | built h => exact everyOf_iff.mpr fun c hc => (h c hc).counted
  | read v text =>
    rw [← rebuilt_ofText]
    exact counted_rebuiltOf _
  | push path place _ _ hc hs hcounted ht =>
    refine hcounted.edit (fun path' c' he => ?_) hs
    obtain ⟨-, rfl⟩ := Edit.push.inj he
    exact ht.of_get? hc
  | edit e _ he hs hcounted =>
    exact hcounted.edit (fun path c hpush => absurd hpush (he path c)) hs
  | @randomize s s' t _ v draw source _ ht hs hcounted =>
    rw [ScriptStore.randomize, ht] at hs
    obtain rfl := Option.some.inj hs
    exact counted_randomizeList v.directionNames draw s.commands source hcounted

end Script

end Tandem
