import Tandem.Proofs.Script.Lines

/-!
# Scripts that are written are read

A script whose leaves a line can give is read back from its text : no line is left out, and what is
read is the same code (`Script.ofText_text`). This holds of the plain text and the labelled one, and
of rich text as long as no command in it is faded. A script that was itself read from a text is read
back as it was.

What comes back is `Script.rebuilt` : the names, arguments and counts of the script, with no flag
set. A written script is a list of lines (`Command.writtenLines`), and reading them appends the
command to what was read before, in whatever loops that stands (`Reading.readLines_writtenLines`).
-/

namespace Tandem

open Text

namespace Command

/-! ## Every command of a tree -/

mutual

/-- The command and every command inside it satisfy the condition. -/
def Every (P : Command → Prop) : Command → Prop
  | leaf b => P (leaf b)
  | loop b n cs => P (loop b n cs) ∧ EveryOf P cs

/-- The commands and every command inside them satisfy the condition. -/
def EveryOf (P : Command → Prop) : List Command → Prop
  | [] => True
  | c :: cs => Every P c ∧ EveryOf P cs

end

/-- What holds of all commands of a list holds of each. -/
theorem everyOf_iff {P : Command → Prop} {cs : List Command} :
    EveryOf P cs ↔ ∀ c ∈ cs, Every P c := by
  induction cs with
  | nil => simp [EveryOf]
  | cons c cs ih => rw [EveryOf, ih, List.forall_mem_cons]

section Mono

variable {P Q : Command → Prop}

mutual

theorem Every.mono (hPQ : ∀ c, P c → Q c) : ∀ {c : Command}, c.Every P → c.Every Q
  | leaf _, h => hPQ _ h
  | loop .., h => ⟨hPQ _ h.1, EveryOf.mono hPQ h.2⟩

theorem EveryOf.mono (hPQ : ∀ c, P c → Q c) : ∀ {cs : List Command}, EveryOf P cs → EveryOf Q cs
  | [], _ => trivial
  | _ :: _, h => ⟨Every.mono hPQ h.1, EveryOf.mono hPQ h.2⟩

end

end Mono

mutual

/-- Whether a condition that can be tested holds of the command and every command inside it. -/
def decidableEvery (P : Command → Prop) [DecidablePred P] : ∀ c, Decidable (Every P c)
  | leaf b => inferInstanceAs (Decidable (P (leaf b)))
  | loop _ _ cs => @instDecidableAnd _ _ _ (decidableEveryOf P cs)

/-- Whether it holds of the commands and every command inside them. -/
def decidableEveryOf (P : Command → Prop) [DecidablePred P] : ∀ cs, Decidable (EveryOf P cs)
  | [] => .isTrue trivial
  | c :: cs => @instDecidableAnd _ _ (decidableEvery P c) (decidableEveryOf P cs)

end

/-- The command is a leaf that a line can give, or a loop. -/
def SpokenIn (v : Vocabulary) : Command → Prop
  | leaf b => v.Speaks b.name b.args
  | loop .. => True

/-! ## The code of a command -/

mutual

/-- The command as it is made anew from its code, with no flag set. -/
def rebuilt : Command → Command
  | leaf b => ofName b.name b.args
  | loop _ n cs => repeated n (rebuiltOf cs)

/-- The commands as they are made anew from their code. -/
def rebuiltOf : List Command → List Command
  | [] => []
  | c :: cs => rebuilt c :: rebuiltOf cs

end

mutual

/-- A command that is built anew has the same code. -/
theorem sameCode_rebuilt : ∀ c : Command, sameCode (rebuilt c) c = true
  | leaf b => by simp [rebuilt, ofName, sameCode, CommandHead.plain]
  | loop b n cs => by simp [rebuilt, repeated, sameCode, sameCodeList_rebuiltOf cs]

theorem sameCodeList_rebuiltOf : ∀ cs : List Command, sameCodeList (rebuiltOf cs) cs = true
  | [] => rfl
  | c :: cs => by simp [rebuiltOf, sameCodeList, sameCode_rebuilt c, sameCodeList_rebuiltOf cs]

end

mutual

/-- A command that is built anew has nothing disabled. -/
theorem enabled_rebuilt : ∀ c : Command, (rebuilt c).Every fun c => c.disabled = false
  | leaf _ => rfl
  | loop _ _ cs => ⟨rfl, enabled_rebuiltOf cs⟩

theorem enabled_rebuiltOf : ∀ cs : List Command,
    EveryOf (fun c => c.disabled = false) (rebuiltOf cs)
  | [] => trivial
  | c :: cs => ⟨enabled_rebuilt c, enabled_rebuiltOf cs⟩

end

theorem rebuiltOf_eq_self {cs : List Command} (h : ∀ c ∈ cs, rebuilt c = c) :
    rebuiltOf cs = cs := by
  induction cs with
  | nil => rfl
  | cons c cs ih =>
    rw [List.forall_mem_cons] at h
    rw [rebuiltOf, h.1, ih h.2]

/-! ## The lines of a command -/

mutual

/-- The lines of a command at that depth, with `front` in front of the first one and `tail` behind
the last one. -/
def writtenLines (depth : Nat) (front tail : List Char) : Command → List (List Char)
  | leaf b => [front ++ (Line.leafBody b.name b.args ++ tail)]
  | loop _ n cs => (front ++ Line.openBody) :: (childLines (depth + 1) cs ++
      [(indentation depth).toList ++ (Line.closeBody n ++ tail)])

/-- The lines of the children of a loop, which are at that depth. -/
def childLines (depth : Nat) : List Command → List (List Char)
  | [] => []
  | c :: cs => writtenLines depth (indentation depth).toList [] c ++ childLines depth cs

end

/-- What is left of the head's fading where no command is faded. -/
theorem faded_of_enabled {rich disabled : Bool} (h : rich = true → disabled = false)
    (text : String) : faded (rich && disabled) text = text := by
  cases rich
  · rfl
  · rw [h rfl]
    rfl

theorem leafBody_eq (name : String) (args : List String) :
    Line.leafBody name args = (name ++ " (" ++ String.intercalate "," args ++ ")").toList := by
  simp [Line.leafBody]

theorem openBody_append_feed (cs : List Char) :
    Line.openBody ++ '\n' :: cs = (loopName ++ " " ++ "REPEAT \x7b\n").toList ++ cs :=
  rfl

theorem closeBody_eq (n : UInt32) :
    Line.closeBody n = ("\x7d " ++ countText n ++ " Times").toList := by
  simp [Line.closeBody]

mutual

/-- The text of a command consists of the lines that are written for it. -/
theorem text_eq_unlines {rich : Bool} (depth : Nat) (front tail : List Char) :
    ∀ c : Command, (rich = true → c.Every fun c => c.disabled = false) →
      front ++ ((c.keyword ++ c.text rich depth).toList ++ (tail ++ ['\n'])) =
        unlines (writtenLines depth front tail c)
  | leaf b, h => by
    have hd : rich = true → b.flags.disabled = false := h
    rw [keyword, isLoop, if_neg Bool.false_ne_true, String.empty_append, text, faded_of_enabled hd,
      writtenLines, leafBody_eq]
    simp only [unlines_cons, unlines_nil, List.append_assoc]
  | loop b n cs, h => by
    have hd : rich = true → b.flags.disabled = false := fun hr => (h hr).1
    have hcs := childTexts_eq_unlines (depth + 1) cs fun hr => (h hr).2
    rw [keyword, isLoop, if_pos rfl, text, faded_of_enabled hd, writtenLines, closeBody_eq]
    simp only [unlines_cons, unlines_append, unlines_nil, String.toList_append, List.append_assoc,
      openBody_append_feed, hcs]

theorem childTexts_eq_unlines {rich : Bool} (depth : Nat) :
    ∀ cs : List Command, (rich = true → EveryOf (fun c => c.disabled = false) cs) →
      (childTexts rich depth cs).toList = unlines (childLines depth cs)
  | [], _ => rfl
  | c :: cs, h => by
    have hc := text_eq_unlines depth (indentation depth).toList [] c fun hr => (h hr).1
    rw [childTexts, childLines, unlines_append, ← hc,
      ← childTexts_eq_unlines depth cs fun hr => (h hr).2]
    simp

end

mutual

/-- The lines that are written for a command are whole lines. -/
theorem isLine_writtenLines {v : Vocabulary} (depth : Nat) {front tail : List Char}
    (hf : Line.Heading front) (ht : Line.IsTail tail) :
    ∀ c : Command, c.Every (SpokenIn v) → ∀ l ∈ writtenLines depth front tail c, IsLine l
  | leaf b, h, l, hl => by
    rw [writtenLines, List.mem_singleton] at hl
    rw [hl]
    exact (Line.says_leaf h ht).isLine hf
  | loop b n cs, h, l, hl => by
    rw [writtenLines, List.mem_cons, List.mem_append, List.mem_singleton] at hl
    rcases hl with rfl | hl | rfl
    · exact Line.says_loopOpen.isLine hf
    · exact isLine_childLines (depth + 1) cs h.2 l hl
    · exact (Line.says_loopClose n ht).isLine (Line.heading_indentation depth)

theorem isLine_childLines {v : Vocabulary} (depth : Nat) :
    ∀ cs : List Command, EveryOf (SpokenIn v) cs → ∀ l ∈ childLines depth cs, IsLine l
  | [], _, l, hl => by cases hl
  | c :: cs, h, l, hl => by
    rw [childLines, List.mem_append] at hl
    rcases hl with hl | hl
    · exact isLine_writtenLines depth (Line.heading_indentation depth) (Or.inl rfl) c h.1 l hl
    · exact isLine_childLines depth cs h.2 l hl

end

end Command

/-! ## Reading the lines -/

namespace Reading

variable {v : Vocabulary}

/-- Lines are read one part after the other. -/
theorem readLines_append (ls ls' : List (List Char)) :
    ∀ (i : Nat) (r : Reading), readLines v i (ls ++ ls') r =
      readLines v (i + ls.length) ls' (readLines v i ls r) := by
  induction ls with
  | nil => exact fun _ _ => rfl
  | cons l ls ih =>
    intro i r
    rw [List.cons_append, readLines, readLines, ih, List.length_cons, Nat.add_assoc, Nat.add_comm 1]

/-- A line with a command that the vocabulary understands gives that command. -/
theorem readLine_command {raw : List Char} {name : String} {args : List String}
    (h : Line.ofText raw = .command name args) (hs : v.understands name args = true) (r : Reading)
    (i : Nat) : r.readLine v raw i = r.push (.ofName name args) := by
  obtain ⟨spec, hspec, ha⟩ := (Option.any_eq_true _ _).mp hs
  simp only [readLine, h, hspec, if_pos ha]

mutual

/-- Reading the lines of a command appends the command to its block. -/
theorem readLines_writtenLines (depth : Nat) {front tail : List Char} (hf : Line.Heading front)
    (ht : Line.IsTail tail) : ∀ c : Command, c.Every (Command.SpokenIn v) →
      ∀ (i : Nat) (r : Reading),
        readLines v i (c.writtenLines depth front tail) r = r.push c.rebuilt
  | .leaf b, h, i, r => by
    rw [Command.writtenLines, readLines, readLines,
      readLine_command ((Line.says_leaf h ht).ofText_append hf) h.2, Command.rebuilt]
  | .loop b n cs, h, i, r => by
    -- The children are read into a block of their own, which the close line ends.
    have hopen : r.readLine v (front ++ Line.openBody) i =
        r.openLoop i (front ++ Line.openBody) := by
      simp only [readLine, Line.says_loopOpen.ofText_append hf]
    rw [Command.writtenLines, readLines, hopen, readLines_append,
      readLines_childLines (depth + 1) cs h.2, readLines, readLines, readLine,
      (Line.says_loopClose n ht).ofText_append (Line.heading_indentation depth)]
    simp only [openLoop, push, Command.rebuilt, List.append_nil, List.reverse_reverse]

/-- The lines of the children of a loop give these children, built anew. -/
theorem readLines_childLines (depth : Nat) : ∀ cs : List Command,
    Command.EveryOf (Command.SpokenIn v) cs → ∀ (i : Nat) (r : Reading),
      readLines v i (Command.childLines depth cs) r =
        { r with commands := (Command.rebuiltOf cs).reverse ++ r.commands }
  | [], _, _, _ => rfl
  | c :: cs, h, i, r => by
    rw [Command.childLines, readLines_append,
      readLines_writtenLines depth (Line.heading_indentation depth) (Or.inl rfl) c h.1,
      readLines_childLines depth cs h.2, Command.rebuiltOf]
    simp [push]

end

end Reading

namespace Script

/-- Every command of the script satisfies the condition. -/
def Every (P : Command → Prop) (s : Script) : Prop := Command.EveryOf P s.commands

instance (P : Command → Prop) [DecidablePred P] (s : Script) : Decidable (s.Every P) :=
  Command.decidableEveryOf P s.commands

/-- The script as it is made anew from its code, with no flag set. -/
def rebuilt (s : Script) : Script := ⟨Command.rebuiltOf s.commands⟩

theorem sameCode_rebuilt (s : Script) : s.rebuilt.sameCode s = true :=
  Command.sameCodeList_rebuiltOf s.commands

/-- The lines of the statements of the commands, the first one having that number. -/
def statementLines (style : Style) : Nat → List Command → List (List Char)
  | _, [] => []
  | number, c :: cs =>
    c.writtenLines 0 (label style number).toList [';'] ++ statementLines style (number + 1) cs

/-- The text of statements consists of the lines that are written for them. -/
theorem statements_eq_unlines {style : Style} : ∀ (number : Nat) (cs : List Command),
    (style.rich = true → Command.EveryOf (fun c => c.disabled = false) cs) →
      (statements style number cs).toList = unlines (statementLines style number cs)
  | _, [], _ => rfl
  | number, c :: cs, h => by
    have hc := Command.text_eq_unlines 0 (label style number).toList [';'] c fun hr => (h hr).1
    rw [statements, statementLines, unlines_append, ← hc,
      ← statements_eq_unlines (number + 1) cs fun hr => (h hr).2]
    simp [Command.statement]

variable {v : Vocabulary}

theorem isLine_statementLines {style : Style} : ∀ (number : Nat) (cs : List Command),
    Command.EveryOf (Command.SpokenIn v) cs → ∀ l ∈ statementLines style number cs, IsLine l
  | _, [], _, l, hl => by cases hl
  | number, c :: cs, h, l, hl => by
    rw [statementLines, List.mem_append] at hl
    rcases hl with hl | hl
    · exact c.isLine_writtenLines 0 (Line.heading_label style number) (Or.inr rfl) h.1 l hl
    · exact isLine_statementLines (number + 1) cs h.2 l hl

/-- The lines of statements give these statements, built anew. -/
theorem readLines_statementLines {style : Style} : ∀ (number : Nat) (cs : List Command),
    Command.EveryOf (Command.SpokenIn v) cs → ∀ (i : Nat) (r : Reading),
      Reading.readLines v i (statementLines style number cs) r =
        { r with commands := (Command.rebuiltOf cs).reverse ++ r.commands }
  | _, [], _, _, _ => rfl
  | number, c :: cs, h, i, r => by
    rw [statementLines, Reading.readLines_append,
      Reading.readLines_writtenLines 0 (Line.heading_label style number) (Or.inr rfl) c h.1,
      readLines_statementLines (number + 1) cs h.2, Command.rebuiltOf]
    simp [Reading.push]

/-- A script is read back from its text as it is made anew from its code. -/
theorem ofText_text_eq_rebuilt {s : Script} {style : Style} (hs : s.Every (Command.SpokenIn v))
    (he : style.rich = true → s.Every fun c => c.disabled = false) :
    ofText v (s.text style) = ⟨s.rebuilt, []⟩ := by
  rw [ofText, text, statements_eq_unlines 1 s.commands he,
    lines_unlines (isLine_statementLines 1 s.commands hs), ofLines,
    readLines_statementLines 1 s.commands hs]
  simp [Reading.start, Reading.finish, Reading.giveUpLoops, rebuilt]

end Script

/-! ## Scripts that were read -/

/-- The command is one that can be read : its leaves are spoken, and it is what its code makes. -/
def Command.IsRead (v : Vocabulary) (c : Command) : Prop :=
  c.Every (Command.SpokenIn v) ∧ c.rebuilt = c

theorem Command.IsRead.repeated {v : Vocabulary} {cs : List Command} (h : ∀ c ∈ cs, c.IsRead v)
    (n : UInt32) : (Command.repeated n cs).IsRead v :=
  ⟨⟨trivial, everyOf_iff.mpr fun c hc => (h c hc).1⟩,
    congrArg (Command.repeated n) (rebuiltOf_eq_self fun c hc => (h c hc).2)⟩

namespace Reading

variable {v : Vocabulary}

/-- Everything that is kept of the text was read. -/
structure Kept (v : Vocabulary) (r : Reading) : Prop where
  commands : ∀ c ∈ r.commands, c.IsRead v
  loops : ∀ l ∈ r.loops, ∀ c ∈ l.before, c.IsRead v

theorem Kept.start : Reading.start.Kept v :=
  ⟨(fun _ h => nomatch h), (fun _ h => nomatch h)⟩

/-- Whatever a line says, the commands that are kept are of those that can be read. -/
theorem Kept.readLine {r : Reading} (h : r.Kept v) (raw : List Char) (i : Nat) :
    (r.readLine v raw i).Kept v := by
  unfold Reading.readLine
  split
  · exact h
  · exact ⟨nofun, List.forall_mem_cons.mpr ⟨h.commands, h.loops⟩⟩
  · next count hline =>
    split
    · exact ⟨h.commands, h.loops⟩
    · next inner outer hl =>
      have hloops := h.loops
      rw [hl, List.forall_mem_cons] at hloops
      have hc : (Command.repeated count r.commands.reverse).IsRead v :=
        .repeated (fun c hc => h.commands c (List.mem_reverse.mp hc)) count
      exact ⟨List.forall_mem_cons.mpr ⟨hc, hloops.1⟩, hloops.2⟩
  · next name args hline =>
    split
    · exact ⟨h.commands, h.loops⟩
    · next spec hspec =>
      split
      · next ha =>
        have hs : v.Speaks name args := ⟨Line.isName_of_ofText hline, by
          rw [Vocabulary.understands, hspec]
          exact ha⟩
        exact ⟨List.forall_mem_cons.mpr ⟨⟨hs, rfl⟩, h.commands⟩, h.loops⟩
      · exact ⟨h.commands, h.loops⟩
  · exact ⟨h.commands, h.loops⟩

theorem Kept.readLines {ls : List (List Char)} : ∀ {r : Reading}, r.Kept v →
    ∀ i : Nat, (Reading.readLines v i ls r).Kept v := by
  induction ls with
  | nil => exact fun h _ => h
  | cons l ls ih => exact fun h i => ih (h.readLine l i) (i + 1)

theorem isRead_giveUpLoops {loops : List OpenLoop} (hl : ∀ l ∈ loops, ∀ c ∈ l.before, c.IsRead v) :
    ∀ {commands : List Command}, (∀ c ∈ commands, c.IsRead v) → ∀ omissions : List Omission,
      ∀ c ∈ (giveUpLoops loops commands omissions).script.commands, c.IsRead v := by
  induction loops with
  | nil => exact fun hc _ c h => hc c (List.mem_reverse.mp h)
  | cons l ls ih =>
    rw [List.forall_mem_cons] at hl
    exact fun _ omissions => ih hl.2 hl.1 _

end Reading

namespace Script

/-- Every command of a script that was read is one that can be read. -/
theorem isRead_ofLines (v : Vocabulary) (ls : List (List Char)) :
    ∀ c ∈ (ofLines v ls).script.commands, c.IsRead v := by
  have h : (Reading.readLines v 0 ls .start).Kept v := Reading.Kept.start.readLines 0
  exact Reading.isRead_giveUpLoops h.loops h.commands _

theorem spokenIn_ofLines (v : Vocabulary) (ls : List (List Char)) :
    (ofLines v ls).script.Every (Command.SpokenIn v) :=
  Command.everyOf_iff.mpr fun c hc => (isRead_ofLines v ls c hc).1

/-- A script that was read can be said in the vocabulary. -/
theorem spokenIn_ofText (v : Vocabulary) (text : String) :
    (ofText v text).script.Every (Command.SpokenIn v) :=
  spokenIn_ofLines v (Text.lines text.toList)

/-- A script that was read gains nothing by being built anew. -/
theorem rebuilt_ofText (v : Vocabulary) (text : String) :
    (ofText v text).script.rebuilt = (ofText v text).script :=
  congrArg Script.mk (Command.rebuiltOf_eq_self fun c hc =>
    (isRead_ofLines v (Text.lines text.toList) c hc).2)

/-- A script whose leaves can be given in lines is read back from its text as the same code, with no
line left out, if no command of it is faded in the text. A script that was read from a text is read
back as it is. -/
theorem ofText_text (v : Vocabulary) (style : Style) :
    (∀ s : Script, s.Every (Command.SpokenIn v) →
      (style.rich = true → s.Every fun c => c.disabled = false) →
        (ofText v (s.text style)).omissions = [] ∧
        (ofText v (s.text style)).script.sameCode s = true) ∧
    ∀ t : String,
      ofText v ((ofText v t).script.text style) = ⟨(ofText v t).script, []⟩ := by
  refine ⟨fun s hs he => ?_, fun t => ?_⟩
  · rw [ofText_text_eq_rebuilt hs he]
    exact ⟨rfl, s.sameCode_rebuilt⟩
  · have he : (ofText v t).script.Every fun c => c.disabled = false := by
      rw [← rebuilt_ofText]
      exact Command.enabled_rebuiltOf _
    rw [ofText_text_eq_rebuilt (spokenIn_ofText v t) fun _ => he, rebuilt_ofText]

/-- Loops in a loop, a disabled command among them. -/
def staircase : Script :=
  ⟨[.repeated 2
      [.ofName "MOVE" ["EAST"],
        .repeated 3 [.ofName "Climb_Up" [], (Command.ofName "RESET" []).setDisabled true]],
    .ofName "Continue_Sec" ["0.5"]]⟩

/-- The staircase is read back from its labelled text. -/
theorem ofText_text_staircase :
    (staircase.Every (Command.SpokenIn .standard)) ∧
    (ofText .standard (staircase.text .labelled)).omissions = [] ∧
    (ofText .standard (staircase.text .labelled)).script.sameCode staircase = true := by
  have hs : staircase.Every (Command.SpokenIn .standard) := by
    simp only [Script.Every, staircase, Command.repeated, Command.ofName, Command.setDisabled,
      Command.mapFlags, Command.mapHead, Command.EveryOf, Command.Every, Command.SpokenIn,
      Vocabulary.Speaks, and_true, true_and]
    decide +kernel
  exact ⟨hs, (ofText_text .standard .labelled).1 staircase hs nofun⟩

end Script

end Tandem
