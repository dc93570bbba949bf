import Tandem.Proofs.Script.RoundTrip

/-!
# The loops of a script that is written and read

A line without braces opens no loop and closes none, whatever else it says. So of a script whose
leaves are written without braces and without line feeds, the loops are all read back, with their
counts and in the loops that they stand in, whether or not the leaves are commands of the vocabulary
(`Script.skeleton_ofText_text`). Leaves that it does not have are left out.
-/

namespace Tandem

open Text

/-! ## Lines without braces -/

namespace Line

/-- There is no brace in the text. -/
def Braceless (cs : List Char) : Prop := '\x7b' ∉ cs ∧ '\x7d' ∉ cs

theorem Braceless.of_subset {cs ds : List Char} (h : Braceless cs) (hd : ds ⊆ cs) : Braceless ds :=
  ⟨fun hm => h.1 (hd hm), fun hm => h.2 (hd hm)⟩

theorem Braceless.append {cs ds : List Char} (h : Braceless cs) (hd : Braceless ds) :
    Braceless (cs ++ ds) :=
  ⟨fun hm => (List.mem_append.mp hm).elim h.1 hd.1, fun hm => (List.mem_append.mp hm).elim h.2 hd.2⟩

/-- Dropping a label adds no characters. -/
theorem dropLabel_subset (cs : List Char) : dropLabel cs ⊆ cs := by
  unfold dropLabel
  split
  · next rest h =>
    unfold afterLabel? at h
    split at h
    · next cs' hL =>
      split at h
      · cases h
      · split at h
        · next behind hbehind =>
          obtain rfl := Option.some.inj h
          intro c hc
          have hc' : c ∈ dropColourEnd (cs'.dropWhile isDecimalDigit) := by
            rw [hbehind]
            exact List.mem_cons_of_mem _ ((List.dropWhile_suffix _).subset hc)
          refine (dropColour_suffix cs).subset ?_
          rw [hL]
          exact List.mem_cons_of_mem _
            ((List.dropWhile_suffix _).subset ((dropColourEnd_suffix _).subset hc'))
        · cases h
    · cases h
  · exact List.Subset.refl cs

theorem trim_subset (cs : List Char) : trim cs ⊆ cs := by
  intro c hc
  have hstart : c ∈ (trimStart cs).reverse :=
    (List.dropWhile_suffix _).subset (List.mem_reverse.mp hc)
  exact (List.dropWhile_suffix _).subset (List.mem_reverse.mp hstart)

theorem braceless_indentation (depth : Nat) : Braceless (indentation depth).toList := by
  rw [indentation, String.toList_ofList]
  exact ⟨(fun h => by cases List.eq_of_mem_replicate h),
    fun h => by cases List.eq_of_mem_replicate h⟩

theorem braceless_label (style : Style) (number : Nat) :
    Braceless (Script.label style number).toList := by
  have hdigits : Braceless number.repr.toList :=
    ⟨(fun h => by cases isDigit_of_mem_repr h), fun h => by cases isDigit_of_mem_repr h⟩
  unfold Script.label
  simp only [apply_ite String.toList, String.toList_append]
  split
  · split
    · exact (Braceless.append ⟨by decide, by decide⟩ hdigits).append ⟨by decide, by decide⟩
    · exact (Braceless.append ⟨by decide, by decide⟩ hdigits).append ⟨by decide, by decide⟩
  · exact ⟨by decide, by decide⟩

/-- A line that neither opens nor closes a loop. -/
def IsFlat : Line → Prop
  | loopOpen | loopClose _ => False
  | _ => True

theorem isFlat_ofBody {cs : List Char} (h : Braceless cs) : (ofBody cs).IsFlat := by
  unfold ofBody
  split
  · next hopen => exact h.1 (brace_mem_of_isLoopOpen hopen)
  · split
    · next digits hclose =>
      -- A text that closes a loop begins with a brace.
      unfold closingDigits? at hclose
      split at hclose
      · exact absurd List.mem_cons_self h.2
      · cases hclose
    · split <;> trivial

/-- A line without braces neither opens nor closes a loop. -/
theorem isFlat_ofText {raw : List Char} (h : Braceless raw) : (ofText raw).IsFlat := by
  unfold ofText
  dsimp only
  split
  · trivial
  · exact isFlat_ofBody (h.of_subset (List.Subset.trans (dropLabel_subset _) (trim_subset raw)))

end Line

namespace Command

/-- A leaf is written without braces and without line feeds. -/
def IsPlain : Command → Prop
  | leaf b => ∀ c ∈ Line.leafBody b.name b.args, c ≠ '\n' ∧ c ≠ '\x7b' ∧ c ≠ '\x7d'
  | loop .. => True

mutual

/-- The command without its leaves : a new loop of new loops, or nothing. -/
def skeleton : Command → List Command
  | leaf _ => []
  | loop _ n cs => [repeated n (skeletonOf cs)]

/-- The commands without their leaves. -/
def skeletonOf : List Command → List Command
  | [] => []
  | c :: cs => skeleton c ++ skeletonOf cs

end

/-- Such a leaf can be a line, whatever stands in front of it. -/
theorem IsPlain.isLine {b : CommandHead} (h : (leaf b).IsPlain) {front tail : List Char}
    (hf : '\n' ∉ front) (ht : Line.IsTail tail) :
    IsLine (front ++ (Line.leafBody b.name b.args ++ tail)) := by
  have hbody : '\n' ∉ Line.leafBody b.name b.args := fun hm => (h _ hm).1 rfl
  have hlast : (Line.leafBody b.name b.args).getLast? = some ')' := by
    rw [Line.leafBody, ← List.cons_append, ← List.cons_append, ← List.append_assoc]
    exact List.getLast?_concat
  obtain rfl | rfl := ht
  · rw [List.append_nil]
    refine ⟨by simp [hf, hbody], ?_⟩
    rw [List.getLast?_append, hlast, Option.some_or]
    decide
  · refine ⟨by simp [hf, hbody], ?_⟩
    rw [← List.append_assoc, List.getLast?_concat]
    decide

mutual

/-- The lines that are written for a plain command are whole lines. -/
theorem isLine_of_plain (depth : Nat) {front tail : List Char} (hf : Line.Heading front)
    (ht : Line.IsTail tail) :
    ∀ c : Command, c.Every IsPlain → ∀ l ∈ writtenLines depth front tail c, IsLine l
  | leaf b, h, l, hl => by
    rw [writtenLines, List.mem_singleton] at hl
    rw [hl]
    exact IsPlain.isLine h hf.noFeed ht
  | loop b n cs, h, l, hl => by
    rw [writtenLines, List.mem_cons, List.mem_append, List.mem_singleton] at hl
    rcases hl with rfl | hl | rfl
    · exact Line.says_loopOpen.isLine hf
    · exact isLine_of_plainOf (depth + 1) cs h.2 l hl
    · exact (Line.says_loopClose n ht).isLine (Line.heading_indentation depth)

theorem isLine_of_plainOf (depth : Nat) :
    ∀ cs : List Command, EveryOf IsPlain cs → ∀ l ∈ childLines depth cs, IsLine l
  | [], _, l, hl => by cases hl
  | c :: cs, h, l, hl => by
    rw [childLines, List.mem_append] at hl
    rcases hl with hl | hl
    · exact isLine_of_plain depth (Line.heading_indentation depth) (Or.inl rfl) c h.1 l hl
    · exact isLine_of_plainOf depth cs h.2 l hl

end

/-- The skeleton of a list is that of its parts. -/
theorem skeletonOf_append (cs ds : List Command) :
    skeletonOf (cs ++ ds) = skeletonOf cs ++ skeletonOf ds := by
  induction cs with
  | nil => rfl
  | cons c cs ih => rw [List.cons_append, skeletonOf, skeletonOf, ih, List.append_assoc]

end Command

namespace Reading

open Command

variable {v : Vocabulary} {r r' r'' : Reading} {loops loops' : List Command}

/-- What was read in between is a part of the block, with these loops, and no loop of the block is
left open. -/
structure Reads (r r' : Reading) (loops : List Command) : Prop where
  commands : ∃ part, r'.commands = part ++ r.commands ∧ skeletonOf part.reverse = loops
  loops : r'.loops = r.loops

namespace Reads

theorem refl (r : Reading) : r.Reads r [] :=
  ⟨⟨[], rfl, rfl⟩, rfl⟩

/-- What is read in two parts is read in one. -/
theorem trans (h : r.Reads r' loops) (h' : r'.Reads r'' loops') :
    r.Reads r'' (loops ++ loops') := by
  obtain ⟨⟨part, hpart, rfl⟩, hloops⟩ := h
  obtain ⟨⟨part', hpart', rfl⟩, hloops'⟩ := h'
  refine ⟨⟨part' ++ part, ?_, ?_⟩, hloops'.trans hloops⟩
  · rw [hpart', hpart, List.append_assoc]
  · rw [List.reverse_append, skeletonOf_append]

/-- A line without braces adds no loop. -/
theorem readLine {raw : List Char} (h : Line.Braceless raw) (r : Reading) (i : Nat) :
    r.Reads (r.readLine v raw i) [] := by
  have hflat := Line.isFlat_ofText h
  unfold Reading.readLine
  revert hflat
  cases Line.ofText raw with
  | blank => exact fun _ => .refl r
  | loopOpen | loopClose => exact False.elim
  | unknown => exact fun _ => ⟨⟨[], rfl, rfl⟩, rfl⟩
  | command name args =>
    intro _
    dsimp only
    split
    · exact ⟨⟨[], rfl, rfl⟩, rfl⟩
    · split
      · exact ⟨⟨[.ofName name args], rfl, rfl⟩, rfl⟩
      · exact ⟨⟨[], rfl, rfl⟩, rfl⟩

end Reads

mutual

/-- The lines of a command give its loops, whatever becomes of its leaves. -/
theorem reads_writtenLines (depth : Nat) {front tail : List Char} (hf : Line.Heading front)
    (hfront : Line.Braceless front) (ht : Line.IsTail tail) : ∀ c : Command, c.Every IsPlain →
      ∀ (i : Nat) (r : Reading),
        r.Reads (readLines v i (c.writtenLines depth front tail) r) c.skeleton
  | .leaf b, h, i, r => by
    have hbody : Line.Braceless (Line.leafBody b.name b.args) :=
      ⟨fun hm => (h _ hm).2.1 rfl, fun hm => (h _ hm).2.2 rfl⟩
    have htail : Line.Braceless tail := by
      obtain rfl | rfl := ht <;> exact ⟨by decide, by decide⟩
    exact .readLine (hfront.append (hbody.append htail)) r i
  | .loop b n cs, h, i, r => by
    have hopen : r.readLine v (front ++ Line.openBody) i =
        r.openLoop i (front ++ Line.openBody) := by
      simp only [readLine, Line.says_loopOpen.ofText_append hf]
    obtain ⟨⟨part, hpart, hskeleton⟩, hloops⟩ :=
      reads_childLines (depth + 1) cs h.2 (i + 1) (r.openLoop i (front ++ Line.openBody))
    rw [Command.writtenLines, readLines, hopen, readLines_append, readLines, readLines, readLine,
      (Line.says_loopClose n ht).ofText_append (Line.heading_indentation depth)]
    rw [openLoop] at hpart hloops
    simp only [openLoop, hloops, hpart, List.append_nil]
    refine ⟨⟨[.repeated n part.reverse], rfl, ?_⟩, rfl⟩
    rw [List.reverse_singleton, skeletonOf, skeletonOf, List.append_nil, repeated, skeleton,
      skeleton, hskeleton]

/-- The lines of the children of a loop give their loops, whatever else they say. -/
theorem reads_childLines (depth : Nat) : ∀ cs : List Command, EveryOf IsPlain cs →
    ∀ (i : Nat) (r : Reading),
      r.Reads (readLines v i (Command.childLines depth cs) r) (skeletonOf cs)
  | [], _, _, r => .refl r
  | c :: cs, h, i, r => by
    rw [Command.childLines, readLines_append, skeletonOf]
    exact (reads_writtenLines depth (Line.heading_indentation depth)
      (Line.braceless_indentation depth) (Or.inl rfl) c h.1 i r).trans
        (reads_childLines depth cs h.2 _ _)

end

end Reading

namespace Script

open Command

variable {v : Vocabulary}

theorem isLine_statementLines_of_plain {style : Style} : ∀ (number : Nat) (cs : List Command),
    EveryOf IsPlain cs → ∀ l ∈ statementLines style number cs, IsLine l
  | _, [], _, l, hl => by cases hl
  | number, c :: cs, h, l, hl => by
    rw [statementLines, List.mem_append] at hl
    rcases hl with hl | hl
    · exact isLine_of_plain 0 (Line.heading_label style number) (Or.inr rfl) c h.1 l hl
    · exact isLine_statementLines_of_plain (number + 1) cs h.2 l hl

/-- The lines of statements give their loops, whatever else they say. -/
theorem reads_statementLines {style : Style} : ∀ (number : Nat) (cs : List Command),
    EveryOf IsPlain cs → ∀ (i : Nat) (r : Reading),
      r.Reads (Reading.readLines v i (statementLines style number cs) r) (skeletonOf cs)
  | _, [], _, _, r => .refl r
  | number, c :: cs, h, i, r => by
    rw [statementLines, Reading.readLines_append, skeletonOf]
    exact (Reading.reads_writtenLines 0 (Line.heading_label style number)
      (Line.braceless_label style number) (Or.inr rfl) c h.1 i r).trans
        (reads_statementLines (number + 1) cs h.2 _ _)

/-- The loops of a script that is written are read back with their counts, if no leaf can be taken
for the beginning or the end of one. -/
theorem skeleton_ofText_text {s : Script} {style : Style} (hs : s.Every IsPlain)
    (he : style.rich = true → s.Every fun c => c.disabled = false) :
    skeletonOf (ofText v (s.text style)).script.commands = skeletonOf s.commands := by
  have hreads : Reading.start.Reads
      (Reading.readLines v 0 (statementLines style 1 s.commands) .start) (skeletonOf s.commands) :=
    reads_statementLines 1 s.commands hs 0 .start
  obtain ⟨⟨part, hpart, hskeleton⟩, hloops⟩ := hreads
  rw [ofText, text, statements_eq_unlines 1 s.commands he,
    lines_unlines (isLine_statementLines_of_plain 1 s.commands hs), ofLines, Reading.finish, hloops,
    hpart]
  exact (congrArg (fun cs => skeletonOf (List.reverse cs)) (List.append_nil part)).trans hskeleton

end Script

end Tandem
