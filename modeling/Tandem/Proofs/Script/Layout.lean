import Tandem.Proofs.Script.Accounting
import Tandem.Proofs.Text.Lines
import Mathlib.Data.List.Forall2
import Mathlib.Data.List.TakeWhile

/-!
# Layout says nothing

What a script text says does not depend on how it is laid out. Blank lines may be put among its
lines, blanks around each of them, and a label in front of each that has none : what is read is the
same script, and the same lines are left out for the same reasons, under the numbers that they now
have, as long as words go that far. Lines may end with a carriage return, too
(`Script.ignores_layout`). A label is whatever the reading passes over as one, so also one of which
half is in a colour; behind another label it is none (`Script.layout_tells`).

The argument has two halves. A line that is dressed says what it said (`Line.ofText_of_dressed`),
because what is left of it between its blanks is the same text, perhaps behind a label. And a
reading that meets the same tokens at other places does the same there (`Reading.Moved`).
-/

namespace Tandem

open Text

namespace Text

/-! ## Blanks around a text -/

/-- There is nothing but blanks in the text. -/
def Blanks (cs : List Char) : Prop :=
  ∀ c ∈ cs, isBlank c = true

variable {front core back cs : List Char}

theorem Blanks.append (hf : Blanks front) (hb : Blanks back) : Blanks (front ++ back) :=
  List.forall_mem_append.mpr ⟨hf, hb⟩

/-- Of blanks nothing is left when they are trimmed. -/
theorem Blanks.trim (h : Blanks cs) : trim cs = [] := by
  rw [Text.trim, trimStart, List.dropWhile_eq_nil_iff.mpr h]
  rfl

/-- The blanks around a tight text are dropped. -/
theorem Tight.trim_between (h : Tight core) (hf : Blanks front) (hb : Blanks back) :
    Text.trim (front ++ core ++ back) = core := by
  obtain ⟨a, ha, hblank⟩ := h.head
  obtain ⟨z, hz, hblank'⟩ := h.last
  have hhead : (core ++ back).head? = some a := by rw [List.head?_append, ha, Option.some_or]
  rw [List.append_assoc, Text.trim, trimStart_append hf, trimStart_of_head? hhead hblank, trimEnd,
    List.reverse_append, List.dropWhile_append_of_pos fun c hc => hb c (List.mem_reverse.mp hc)]
  exact trimEnd_of_getLast? hz hblank'

theorem trimEnd_append_blanks (cs : List Char) : ∃ back, cs = trimEnd cs ++ back ∧ Blanks back := by
  refine ⟨(cs.reverse.takeWhile isBlank).reverse, ?_, fun c hc => ?_⟩
  · rw [trimEnd, ← List.reverse_append, List.takeWhile_append_dropWhile, List.reverse_reverse]
  · exact List.mem_takeWhile_imp (List.mem_reverse.mp hc)

/-- A text is what is left when it is trimmed, and blanks around that. -/
theorem exists_blanks_around (cs : List Char) : ∃ front back,
    cs = front ++ trim cs ++ back ∧ Blanks front ∧ Blanks back := by
  obtain ⟨back, hcs, hback⟩ := trimEnd_append_blanks (trimStart cs)
  refine ⟨cs.takeWhile isBlank, back, ?_, fun c hc => List.mem_takeWhile_imp hc, hback⟩
  rw [List.append_assoc, trim, ← hcs, trimStart, List.takeWhile_append_dropWhile]

/-- What is trimmed at its start does not start with a blank. -/
theorem not_isBlank_of_head?_trimStart {a : Char} (h : (trimStart cs).head? = some a) :
    isBlank a = false := by
  have hhead := List.head?_dropWhile_not isBlank cs
  rw [trimStart] at h
  rw [h] at hhead
  exact hhead

/-- What is left of a text when it is trimmed is tight, if anything is left. -/
theorem tight_trim (h : trim cs ≠ []) : Tight (trim cs) where
  head := by
    obtain ⟨back, hcs, -⟩ := trimEnd_append_blanks (trimStart cs)
    have hhead : (trimStart cs).head? = some ((trim cs).head h) := by
      rw [hcs, List.head?_append, ← trim, List.head?_eq_some_head h, Option.some_or]
    exact ⟨_, List.head?_eq_some_head h, not_isBlank_of_head?_trimStart hhead⟩
  last := by
    have hlast : (trimStart (trimStart cs).reverse).head? = some ((trim cs).getLast h) := by
      rw [← List.getLast?_eq_some_getLast h, trim, trimEnd, List.getLast?_reverse]
      rfl
    exact ⟨_, List.getLast?_eq_some_getLast h, not_isBlank_of_head?_trimStart hlast⟩

/-- Blanks around a text make no difference when it is trimmed. -/
theorem trim_between (hf : Blanks front) (hb : Blanks back) (cs : List Char) :
    trim (front ++ cs ++ back) = trim cs := by
  obtain ⟨front', back', hcs, hf', hb'⟩ := exists_blanks_around cs
  by_cases h : trim cs = []
  · rw [h, List.append_nil] at hcs
    rw [h, hcs]
    exact ((hf.append (hf'.append hb')).append hb).trim
  · have hsplit : front ++ cs ++ back = front ++ front' ++ trim cs ++ (back' ++ back) := by
      nth_rewrite 1 [hcs]
      simp only [List.append_assoc]
    rw [hsplit]
    exact (tight_trim h).trim_between (hf.append hf') (hb'.append hb)

end Text

namespace Line

/-! ## Labels -/

/-- The text is a label, plain or in a colour, with the blanks behind it. -/
inductive Label : List Char → Prop
  | plain {digits blanks : List Char} : digits ≠ [] → (∀ c ∈ digits, isDecimalDigit c = true) →
    Blanks blanks → Label ('L' :: (digits ++ ':' :: blanks))
  | coloured {colour digits blanks : List Char} : colour.length = 6 →
    (∀ c ∈ colour, isHexDigit c = true) → digits ≠ [] →
    (∀ c ∈ digits, isDecimalDigit c = true) → Blanks blanks →
    Label ("<color=#".toList ++ colour ++ ">L".toList ++ digits ++ "</color>:".toList ++ blanks)

theorem dropColour_coloured {colour : List Char} (hlength : colour.length = 6)
    (hcolour : ∀ c ∈ colour, isHexDigit c = true) (rest : List Char) :
    dropColour ("<color=#".toList ++ colour ++ '>' :: rest) = rest := by
  obtain ⟨a, b, c, d, e, f, rfl⟩ : ∃ a b c d e f, colour = [a, b, c, d, e, f] := by
    match colour, hlength with
    | [a, b, c, d, e, f], _ => exact ⟨a, b, c, d, e, f, rfl⟩
  have hall : [a, b, c, d, e, f].all isHexDigit = true := List.all_eq_true.mpr hcolour
  exact if_pos hall

theorem afterLabel?_of_dropColour {cs digits rest : List Char} (colourEnd : List Char)
    (hne : digits ≠ [])
    (hdigits : ∀ c ∈ digits, isDecimalDigit c = true)
    (hstop : (colourEnd ++ ':' :: rest).head?.any isDecimalDigit = false)
    (hend : dropColourEnd (colourEnd ++ ':' :: rest) = ':' :: rest)
    (hcs : dropColour cs = 'L' :: (digits ++ (colourEnd ++ ':' :: rest))) :
    afterLabel? cs = some rest := by
  rw [afterLabel?, hcs]
  simp only [takeWhile_front hdigits hstop, dropWhile_front hdigits hstop, if_neg hne, hend]

/-- A label is passed over, and nothing behind it. -/
theorem Label.afterLabel?_append {label : List Char} (h : Label label) (body : List Char) :
    ∃ blanks, Blanks blanks ∧ afterLabel? (label ++ body) = some (blanks ++ body) := by
  cases h with
  | @plain digits blanks hne hdigits hblanks =>
    refine ⟨blanks, hblanks, ?_⟩
    refine afterLabel?_of_dropColour [] hne hdigits rfl rfl ?_
    rw [List.cons_append, List.append_assoc]
    rfl
  | @coloured colour digits blanks hlength hcolour hne hdigits hblanks =>
    refine ⟨blanks, hblanks, ?_⟩
    refine afterLabel?_of_dropColour "</color>".toList hne hdigits rfl rfl ?_
    rw [← dropColour_coloured hlength hcolour ('L' :: _)]
    simp

/-- A label does not start with a blank. -/
theorem Label.head {label : List Char} (h : Label label) :
    ∃ a, label.head? = some a ∧ isBlank a = false := by
  cases h with
  | plain => exact ⟨'L', rfl, rfl⟩
  | coloured => exact ⟨'<', rfl, rfl⟩

/-! ## Lines that are dressed -/

/-- The second line is the first one with blanks around it. If the first one is not blank and has no
label, it may be given one. -/
inductive Dressed (raw : List Char) : List Char → Prop
  | plain {front back : List Char} : Blanks front → Blanks back → Dressed raw (front ++ raw ++ back)
  | labelled {front label back : List Char} : trim raw ≠ [] → afterLabel? (trim raw) = none →
    Label label → Blanks front → Blanks back → Dressed raw (front ++ (label ++ raw) ++ back)

theorem Dressed.refl (raw : List Char) : Dressed raw raw := by
  have hnone : Blanks [] := List.forall_mem_nil _
  have hdressed : Dressed raw ([] ++ raw ++ []) := .plain hnone hnone
  rwa [List.nil_append, List.append_nil] at hdressed

/-- A line that is dressed says what it said. -/
theorem ofText_of_dressed {raw raw' : List Char} (h : Dressed raw raw') :
    ofText raw' = ofText raw := by
  cases h with
  | plain hf hb => rw [ofText, ofText, trim_between hf hb]
  | @labelled front label back hne hnone hlabel hf hb =>
    obtain ⟨a, ha, hblank⟩ := hlabel.head
    obtain ⟨front', back', hraw, hf', hb'⟩ := exists_blanks_around raw
    -- Trimmed, the line is the label and the line that it was, with the blanks that it began with.
    have htight : Tight (label ++ front' ++ trim raw) :=
      .append (by rw [List.head?_append, ha, Option.some_or]) hblank (tight_trim hne)
    have htrim : trim (front ++ (label ++ raw) ++ back) = label ++ front' ++ trim raw := by
      rw [← htight.trim_between hf (hb'.append hb)]
      nth_rewrite 1 [hraw]
      simp only [List.append_assoc]
    obtain ⟨blanks, hblanks, hafter⟩ := hlabel.afterLabel?_append (front' ++ trim raw)
    have hdrop : dropLabel (label ++ front' ++ trim raw) = trim raw := by
      rw [dropLabel, List.append_assoc, hafter]
      dsimp only
      rw [trimStart_append hblanks, trimStart_append hf', (tight_trim hne).trimStart]
    have hdrop' : dropLabel (trim raw) = trim raw := by rw [dropLabel, hnone]
    simp only [ofText, htrim, hdrop, hdrop', if_neg hne, if_neg htight.ne_nil]

end Line

/-! ## Texts that are laid out anew -/

/-- The lines are laid out anew : blank lines are put among them, and each of them is dressed. For
each line in turn, it is told how many blank lines have been put in front of it. -/
inductive Relaid : List (List Char) → List (List Char) → List Nat → Prop
  | nil : Relaid [] [] []
  | blank {lines lines' : List (List Char)} {added : List Nat} {raw : List Char} :
    Blanks raw → Relaid lines lines' added → Relaid lines (raw :: lines') (added.map (· + 1))
  | line {lines lines' : List (List Char)} {added : List Nat} {raw raw' : List Char} :
    Line.Dressed raw raw' → Relaid lines lines' added →
    Relaid (raw :: lines) (raw' :: lines') (0 :: added)

namespace Token

/-- A line of blanks is a blank line. -/
theorem ofLine_of_blanks {raw : List Char} (v : Vocabulary) (h : Blanks raw) :
    ofLine v raw = .blank := by
  have hblank : Line.ofText raw = .blank := by simp only [Line.ofText, h.trim, if_true]
  rw [ofLine, hblank]

/-- A line gives the same in any dress. -/
theorem ofLine_of_dressed {raw raw' : List Char} (v : Vocabulary) (h : Line.Dressed raw raw') :
    ofLine v raw' = ofLine v raw := by
  rw [ofLine, ofLine, Line.ofText_of_dressed h]

end Token

namespace Reading

variable {place : Nat → Nat} {n : Nat}

/-- The two reports are on the same line for the same reason. In the second text, which has so many
lines, `place` tells where the line stands. -/
inductive Displaced (place : Nat → Nat) (n : Nat) : Omission → Omission → Prop
  | ofLine {i : Nat} (reason : OmissionReason) (raw raw' : List Char) : place i < n →
    Displaced place n (.ofLine i reason raw) (.ofLine (place i) reason raw')

/-- The two loops are opened by the same line, behind the same commands. -/
structure Shifted (place : Nat → Nat) (n : Nat) (l l' : OpenLoop) : Prop where
  index : l'.index = place l.index
  lt : place l.index < n
  before : l'.before = l.before

/-- The two readings have read the same, each line of the one where `place` puts that of the
other. -/
structure Moved (place : Nat → Nat) (n : Nat) (r r' : Reading) : Prop where
  commands : r'.commands = r.commands
  loops : List.Forall₂ (Shifted place n) r.loops r'.loops
  omissions : List.Forall₂ (Displaced place n) r.omissions r'.omissions

theorem map_eq_of_forall₂ {α β γ : Type} {R : α → β → Prop} {f : α → γ} {g : β → γ} {as : List α}
    {bs : List β} (h : List.Forall₂ R as bs) (hR : ∀ a b, R a b → g b = f a) :
    bs.map g = as.map f := by
  induction h with
  | nil => rfl
  | cons hab _ ih => rw [List.map_cons, List.map_cons, hR _ _ hab, ih]

namespace Moved

variable {r r' : Reading}

theorem skip (h : Moved place n r r') {index : Nat} (hn : place index < n)
    (reason : OmissionReason) (raw raw' : List Char) :
    Moved place n (r.skip index reason raw) (r'.skip (place index) reason raw') where
  commands := h.commands
  loops := h.loops
  omissions := .cons (.ofLine reason raw raw' hn) h.omissions

/-- The same token is read at the place that belongs to it. -/
theorem readToken (h : Moved place n r r') (raw raw' : List Char) {index : Nat}
    (hn : place index < n) (t : Token) :
    Moved place n (r.readToken raw index t) (r'.readToken raw' (place index) t) := by
  cases t with
  | blank => exact h
  | command c => exact ⟨congrArg (c :: ·) h.commands, h.loops, h.omissions⟩
  | unfit reason => exact h.skip hn reason raw raw'
  | opening => exact ⟨rfl, .cons ⟨rfl, hn, h.commands⟩ h.loops, h.omissions⟩
  | closing count =>
    have hloops := h.loops
    unfold Reading.readToken
    dsimp only
    cases hl : r.loops with
    | nil =>
      rw [hl, List.forall₂_nil_left_iff] at hloops
      rw [hloops]
      exact h.skip hn _ raw raw'
    | cons l loops =>
      rw [hl] at hloops
      obtain ⟨l', loops', hhead, htail, hl'⟩ := List.forall₂_cons_left_iff.mp hloops
      rw [hl']
      refine ⟨?_, htail, h.omissions⟩
      dsimp only
      rw [hhead.before, h.commands]

/-- Lines that are laid out anew say the same at their new places. -/
theorem readLines (v : Vocabulary) {lines lines' : List (List Char)} {added : List Nat}
    (hlines : Relaid lines lines' added) :
      ∀ {r r' : Reading} (index index' : Nat), Moved place n r r' →
      (∀ i m, added[i]? = some m → place (index + i) = index' + i + m) →
      index' + lines'.length ≤ n →
      Moved place n (Reading.readLines v index lines r)
        (Reading.readLines v index' lines' r') := by
  induction hlines with
  | nil => exact fun _ _ h _ _ => h
  | @blank lines lines' added raw hraw _ ih =>
    intro r r' index index' h hplace hn
    rw [Reading.readLines, readLine_eq, Token.ofLine_of_blanks v hraw]
    rw [List.length_cons] at hn
    -- One of the lines that were put in front of the others has been read.
    refine ih index (index' + 1) h (fun i m hm => ?_) (by omega)
    have hnext := hplace i (m + 1) (by rw [List.getElem?_map, hm]; rfl)
    omega
  | @line lines lines' added raw raw' hraw _ ih =>
    intro r r' index index' h hplace hn
    obtain rfl : place index = index' := hplace 0 0 rfl
    rw [List.length_cons] at hn
    rw [Reading.readLines, Reading.readLines, readLine_eq, readLine_eq,
      Token.ofLine_of_dressed v hraw]
    refine ih _ _ (h.readToken raw raw' (by omega) _) (fun i m hm => ?_) (by omega)
    have hnext : place (index + i + 1) = place index + (i + 1) + m := hplace (i + 1) m hm
    rw [Nat.add_right_comm index 1 i]
    omega

/-- At the end the same script has been read, with the same reports at their new places. -/
theorem finish (h : Moved place n r r') : r'.finish.script = r.finish.script ∧
    List.Forall₂ (Displaced place n) r.finish.omissions r'.finish.omissions := by
  have hbefore : r'.loops.map (·.before) = r.loops.map (·.before) :=
    map_eq_of_forall₂ h.loops fun _ _ hl => hl.before
  refine ⟨?_, ?_⟩
  · rw [Reading.finish, Reading.finish, h.commands]
    exact script_giveUpLoops hbefore _ _ _
  · rw [Reading.finish, Reading.finish, omissions_giveUpLoops, omissions_giveUpLoops]
    refine List.rel_append (List.forall₂_reverse_iff.mpr h.omissions) ?_
    rw [List.forall₂_map_left_iff, List.forall₂_map_right_iff]
    exact h.loops.imp fun l l' hl => hl.index ▸ .ofLine _ l.raw l'.raw hl.lt

end Moved

end Reading

/-! ## Line endings -/

namespace Text

/-- The second text is the first one with a carriage return put in front of some line feeds. -/
inductive Returned : List Char → List Char → Prop
  | nil : Returned [] []
  | cons {cs cs' : List Char} (c : Char) : Returned cs cs' → Returned (c :: cs) (c :: cs')
  | feed {cs cs' : List Char} : Returned cs cs' → Returned ('\n' :: cs) ('\r' :: '\n' :: cs')

/-- The pieces between line feeds are the same, but some have a carriage return at the end, if a
line feed follows. -/
inductive Returns : List (List Char) → List (List Char) → Prop
  | last (p : List Char) : Returns [p] [p]
  | same {ps ps' : List (List Char)} (p : List Char) : Returns ps ps' → Returns (p :: ps) (p :: ps')
  | returned {ps ps' : List (List Char)} (p : List Char) : Returns ps ps' →
    Returns (p :: ps) ((p ++ ['\r']) :: ps')

namespace Returns

variable {ps ps' : List (List Char)} {p p' : List Char}

theorem ne_nil (h : Returns ps ps') : ps ≠ [] ∧ ps' ≠ [] := by
  cases h <;> exact ⟨List.cons_ne_nil _ _, List.cons_ne_nil _ _⟩

theorem cons (h : Returns (p :: ps) (p' :: ps')) (c : Char) :
    Returns ((c :: p) :: ps) ((c :: p') :: ps') := by
  cases h with
  | last => exact .last _
  | same _ h => exact .same _ h
  | returned _ h => exact .returned (c :: p) h

end Returns

/-- A text with returns has the lines of the text without, piece by piece. -/
theorem Returned.pieces {cs cs' : List Char} (h : Returned cs cs') :
    Returns (Text.pieces '\n' cs) (Text.pieces '\n' cs') := by
  induction h with
  | nil => exact .last []
  | cons c _ ih =>
    rw [Text.pieces, Text.pieces]
    split
    · exact .same [] ih
    · obtain ⟨p, ps, hp⟩ := List.exists_cons_of_ne_nil ih.ne_nil.1
      obtain ⟨p', ps', hp'⟩ := List.exists_cons_of_ne_nil ih.ne_nil.2
      rw [hp, hp'] at ih ⊢
      exact ih.cons c
  | @feed cs cs' _ ih =>
    have hfeed : Text.pieces '\n' ('\r' :: '\n' :: cs') = ['\r'] :: Text.pieces '\n' cs' := rfl
    rw [hfeed, Text.pieces, if_pos rfl]
    exact .returned [] ih

/-- A line with a return at its end is a dress of the line without it. -/
theorem dressed_dropReturn (p : List Char) : Line.Dressed (dropReturn p) p := by
  unfold dropReturn
  split
  · next h =>
    have hnone : Blanks [] := List.forall_mem_nil _
    have hreturn : Blanks ['\r'] := List.forall_mem_singleton.mpr rfl
    obtain ⟨q, rfl⟩ := List.getLast?_eq_some_iff.mp h
    rw [List.dropLast_concat]
    exact .plain hnone hreturn
  · exact .refl p

theorem Returns.relaid {ps ps' : List (List Char)} (h : Returns ps ps') :
    Relaid (linesOfPieces ps) (linesOfPieces ps') ((linesOfPieces ps).map fun _ => 0) := by
  induction h with
  | last p =>
    unfold linesOfPieces
    split
    · exact .nil
    · exact .line (.refl p) .nil
  | same p h ih =>
    rw [linesOfPieces_cons p h.ne_nil.1, linesOfPieces_cons p h.ne_nil.2, List.map_cons]
    exact .line (.refl _) ih
  | returned p h ih =>
    have hdrop : dropReturn (p ++ ['\r']) = p := by
      rw [dropReturn, if_pos List.getLast?_concat, List.dropLast_concat]
    rw [linesOfPieces_cons p h.ne_nil.1, linesOfPieces_cons _ h.ne_nil.2, List.map_cons, hdrop]
    exact .line (dressed_dropReturn p) ih

end Text

/-! ## The same script -/

namespace Script

/-- Lines that are laid out anew give the same script, and the same reports at their new places. -/
theorem ofLines_of_relaid (v : Vocabulary) {lines lines' : List (List Char)} {added : List Nat}
    (h : Relaid lines lines' added) : (ofLines v lines').script = (ofLines v lines).script ∧
      List.Forall₂ (Reading.Displaced (fun i => i + added.getD i 0) lines'.length)
        (ofLines v lines).omissions (ofLines v lines').omissions := by
  have hstart : Reading.Moved (fun i => i + added.getD i 0) lines'.length .start .start :=
    ⟨rfl, .nil, .nil⟩
  refine (hstart.readLines v h 0 0 (fun i m hm => ?_) (by omega)).finish
  rw [List.getD_eq_getElem?_getD, Nat.zero_add, hm, Option.getD_some]

/-- Blank lines, blanks around lines, labels and carriage returns make no difference to the script,
nor to what is left out of it and why. The numbers of the reports go with their lines. -/
theorem ignores_layout (v : Vocabulary) :
    (∀ {lines lines' : List (List Char)} {added : List Nat}, Relaid lines lines' added →
      (ofLines v lines').script = (ofLines v lines).script ∧
      (ofLines v lines').omissions.map (·.reason) = (ofLines v lines).omissions.map (·.reason) ∧
      (lines'.length < UInt32.size →
        (ofLines v lines').omissions.map (·.line.toNat) = (ofLines v lines).omissions.map
          fun o => o.line.toNat + added.getD (o.line.toNat - 1) 0)) ∧
    ∀ {text text' : String}, Returned text.toList text'.toList →
      (ofText v text').script = (ofText v text).script ∧
      (ofText v text').omissions.map (fun o => (o.line, o.reason)) =
        (ofText v text).omissions.map fun o => (o.line, o.reason) := by
  refine ⟨fun {lines lines' added} h => ?_, fun {text text'} h => ?_⟩
  · obtain ⟨hscript, homissions⟩ := ofLines_of_relaid v h
    refine ⟨hscript, Reading.map_eq_of_forall₂ homissions ?_, fun hshort =>
      Reading.map_eq_of_forall₂ homissions ?_⟩
    · rintro _ _ ⟨reason, raw, raw', -⟩
      rfl
    · rintro _ _ ⟨reason, raw, raw', hlt⟩
      rw [Omission.toNat_line_ofLine (by omega), Omission.toNat_line_ofLine (by omega),
        Nat.add_sub_cancel, Nat.add_right_comm]
  · obtain ⟨hscript, homissions⟩ := ofLines_of_relaid v h.pieces.relaid
    refine ⟨hscript, Reading.map_eq_of_forall₂ homissions ?_⟩
    rintro _ _ @⟨i, reason, raw, raw', -⟩
    rw [List.getD_eq_getElem?_getD, List.getElem?_map]
    cases (linesOfPieces (pieces '\n' text.toList))[i]? <;> rfl

/-- Two lines that are left out. -/
def rough : List (List Char) :=
  ["LOOP REPEAT \x7b".toList, "FLY (NORTH);".toList]

/-- The same lines with blank ones among them, with labels, and with blanks around them. -/
def roughLaidOut : List (List Char) :=
  [" ".toList, " <color=#24a0FF>L12</color>:LOOP REPEAT \x7b".toList, "".toList,
    "L3: FLY (NORTH);\r".toList]

/-- However the two lines are laid out, they are left out for the same reasons. -/
theorem ignores_layout_of_rough :
    Relaid rough roughLaidOut [1, 2] ∧
    (ofLines .standard roughLaidOut).script = (ofLines .standard rough).script ∧
    (ofLines .standard roughLaidOut).omissions.map (·.reason) =
      [.unknownCommand, .unterminatedLoop] ∧
    roughLaidOut.length < UInt32.size ∧
    (ofLines .standard roughLaidOut).omissions.map (·.line.toNat) = [4, 2] ∧
    Returned "FLY;\nRESET;".toList "FLY;\r\nRESET;".toList ∧
    (ofText .standard "FLY;\r\nRESET;").script = (ofText .standard "FLY;\nRESET;").script := by
  have hnone : Blanks [] := List.forall_mem_nil _
  have hspace : Blanks [' '] := List.forall_mem_singleton.mpr rfl
  have hreturn : Blanks ['\r'] := List.forall_mem_singleton.mpr rfl
  have hcoloured : Line.Label "<color=#24a0FF>L12</color>:".toList :=
    @Line.Label.coloured "24a0FF".toList "12".toList [] rfl (List.all_eq_true.mp rfl) (by decide)
      (List.all_eq_true.mp rfl) hnone
  have hplain : Line.Label "L3: ".toList :=
    @Line.Label.plain ['3'] [' '] (by decide) (List.all_eq_true.mp rfl) hspace
  have hrelaid : Relaid rough roughLaidOut [1, 2] :=
    .blank hspace (.line (.labelled (by decide) (by decide) hcoloured hspace hnone)
      (.blank hnone (.line (.labelled (by decide) (by decide) hplain hnone hreturn) .nil)))
  have hreturned : Returned "FLY;\nRESET;".toList "FLY;\r\nRESET;".toList :=
    .cons 'F' (.cons 'L' (.cons 'Y' (.cons ';' (.feed (.cons 'R' (.cons 'E' (.cons 'S' (.cons 'E'
      (.cons 'T' (.cons ';' .nil))))))))))
  have hshort : roughLaidOut.length < UInt32.size := by decide
  obtain ⟨hscript, hreasons, hnumbers⟩ := (ignores_layout .standard).1 hrelaid
  exact ⟨hrelaid, hscript, hreasons.trans rfl, hshort, (hnumbers hshort).trans rfl, hreturned,
    ((ignores_layout .standard).2 hreturned).1⟩

/-- A line behind a label of which only the end is coloured. -/
def halfColoured : List Char := "L1</color>: MOVE (EAST);".toList

theorem not_label_of_halfColoured {label body : List Char} (h : Line.Label label) :
    halfColoured ≠ label ++ body := by
  have hline : halfColoured = 'L' :: '1' :: '<' :: "/color>: MOVE (EAST);".toList := rfl
  rw [hline]
  intro heq
  cases h with
  | @plain digits blanks hne hdigits _ =>
    -- Behind the one digit stands the end of a colour, where a plain label has its colon.
    obtain ⟨d, digits, rfl⟩ := List.exists_cons_of_ne_nil hne
    simp only [List.cons_append, List.append_assoc, List.cons.injEq, true_and] at heq
    obtain ⟨-, htail⟩ := heq
    cases digits with
    | nil => cases (List.cons.inj htail).1
    | cons d' digits =>
      obtain rfl := (List.cons.inj htail).1
      exact absurd (hdigits '<' (by simp)) (by decide)
  | coloured => cases (List.cons.inj heq).1

/-- A blank line that is put in front of lines that are unfit for a script moves the last of
them. -/
theorem mem_omissions_blank_replicate {v : Vocabulary} {n : Nat} (hn : 0 < n) {raw : List Char}
    {reason : OmissionReason} (ht : Token.ofLine v raw = .unfit reason) :
    .ofLine n reason raw ∈ (ofLines v ([] :: List.replicate n raw)).omissions := by
  obtain ⟨m, rfl⟩ := Nat.exists_eq_succ_of_ne_zero (Nat.ne_of_gt hn)
  have hraw : ([] :: List.replicate (m + 1) raw)[m + 1]? = some raw := by
    rw [List.getElem?_cons_succ, List.getElem?_replicate, if_pos (Nat.lt_succ_self m)]
  refine mem_omissions v _ hraw (.unfit ?_)
  rw [List.getElem?_map, hraw, Option.map_some, ht]

/-- A line with half a label, in a colour that only ends, is read like one with a label. So another
label in front of it makes a difference. In front of `2 ^ 32 - 1` lines that are left out, a blank
line takes the number of the last one round to zero. -/
theorem layout_tells :
    (∀ label body, Line.Label label → halfColoured ≠ label ++ body) ∧
    Text.trim halfColoured ≠ [] ∧ Line.Label "L2: ".toList ∧
    (ofLines .standard [halfColoured]).omissions = [] ∧
    (ofLines .standard ["L2: ".toList ++ halfColoured]).omissions.map (·.reason) =
      [.unknownCommand] ∧
    (ofLines .standard ([] :: List.replicate (UInt32.size - 1) "JUMP;".toList)).omissions.map
        (·.line.toNat) ≠
      (ofLines .standard (List.replicate (UInt32.size - 1) "JUMP;".toList)).omissions.map
        (·.line.toNat + 1) := by
  have hspace : Blanks [' '] := List.forall_mem_singleton.mpr rfl
  have hlabel : Line.Label "L2: ".toList :=
    @Line.Label.plain ['2'] [' '] (by decide) (List.all_eq_true.mp rfl) hspace
  have hunfit : Token.ofLine .standard "JUMP;".toList = .unfit .unknownCommand := rfl
  have hmany : 0 < UInt32.size - 1 := by decide
  refine ⟨fun _ _ => not_label_of_halfColoured, by decide, hlabel, rfl, rfl, fun hnumbers => ?_⟩
  have hzero := List.mem_map_of_mem (f := (·.line.toNat))
    (mem_omissions_blank_replicate hmany hunfit)
  rw [hnumbers, Omission.line_ofLine_of_last] at hzero
  obtain ⟨o, -, ho⟩ := List.mem_map.mp hzero
  exact Nat.succ_ne_zero _ ho

end Script

end Tandem
