import Tandem.Proofs.Script.Blocks

/-!
# What becomes of each line

Nothing of a text is lost without a reason. The script that is read is the one block that the lines
in front of the first unclosed loop form, and the lines that are left out are reported, each one
once (`Script.accounts_for_lines`). What a report tells of the place of its line is a 32-bit word,
so lines are accounted for by their index, and the number is that of the line as long as words go
that far. Far down a text it is not, and a closing whose count no word can hold closes nothing
(`Script.beyond_words`).

While the lines are read one after the other, those that were read are a `Nest` : a block at the
top, and for each open loop the line that opens it and a block behind that. Reading a line keeps the
nest, and keeps account of what it has left out (`Reading.Accounts`).
-/

namespace Tandem

open Token

/-! ## Faults -/

/-- The report on the line of that index, for that reason. -/
def Omission.ofFault (lines : List (List Char)) (fault : Nat × OmissionReason) : Omission :=
  .ofLine fault.1 fault.2 (lines.getD fault.1 [])

/-- Lines behind it make no difference to the report on a line. -/
theorem Omission.ofFault_append {lines : List (List Char)} {fault : Nat × OmissionReason}
    (h : fault.1 < lines.length) (rest : List (List Char)) :
    ofFault (lines ++ rest) fault = ofFault lines fault := by
  rw [ofFault, List.getD_eq_getElem?_getD, List.getElem?_append_left h, ofFault,
    List.getD_eq_getElem?_getD]

theorem Omission.ofFault_of_getElem? {lines : List (List Char)} {i : Nat} {raw : List Char}
    (h : lines[i]? = some raw) (reason : OmissionReason) :
    ofFault lines (i, reason) = .ofLine i reason raw := by
  rw [ofFault, List.getD_eq_getElem?_getD, h, Option.getD_some]

namespace Token

variable {ts : List Token} {i : Nat} {reason : OmissionReason}

/-- What is left out is one of the lines. -/
theorem Fault.lt_length (h : Fault ts i reason) : i < ts.length := by
  obtain h | ⟨⟨count, h⟩, -⟩ | ⟨h, -⟩ := h
  all_goals exact (List.getElem?_eq_some_iff.mp h).1

/-- A line that is not to be left out is blank, gives a command, or is one of the ends of a loop. -/
theorem of_not_fault {t : Token} (hat : ts[i]? = some t) (h : ∀ reason, ¬Fault ts i reason) :
    t = .blank ∨ (∃ c, t = .command c) ∨ ∃ j, Pairs ts i j ∨ Pairs ts j i := by
  cases t with
  | blank => exact Or.inl rfl
  | command c => exact Or.inr (Or.inl ⟨c, rfl⟩)
  | unfit reason => exact absurd (.unfit hat) (h reason)
  | opening =>
    by_contra hn
    exact h _ (.unclosed ⟨hat, fun j hj => hn (Or.inr (Or.inr ⟨j, Or.inl hj⟩))⟩)
  | closing count =>
    by_contra hn
    exact h _ (.stray ⟨⟨count, hat⟩, fun j hj => hn (Or.inr (Or.inr ⟨j, Or.inr hj⟩))⟩)

/-- A line of the form of a closing closes a loop if its count can be read, and is no line of a
script otherwise. -/
theorem ofLine_of_closingDigits? (v : Vocabulary) {raw digits : List Char}
    (h : Line.closingDigits? (Line.dropLabel (Text.trim raw)) = some digits) :
    ofLine v raw = (readCount? digits).elim (.unfit .unknownCommand) .closing := by
  have hne : Text.trim raw ≠ [] := by
    intro hnil
    rw [hnil] at h
    cases h
  have hopen : Line.isLoopOpen (Line.dropLabel (Text.trim raw)) = false := by
    obtain ⟨cs, hcs⟩ : ∃ cs, Line.dropLabel (Text.trim raw) = '\x7d' :: cs := by
      unfold Line.closingDigits? at h
      split at h
      · next cs hcs => exact ⟨cs, hcs⟩
      · cases h
    rw [hcs]
    rfl
  rw [ofLine, Line.ofText, if_neg hne, Line.ofBody, hopen, if_neg Bool.false_ne_true, h]
  dsimp only
  cases readCount? digits <;> rfl

end Token

namespace Reading

/-! ## Open loops -/

/-- Behind the tokens, the reading is in a block of these commands, inside of the open loops.
Commands are in the order of a reading, the last one first. -/
inductive Nest : List Token → List Command → List OpenLoop → Prop
  | top {ts : List Token} {cs : List Command} : Forms true ts cs.reverse → Nest ts cs []
  | inside {ts body : List Token} {before cs : List Command} {loops : List OpenLoop}
    (raw : List Char) : Nest ts before loops → Forms false body cs.reverse →
    Nest (ts ++ .opening :: body) cs (⟨ts.length, raw, before⟩ :: loops)

namespace Nest

variable {ts : List Token} {cs : List Command} {loops : List OpenLoop} {l : OpenLoop}

theorem forms_of_nil (h : Nest ts cs []) : Forms true ts cs.reverse := by
  cases h with
  | top h => exact h

/-- What has been read splits at the innermost open loop, whose body stands behind the opening. -/
theorem split_of_cons (h : Nest ts cs (l :: loops)) : ∃ front body,
    ts = front ++ .opening :: body ∧ front.length = l.index ∧ Nest front l.before loops ∧
      Forms false body cs.reverse := by
  cases h with
  | inside raw h hbody => exact ⟨_, _, rfl, rfl, h, hbody⟩

/-- The block goes on. -/
theorem append (h : Nest ts cs loops) (us : List Token) (ds : List Command)
    (hus : ∀ top, Forms top us ds.reverse) : Nest (ts ++ us) (ds ++ cs) loops := by
  cases h with
  | top h => exact .top (by rw [List.reverse_append]; exact h.append (hus true))
  | inside raw h hbody =>
    rw [List.append_assoc, List.cons_append]
    exact .inside raw h (by rw [List.reverse_append]; exact hbody.append (hus false))

theorem index_lt (h : Nest ts cs loops) : ∀ l ∈ loops, l.index < ts.length := by
  induction h with
  | top => exact List.forall_mem_nil _
  | inside raw _ _ ih =>
    refine List.forall_mem_cons.mpr ⟨by simp, fun l hl => ?_⟩
    rw [List.length_append]
    exact Nat.lt_add_right _ (ih l hl)

/-- The open loops are those that are not closed. -/
theorem unclosed_iff (h : Nest ts cs loops) (i : Nat) :
    Unclosed ts i ↔ ∃ l ∈ loops, l.index = i := by
  induction h with
  | top h => simp [h.not_unclosed]
  | @inside ts body before cs loops raw h hbody ih =>
    have hbalanced : Balanced body := ⟨_, hbody⟩
    rw [List.exists_mem_cons_iff]
    obtain hi | rfl | hi := Nat.lt_trichotomy i ts.length
    · rw [unclosed_append_opening hbalanced hi, ih]
      exact ⟨Or.inr, fun hl => hl.resolve_left (Nat.ne_of_gt hi)⟩
    · exact ⟨fun _ => Or.inl rfl, fun _ => unclosed_opening ts hbalanced⟩
    · refine ⟨fun hu => absurd (le_of_unclosed hbalanced hu) (Nat.not_le.mpr hi), ?_⟩
      rintro (rfl | ⟨l, hl, rfl⟩)
      · exact absurd hi (Nat.lt_irrefl _)
      · exact absurd (h.index_lt l hl) (Nat.not_lt.mpr (Nat.le_of_lt hi))

/-- The open loops are kept in order, the innermost first. -/
theorem pairwise (h : Nest ts cs loops) : loops.Pairwise fun l l' => l'.index < l.index := by
  induction h with
  | top => exact .nil
  | inside raw h _ ih => exact .cons h.index_lt ih

end Nest

/-! ## The end of a text -/

/-- What is left at the end is the block in front of the first loop that is not closed. -/
theorem Nest.script_giveUpLoops {ts : List Token} {cs : List Command} {loops : List OpenLoop}
    (h : Nest ts cs loops) (skipped : List Omission) : ∃ p, FirstUnclosed ts p ∧
      Forms true (ts.take p) (giveUpLoops loops cs skipped).script.commands := by
  induction h generalizing skipped with
  | @top ts cs h =>
    refine ⟨ts.length, ⟨Nat.le_refl _, fun hp => absurd hp (Nat.lt_irrefl _), fun i hi => ?_⟩, ?_⟩
    · exact absurd hi (h.not_unclosed i)
    · rw [List.take_length]
      exact h
  | @inside ts body before cs loops raw h hbody ih =>
    have hbalanced : Balanced body := ⟨_, hbody⟩
    obtain ⟨p, ⟨hle, hunclosed, hfirst⟩, hforms⟩ :=
      ih (.ofLine ts.length .unterminatedLoop raw :: skipped)
    refine ⟨p, ⟨?_, fun _ => ?_, fun i hi => ?_⟩, ?_⟩
    · rw [List.length_append]
      exact Nat.le_add_right_of_le hle
    · obtain hp | rfl := Nat.lt_or_eq_of_le hle
      · exact (unclosed_append_opening hbalanced hp).mpr (hunclosed hp)
      · exact unclosed_opening ts hbalanced
    · obtain hi' | hi' := Nat.lt_or_ge i ts.length
      · exact hfirst i ((unclosed_append_opening hbalanced hi').mp hi)
      · exact Nat.le_trans hle hi'
    · rw [List.take_append_of_le_length hle]
      exact hforms

/-! ## Line after line -/

/-- The line of that index is left out for the reason as soon as it is read. -/
def Skips (ts : List Token) (i : Nat) (reason : OmissionReason) : Prop :=
  Fault ts i reason ∧ ts[i]? ≠ some .opening

/-- The reading has come to the end of the lines, and keeps account of them : of the faults, the
last one first. -/
structure Accounts (v : Vocabulary) (lines : List (List Char))
    (faults : List (Nat × OmissionReason)) (r : Reading) : Prop where
  nest : Nest (lines.map (.ofLine v)) r.commands r.loops
  raw : ∀ l ∈ r.loops, lines[l.index]? = some l.raw
  omissions : r.omissions = faults.map (.ofFault lines)
  mem_iff : ∀ i reason, (i, reason) ∈ faults ↔ Skips (lines.map (.ofLine v)) i reason
  once : faults.Pairwise fun f f' => f'.1 < f.1

variable {ts us : List Token} {t : Token} {i : Nat} {reason : OmissionReason}

/-- What a line that opens no loop is left out for does not depend on the lines behind it. -/
theorem fault_append (hi : i < ts.length) (ho : ts[i]? ≠ some .opening) :
    Fault (ts ++ us) i reason ↔ Fault ts i reason := by
  have hat : (ts ++ us)[i]? = ts[i]? := List.getElem?_append_left hi
  have hpairs : ∀ j, Pairs (ts ++ us) j i ↔ Pairs ts j i := fun j =>
    ⟨fun h => h.of_append hi, fun h => h.append us⟩
  constructor
  · rintro (h | ⟨h, hn⟩ | h)
    · exact .unfit (hat ▸ h)
    · exact .stray ⟨hat ▸ h, fun j hp => hn j ((hpairs j).mpr hp)⟩
    · exact absurd (hat ▸ h.1) ho
  · rintro (h | ⟨h, hn⟩ | h)
    · exact .unfit (hat ▸ h)
    · exact .stray ⟨hat ▸ h, fun j hp => hn j ((hpairs j).mp hp)⟩
    · exact absurd h.1 ho

/-- The last line is left out because it is unfit, or because it closes nothing, if it opens no
loop. -/
theorem fault_concat (h : Fault (ts ++ [t]) ts.length reason) (ho : t ≠ .opening) :
    t = .unfit reason ∨ (∃ count, t = .closing count) ∧ reason = .unmatchedLoopClose ∧
      ∀ i, ¬Pairs (ts ++ [t]) i ts.length := by
  obtain h | ⟨⟨count, h⟩, hn⟩ | ⟨h, -⟩ := h
  · rw [List.getElem?_concat_length] at h
    exact Or.inl (Option.some.inj h)
  · rw [List.getElem?_concat_length] at h
    exact Or.inr ⟨⟨count, Option.some.inj h⟩, rfl, hn⟩
  · rw [List.getElem?_concat_length] at h
    exact absurd (Option.some.inj h) ho

/-- One more line leaves what those in front of it are left out for as it is. -/
theorem skips_concat : Skips (ts ++ [t]) i reason ↔
    Skips ts i reason ∨ i = ts.length ∧ Fault (ts ++ [t]) i reason ∧ t ≠ .opening := by
  obtain hi | rfl | hi := Nat.lt_trichotomy i ts.length
  · have hat : (ts ++ [t])[i]? = ts[i]? := List.getElem?_append_left hi
    have hne : i ≠ ts.length := Nat.ne_of_lt hi
    simp only [Skips, hat, hne, false_and, or_false]
    exact and_congr_left fun ho => fault_append hi ho
  · have hnone : ¬Skips ts ts.length reason := fun h => Nat.lt_irrefl _ h.1.lt_length
    rw [or_iff_right hnone, Skips, List.getElem?_concat_length, ne_eq, Option.some.injEq]
    exact (and_iff_right rfl).symm
  · have hnone : ¬Skips ts i reason := fun h => Nat.lt_asymm hi h.1.lt_length
    have hnone' : ¬Skips (ts ++ [t]) i reason := fun h => by
      have hlt := h.1.lt_length
      rw [List.length_append, List.length_singleton] at hlt
      omega
    simp only [hnone, hnone', Nat.ne_of_gt hi, false_and, or_false]

namespace Accounts

variable {v : Vocabulary} {lines : List (List Char)} {raw : List Char}
  {faults : List (Nat × OmissionReason)} {r : Reading}

/-- In front of the first line there is nothing to report. -/
theorem start (v : Vocabulary) : Accounts v [] [] Reading.start where
  nest := .top .nil
  raw := List.forall_mem_nil _
  omissions := rfl
  mem_iff i _ :=
    ⟨fun h => absurd h List.not_mem_nil, fun h => absurd h.1.lt_length (Nat.not_lt_zero i)⟩
  once := .nil

theorem lt_length (h : Accounts v lines faults r) : ∀ f ∈ faults, f.1 < lines.length := by
  intro f hf
  have hlt := ((h.mem_iff f.1 f.2).mp hf).1.lt_length
  rwa [List.length_map] at hlt

/-- The reports on the lines that were read do not change. -/
theorem omissions_append (h : Accounts v lines faults r) (rest : List (List Char)) :
    r.omissions = faults.map (.ofFault (lines ++ rest)) := by
  rw [h.omissions]
  exact List.map_congr_left fun f hf => (Omission.ofFault_append (h.lt_length f hf) rest).symm

/-- A line that has no fault leaves the reports as they are. -/
theorem keep (h : Accounts v lines faults r) {cs : List Command} {loops : List OpenLoop}
    (hnest : Nest (lines.map (.ofLine v) ++ [.ofLine v raw]) cs loops)
    (hraw : ∀ l ∈ loops, (lines ++ [raw])[l.index]? = some l.raw)
    (hfault : ∀ reason, Token.ofLine v raw ≠ .opening →
      ¬Fault (lines.map (.ofLine v) ++ [.ofLine v raw]) (lines.map (Token.ofLine v)).length
        reason) :
    Accounts v (lines ++ [raw]) faults ⟨cs, loops, r.omissions⟩ where
  nest := by
    rw [List.map_append, List.map_singleton]
    exact hnest
  raw := hraw
  omissions := h.omissions_append [raw]
  mem_iff i reason := by
    rw [List.map_append, List.map_singleton, skips_concat, h.mem_iff]
    refine ⟨Or.inl, fun ho => ho.resolve_right ?_⟩
    rintro ⟨rfl, hf, ho⟩
    exact hfault reason ho hf
  once := h.once

/-- A line is left out for the reason that it has. -/
theorem skip (h : Accounts v lines faults r) {reason : OmissionReason}
    (hnest : Nest (lines.map (.ofLine v) ++ [.ofLine v raw]) r.commands r.loops)
    (hraw : ∀ l ∈ r.loops, (lines ++ [raw])[l.index]? = some l.raw)
    (hopen : Token.ofLine v raw ≠ .opening)
    (hfault : ∀ reason', Fault (lines.map (.ofLine v) ++ [.ofLine v raw])
      (lines.map (Token.ofLine v)).length reason' ↔ reason' = reason) :
    Accounts v (lines ++ [raw]) ((lines.length, reason) :: faults)
      (r.skip lines.length reason raw) where
  nest := by
    rw [List.map_append, List.map_singleton]
    exact hnest
  raw := hraw
  omissions := by
    have hreport : Omission.ofFault (lines ++ [raw]) (lines.length, reason) =
        .ofLine lines.length reason raw :=
      Omission.ofFault_of_getElem? List.getElem?_concat_length _
    rw [List.map_cons, hreport, ← h.omissions_append]
    rfl
  mem_iff i reason' := by
    have hlength : (lines.map (Token.ofLine v)).length = lines.length := List.length_map _
    rw [List.map_append, List.map_singleton, skips_concat, ← h.mem_iff, List.mem_cons, or_comm,
      Prod.mk.injEq]
    refine or_congr_right ⟨?_, ?_⟩
    · rintro ⟨rfl, rfl⟩
      exact ⟨hlength.symm, hlength ▸ (hfault reason').mpr rfl, hopen⟩
    · rintro ⟨rfl, hf, -⟩
      exact ⟨hlength, (hfault reason').mp hf⟩
  once := .cons h.lt_length h.once

/-- The loops that were open are still opened by their lines. -/
theorem raw_concat (h : Accounts v lines faults r) (raw : List Char) :
    ∀ l ∈ r.loops, (lines ++ [raw])[l.index]? = some l.raw := by
  intro l hl
  have hi : l.index < lines.length := by
    rw [← List.length_map (f := Token.ofLine v)]
    exact h.nest.index_lt l hl
  rw [List.getElem?_append_left hi]
  exact h.raw l hl

/-- A line that gives commands of its own, or nothing, leaves the reports as they are. -/
theorem keep_plain (h : Accounts v lines faults r) (ds : List Command)
    (hforms : ∀ top, Forms top [.ofLine v raw] ds.reverse)
    (hfit : ∀ reason, Token.ofLine v raw ≠ .unfit reason)
    (hcloses : ∀ count, Token.ofLine v raw ≠ .closing count) :
    Accounts v (lines ++ [raw]) faults ⟨ds ++ r.commands, r.loops, r.omissions⟩ := by
  refine h.keep (h.nest.append _ _ hforms) (h.raw_concat raw) fun reason ho hf => ?_
  obtain hf | ⟨⟨count, hf⟩, -⟩ := fault_concat hf ho
  · exact hfit reason hf
  · exact hcloses count hf

/-- A line that gives nothing that can be kept is reported at once, for what is wrong with it. -/
theorem skip_unfit (h : Accounts v lines faults r) {reason : OmissionReason}
    (ht : Token.ofLine v raw = .unfit reason) :
    Accounts v (lines ++ [raw]) ((lines.length, reason) :: faults)
      (r.skip lines.length reason raw) := by
  have hnest := h.nest.append [.unfit reason] [] fun _ => .unfit reason .nil
  refine h.skip (ht ▸ hnest) (h.raw_concat raw) (ht ▸ nofun) fun reason' => ⟨fun hf => ?_, ?_⟩
  · rw [ht] at hf
    obtain hf | ⟨⟨count, hf⟩, -⟩ := fault_concat hf nofun
    · exact (Token.unfit.inj hf).symm
    · cases hf
  · rintro rfl
    refine .unfit ?_
    rw [ht, List.getElem?_concat_length]

/-- If no loop is open, a line that closes one is stray. -/
theorem skip_stray (h : Accounts v lines faults r) {count : UInt32}
    (ht : Token.ofLine v raw = .closing count)
    (hloops : r.loops = []) :
    Accounts v (lines ++ [raw]) ((lines.length, .unmatchedLoopClose) :: faults)
      (r.skip lines.length .unmatchedLoopClose raw) := by
  have hforms : Forms true (lines.map (.ofLine v)) r.commands.reverse :=
    (hloops ▸ h.nest : Nest _ _ []).forms_of_nil
  have hstray : Forms true (lines.map (.ofLine v) ++ [.closing count]) r.commands.reverse := by
    rw [← List.append_nil r.commands.reverse]
    exact hforms.append (.stray count .nil)
  refine h.skip (hloops ▸ ht ▸ .top hstray) (h.raw_concat raw) (ht ▸ nofun)
    fun reason => ⟨fun hf => ?_, ?_⟩
  · rw [ht] at hf
    obtain hf | ⟨-, rfl, -⟩ := fault_concat hf nofun
    · cases hf
    · rfl
  · rintro rfl
    rw [ht]
    exact .stray ⟨⟨count, List.getElem?_concat_length⟩, hforms.not_pairs _⟩

/-- A line that closes a loop closes the innermost one, which goes to the block that it stands
in. -/
theorem keep_closing (h : Accounts v lines faults r) {count : UInt32}
    (ht : Token.ofLine v raw = .closing count) {l : OpenLoop} {loops : List OpenLoop}
    (hloops : r.loops = l :: loops) : Accounts v (lines ++ [raw]) faults
      ⟨.repeated count r.commands.reverse :: l.before, loops, r.omissions⟩ := by
  have hnest := h.nest
  have hraw := h.raw_concat raw
  rw [hloops] at hnest hraw
  obtain ⟨front, body, hts, -, hbefore, hbody⟩ := hnest.split_of_cons
  have hloop := hbefore.append (.opening :: (body ++ [.closing count]))
    [.repeated count r.commands.reverse] fun _ => .loop count hbody .nil
  refine h.keep ?_ (List.forall_mem_cons.mp hraw).2 fun reason ho hf => ?_
  · rw [ht, hts, List.append_assoc]
    exact hloop
  · rw [ht] at hf
    obtain hf | ⟨-, -, hn⟩ := fault_concat hf nofun
    · cases hf
    · rw [hts] at hn
      exact hn _ (pairs_concat front ⟨_, hbody⟩ count)

/-- A line that opens a loop waits for the line that closes it. -/
theorem keep_opening (h : Accounts v lines faults r) (ht : Token.ofLine v raw = .opening) :
    Accounts v (lines ++ [raw]) faults (r.openLoop lines.length raw) := by
  have hlength : (lines.map (Token.ofLine v)).length = lines.length := List.length_map _
  have hnest : Nest (lines.map (.ofLine v) ++ [.opening]) []
      (⟨lines.length, raw, r.commands⟩ :: r.loops) := hlength ▸ .inside raw h.nest .nil
  exact h.keep (ht ▸ hnest)
    (List.forall_mem_cons.mpr ⟨List.getElem?_concat_length, h.raw_concat raw⟩)
    fun reason ho => absurd ht ho

/-- Account is kept of one more line, which may add a fault. -/
theorem readLine (h : Accounts v lines faults r) (raw : List Char) :
    ∃ faults', Accounts v (lines ++ [raw]) faults' (r.readLine v raw lines.length) := by
  rw [readLine_eq]
  cases ht : Token.ofLine v raw with
  | blank =>
    exact ⟨_, h.keep_plain [] (fun _ => ht ▸ .blank .nil) (ht ▸ nofun) (ht ▸ nofun)⟩
  | command c =>
    exact ⟨_, h.keep_plain [c] (fun _ => ht ▸ .command c .nil) (ht ▸ nofun) (ht ▸ nofun)⟩
  | unfit reason => exact ⟨_, h.skip_unfit ht⟩
  | opening => exact ⟨_, h.keep_opening ht⟩
  | closing count =>
    unfold readToken
    dsimp only
    split
    · next hloops => exact ⟨_, h.skip_stray ht hloops⟩
    · next l loops hloops => exact ⟨_, h.keep_closing ht hloops⟩

/-- Account is kept of all lines. -/
theorem readLines (h : Accounts v lines faults r) (rest : List (List Char)) :
    ∃ faults', Accounts v (lines ++ rest) faults'
      (Reading.readLines v lines.length rest r) := by
  induction rest generalizing lines faults r with
  | nil =>
    rw [List.append_nil]
    exact ⟨faults, h⟩
  | cons raw rest ih =>
    obtain ⟨faults', h'⟩ := h.readLine raw
    have hrest := ih h'
    rw [List.append_assoc, List.length_append] at hrest
    exact hrest

/-- At the end of the lines, the loops that are still open add their faults. -/
theorem exists_faults (h : Accounts v lines faults r) : ∃ faults' : List (Nat × OmissionReason),
    r.finish.omissions = faults'.map (.ofFault lines) ∧ (faults'.map (·.1)).Nodup ∧
      ∀ i reason, (i, reason) ∈ faults' ↔ Fault (lines.map (.ofLine v)) i reason := by
  refine ⟨faults.reverse ++ r.loops.map fun l => (l.index, .unterminatedLoop), ?_, ?_, ?_⟩
  · rw [Reading.finish, omissions_giveUpLoops, List.map_append, List.map_reverse, h.omissions,
      List.map_map]
    exact congrArg _ (List.map_congr_left fun l hl =>
      (Omission.ofFault_of_getElem? (h.raw l hl) _).symm)
  · rw [List.map_append, List.map_reverse, List.map_map]
    refine List.nodup_append.mpr ⟨?_, ?_, ?_⟩
    · rw [List.Nodup, List.pairwise_reverse, List.pairwise_map]
      exact h.once.imp fun hlt => Nat.ne_of_lt hlt
    · rw [List.Nodup, List.pairwise_map]
      exact h.nest.pairwise.imp fun hlt => Nat.ne_of_gt hlt
    · rintro i hi j hj rfl
      obtain ⟨⟨i, reason⟩, hf, rfl⟩ := List.mem_map.mp (List.mem_reverse.mp hi)
      obtain ⟨l, hl, rfl⟩ := List.mem_map.mp hj
      exact ((h.mem_iff _ reason).mp hf).2 ((h.nest.unclosed_iff _).mpr ⟨l, hl, rfl⟩).1
  · intro i reason
    rw [List.mem_append, List.mem_reverse, List.mem_map, h.mem_iff]
    constructor
    · rintro (hf | ⟨l, hl, heq⟩)
      · exact hf.1
      · obtain ⟨rfl, rfl⟩ := Prod.mk.inj heq
        exact .unclosed ((h.nest.unclosed_iff _).mpr ⟨l, hl, rfl⟩)
    · intro hf
      by_cases ho : (lines.map (Token.ofLine v))[i]? = some .opening
      · obtain hf | ⟨⟨count, hf⟩, -⟩ | hf := hf
        · cases ho.symm.trans hf
        · cases ho.symm.trans hf
        · obtain ⟨l, hl, rfl⟩ := (h.nest.unclosed_iff i).mp hf
          exact Or.inr ⟨l, hl, rfl⟩
      · exact Or.inl ⟨hf, ho⟩

end Accounts

end Reading

/-! ## What becomes of each line -/

namespace Script

variable (v : Vocabulary) (lines : List (List Char))

/-- The reports are those on the lines that have a fault, in some order and each one once. -/
theorem exists_faults : ∃ faults : List (Nat × OmissionReason),
    (ofLines v lines).omissions = faults.map (.ofFault lines) ∧ (faults.map (·.1)).Nodup ∧
      ∀ i reason, (i, reason) ∈ faults ↔ Fault (lines.map (.ofLine v)) i reason := by
  obtain ⟨faults, h⟩ := (Reading.Accounts.start v).readLines lines
  exact h.exists_faults

theorem mem_omissions {i : Nat} {raw : List Char} {reason : OmissionReason}
    (h : lines[i]? = some raw) (hf : Fault (lines.map (.ofLine v)) i reason) :
    .ofLine i reason raw ∈ (ofLines v lines).omissions := by
  obtain ⟨faults, homissions, -, hmem⟩ := exists_faults v lines
  rw [homissions, ← Omission.ofFault_of_getElem? h]
  exact List.mem_map_of_mem ((hmem i reason).mpr hf)

/-- If no line is fit for a script, there is a report on each of them. -/
theorem mem_omissions_replicate {n i : Nat} (hi : i < n) {raw : List Char} {reason : OmissionReason}
    (ht : Token.ofLine v raw = .unfit reason) :
    .ofLine i reason raw ∈ (ofLines v (List.replicate n raw)).omissions := by
  have hraw : (List.replicate n raw)[i]? = some raw := by
    rw [List.getElem?_replicate, if_pos hi]
  refine mem_omissions v _ hraw (.unfit ?_)
  rw [List.getElem?_map, hraw, Option.map_some, ht]

/-- The script is the block in front of the first loop that is never closed. -/
theorem exists_firstUnclosed : ∃ p, FirstUnclosed (lines.map (.ofLine v)) p ∧
    Forms true ((lines.map (.ofLine v)).take p) (ofLines v lines).script.commands := by
  obtain ⟨faults, h⟩ := (Reading.Accounts.start v).readLines lines
  exact h.nest.script_giveUpLoops _

/-- The script is the forest that the lines in front of the first unclosed loop form. Each line that
has a fault is reported once, wherever it stands, and nothing else is; the report tells the number
of the line, as long as words go that far. So the lines that are lost without a report stand behind
an unclosed loop, and they are commands or the ends of loops. A line of the form of a closing is one
if its count can be read. -/
theorem accounts_for_lines :
    (∃ p, FirstUnclosed (lines.map (.ofLine v)) p ∧
      (∀ commands, Forms true ((lines.map (.ofLine v)).take p) commands ↔
        commands = (ofLines v lines).script.commands) ∧
      ∃ faults : List (Nat × OmissionReason),
        (ofLines v lines).omissions = faults.map (.ofFault lines) ∧ (faults.map (·.1)).Nodup ∧
        (∀ i reason, (i, reason) ∈ faults ↔ Fault (lines.map (.ofLine v)) i reason) ∧
        (lines.length < UInt32.size →
          (ofLines v lines).omissions.map (·.line.toNat) = faults.map (·.1 + 1)) ∧
        ∀ i raw, lines[i]? = some raw → Token.ofLine v raw ≠ .blank → p ≤ i →
          (∀ f ∈ faults, f.1 ≠ i) → p < i ∧ ((∃ c, Token.ofLine v raw = .command c) ∨
            ∃ j, Pairs (lines.map (.ofLine v)) i j ∨ Pairs (lines.map (.ofLine v)) j i)) ∧
    ∀ raw digits, Line.closingDigits? (Line.dropLabel (Text.trim raw)) = some digits →
      Token.ofLine v raw = (readCount? digits).elim (.unfit .unknownCommand) .closing := by
  obtain ⟨p, hp, hforms⟩ := exists_firstUnclosed v lines
  obtain ⟨faults, homissions, hnodup, hmem⟩ := exists_faults v lines
  refine ⟨⟨p, hp, fun commands => ⟨fun hc => hc.unique hforms, fun hc => hc ▸ hforms⟩, faults,
    homissions, hnodup, hmem, fun hshort => ?_, fun i raw hraw hblank hle hunreported => ?_⟩,
    fun raw digits => ofLine_of_closingDigits? v⟩
  · rw [homissions, List.map_map]
    refine List.map_congr_left fun f hf => Omission.toNat_line_ofLine ?_ _ _
    have hlt := ((hmem f.1 f.2).mp hf).lt_length
    rw [List.length_map] at hlt
    exact Nat.lt_of_le_of_lt hlt hshort
  · have hfair : ∀ reason, ¬Fault (lines.map (.ofLine v)) i reason := fun reason hf =>
      hunreported _ ((hmem i reason).mpr hf) rfl
    have hat : (lines.map (Token.ofLine v))[i]? = some (.ofLine v raw) := by
      rw [List.getElem?_map, hraw, Option.map_some]
    have hpi : p ≠ i := by
      rintro rfl
      exact hfair _ (.unclosed (hp.unclosed (List.getElem?_eq_some_iff.mp hat).1))
    exact ⟨Nat.lt_of_le_of_ne hle hpi, (of_not_fault hat hfair).resolve_left hblank⟩

/-- A line of the form of a closing, with a count that no word can hold. -/
def hugeClosing : List Char := "\x7d 4294967296 Times;".toList

/-- A loop that is never closed, with a line in it that gives no command. -/
def halfLoop : List (List Char) :=
  ["LOOP REPEAT \x7b".toList, "JUMP;".toList, "RESET;".toList, hugeClosing]

/-- Three of the lines are reported, under their numbers, and the last line closes nothing. -/
theorem accounts_for_halfLoop :
    halfLoop.length < UInt32.size ∧
    (∃ faults : List (Nat × OmissionReason),
      (ofLines .standard halfLoop).omissions = faults.map (.ofFault halfLoop) ∧
      faults.map (·.1 + 1) = [2, 4, 1]) ∧
    Line.closingDigits? (Line.dropLabel (Text.trim hugeClosing)) = some "4294967296".toList ∧
    Token.ofLine .standard hugeClosing = .unfit .unknownCommand := by
  have hshort : halfLoop.length < UInt32.size := by decide
  have hdigits : Line.closingDigits? (Line.dropLabel (Text.trim hugeClosing)) =
      some "4294967296".toList := rfl
  obtain ⟨⟨p, -, -, faults, homissions, -, -, hnumbers, -⟩, hclosing⟩ :=
    accounts_for_lines .standard halfLoop
  exact ⟨hshort, ⟨faults, homissions, (hnumbers hshort).symm.trans rfl⟩, hdigits,
    (hclosing _ _ hdigits).trans rfl⟩

/-- A closing whose count no word can hold is no stray closing where no loop is open, and leaves the
loop that it stands in open. In a text of `2 ^ 32` lines the number of the last one is zero. -/
theorem beyond_words :
    Line.closingDigits? (Line.dropLabel (Text.trim hugeClosing)) = some "4294967296".toList ∧
    (ofLines .standard [hugeClosing]).omissions.map (·.reason) = [.unknownCommand] ∧
    (ofLines .standard ["LOOP REPEAT \x7b".toList, hugeClosing]).omissions.map (·.reason) =
      [.unknownCommand, .unterminatedLoop] ∧
    ∃ o ∈ (ofLines .standard (List.replicate UInt32.size "JUMP;".toList)).omissions,
      o.line = 0 := by
  have hunfit : Token.ofLine .standard "JUMP;".toList = .unfit .unknownCommand := rfl
  have hlast : UInt32.size - 1 < UInt32.size := by decide
  exact ⟨rfl, rfl, rfl, _, mem_omissions_replicate .standard hlast hunfit,
    Omission.line_ofLine_of_last _ _⟩

end Script

end Tandem
