import Tandem.Proofs.Text.Lines
import Tandem.Wire
import Mathlib.Data.List.DropRight

/-!
# Commands that survive the wire

Nothing is escaped on the wire, so not every command is understood as it was sent.
`Message.WireSafe` lists what a command must do without : a bar in its name, a comma in an argument,
a line end behind the last argument, the name of a signal, and a single empty argument, which looks
like no argument at all.

Two lemmas make this exact. A safe command is understood as it was sent (`WireSafe.decode?_encode`),
and whatever is understood as a command is safe, whatever the text was (`wireSafe_of_decode?`).
-/

namespace Tandem

namespace Text

theorem pieces_eq_splitOn (sep : Char) : ∀ cs : List Char, pieces sep cs = cs.splitOn sep
  | [] => rfl
  | c :: cs => by
    rw [pieces, List.splitOn, List.splitOnP_cons_eq_if_modifyHead, ← List.splitOn,
      ← pieces_eq_splitOn sep cs]
    obtain ⟨p, ps, hp⟩ := List.exists_cons_of_ne_nil (pieces_ne_nil sep cs)
    simp only [beq_iff_eq, hp, List.modifyHead_cons]

/-- Pieces without the separator are found again between separators. -/
theorem pieces_intercalate {sep : Char} {ps : List (List Char)} (hne : ps ≠ [])
    (h : ∀ p ∈ ps, sep ∉ p) : pieces sep ([sep].intercalate ps) = ps := by
  rw [pieces_eq_splitOn, List.splitOn_intercalate sep h hne]

/-- No piece has the separator in it. -/
theorem not_mem_of_mem_pieces {sep : Char} : ∀ {cs p : List Char}, p ∈ pieces sep cs → sep ∉ p
  | [], p, h => by
    rw [pieces, List.mem_singleton] at h
    rw [h]
    exact List.not_mem_nil
  | c :: cs, p, h => by
    obtain ⟨q, qs, hq⟩ := List.exists_cons_of_ne_nil (pieces_ne_nil sep cs)
    have ih : ∀ r ∈ q :: qs, sep ∉ r := fun r hr => not_mem_of_mem_pieces (hq ▸ hr)
    rw [pieces] at h
    split at h
    · rw [hq] at h
      obtain rfl | hp := List.mem_cons.mp h
      · exact List.not_mem_nil
      · exact ih p hp
    · next hc =>
      rw [hq] at h
      obtain rfl | hp := List.mem_cons.mp h
      · exact List.not_mem_cons_of_ne_of_not_mem (Ne.symm hc) (ih q List.mem_cons_self)
      · exact ih p (List.mem_cons_of_mem q hp)

/-- The last one of the texts that are put together stands at the end, behind separators. -/
theorem intercalate_concat (sep : Char) (p : List Char) : ∀ ps : List (List Char),
    [sep].intercalate (ps ++ [p]) = (ps.flatMap fun q => q ++ [sep]) ++ p
  | [] => by simp [List.intercalate]
  | q :: ps => by
    obtain ⟨r, rs, hr⟩ := List.exists_cons_of_ne_nil (List.append_ne_nil_of_right_ne_nil ps
      (List.cons_ne_nil p []))
    rw [List.cons_append, hr, List.intercalate_cons_cons, ← hr, intercalate_concat sep p ps,
      List.flatMap_cons, List.append_assoc, List.append_assoc, List.append_assoc]

end Text

namespace Message

open Text

/-! ## Line ends -/

/-- A character that ends a line. -/
def isLineEnd (c : Char) : Bool := c = '\r' || c = '\n'

/-- The text does not end with a line end. -/
def KeepsEnd (cs : List Char) : Prop := ∀ c ∈ cs.getLast?, isLineEnd c = false

theorem dropLineEnds_eq (cs : List Char) : dropLineEnds cs = cs.rdropWhile isLineEnd := rfl

/-- A text that keeps its end loses nothing. -/
theorem dropLineEnds_eq_self {cs : List Char} (h : KeepsEnd cs) : dropLineEnds cs = cs := by
  rw [dropLineEnds_eq, List.rdropWhile_eq_self_iff]
  intro hne
  exact Bool.eq_false_iff.mp (h _ (List.getLast?_eq_some_getLast hne))

/-- What is left keeps its end. -/
theorem keepsEnd_dropLineEnds (cs : List Char) : KeepsEnd (dropLineEnds cs) := by
  intro c hc
  obtain ⟨hne, rfl⟩ := List.mem_getLast?_eq_getLast hc
  exact Bool.eq_false_iff.mpr (List.rdropWhile_last_not isLineEnd cs hne)

theorem KeepsEnd.of_suffix {cs ds : List Char} (h : KeepsEnd cs) (hs : ds <:+ cs) :
    KeepsEnd ds := by
  obtain ⟨front, rfl⟩ := hs
  intro c hc
  exact h c (by rw [List.getLast?_append, hc]; rfl)

theorem KeepsEnd.append {cs ds : List Char} (h : KeepsEnd cs) (h' : KeepsEnd ds) :
    KeepsEnd (cs ++ ds) := by
  intro c hc
  rw [List.getLast?_append, Option.mem_def, Option.or_eq_some_iff] at hc
  obtain hc | ⟨-, hc⟩ := hc
  · exact h' c hc
  · exact h c hc

theorem keepsEnd_concat {cs : List Char} {c : Char} (hc : isLineEnd c = false) :
    KeepsEnd (cs ++ [c]) := by
  intro d hd
  rw [List.getLast?_concat] at hd
  exact Option.some.inj hd ▸ hc

theorem keepsEnd_separated {front : List Char} (hf : KeepsEnd front) (ps : List (List Char)) :
    KeepsEnd (front ++ ps.flatMap fun p => p ++ [',']) := by
  obtain rfl | ⟨ps, p, rfl⟩ := List.eq_nil_or_concat ps
  · simpa using hf
  · rw [List.concat_eq_append, List.flatMap_append, List.flatMap_singleton, ← List.append_assoc,
      ← List.append_assoc]
    exact keepsEnd_concat rfl

/-- Nothing but the last one of the texts that are put together with commas can end with a line
end. -/
theorem keepsEnd_intercalate_iff {front : List Char} (hf : KeepsEnd front)
    (ps : List (List Char)) :
    KeepsEnd (front ++ [','].intercalate ps) ↔ ∀ p ∈ ps.getLast?, KeepsEnd p := by
  obtain rfl | ⟨ps, p, rfl⟩ := List.eq_nil_or_concat ps
  · simpa [List.intercalate] using hf
  · rw [List.concat_eq_append, intercalate_concat, List.getLast?_concat, ← List.append_assoc]
    refine ⟨fun h q hq => ?_, fun h => (keepsEnd_separated hf ps).append (h p rfl)⟩
    obtain rfl := Option.some.inj hq
    exact h.of_suffix (List.suffix_append _ _)

/-! ## Arguments -/

/-- Arguments without commas are read back, unless there is a single blank one. -/
theorem argsOfText_intercalate {args : List String} (hcomma : ∀ arg ∈ args, ',' ∉ arg.toList)
    (hblank : args ≠ [""]) : argsOfText ([','].intercalate (args.map String.toList)) = args := by
  by_cases hne : args = []
  · rw [hne]
    rfl
  have hcut : pieces ',' ([','].intercalate (args.map String.toList)) = args.map String.toList := by
    refine pieces_intercalate (by simpa using hne) fun p hp => ?_
    obtain ⟨arg, harg, rfl⟩ := List.mem_map.mp hp
    exact hcomma arg harg
  have htext : [','].intercalate (args.map String.toList) ≠ [] := fun htext => by
    rw [htext, pieces, eq_comm, List.map_eq_singleton_iff] at hcut
    obtain ⟨arg, rfl, harg⟩ := hcut
    exact hblank (by rw [String.toList_eq_nil_iff.mp harg])
  rw [argsOfText, if_neg htext, hcut, List.map_map, List.map_congr_left (g := id), List.map_id]
  exact fun arg _ => String.ofList_toList

/-- The arguments that a text holds are put together to that text again. -/
theorem intercalate_argsOfText (cs : List Char) :
    [','].intercalate ((argsOfText cs).map String.toList) = cs := by
  unfold argsOfText
  split
  · next h => rw [h]; rfl
  · rw [List.map_map, List.map_congr_left (g := id), List.map_id, intercalate_pieces]
    exact fun p _ => String.toList_ofList

theorem comma_not_mem_of_mem_argsOfText {cs : List Char} :
    ∀ arg ∈ argsOfText cs, ',' ∉ arg.toList := by
  intro arg harg
  unfold argsOfText at harg
  split at harg
  · cases harg
  · obtain ⟨p, hp, rfl⟩ := List.mem_map.mp harg
    rw [String.toList_ofList]
    exact not_mem_of_mem_pieces hp

/-- A single blank argument is never read. -/
theorem argsOfText_ne_blank (cs : List Char) : argsOfText cs ≠ [""] := by
  intro h
  have hcs := intercalate_argsOfText cs
  rw [h] at hcs
  -- A single empty argument would have come from the empty text, which holds none.
  obtain rfl : [] = cs := hcs
  cases h

/-! ## Safe commands -/

/-- What a command must be like to be understood as it was sent. -/
structure WireSafe (name : String) (args : List String) : Prop where
  named : name ≠ ""
  noBar : '|' ∉ name.toList
  noSignal : name ∉ signalNames
  noComma : ∀ arg ∈ args, ',' ∉ arg.toList
  notBlank : args ≠ [""]
  noLineEnd : ∀ arg ∈ args.getLast?, KeepsEnd arg.toList

/-- A message is a command if its name is neither empty nor a signal. -/
theorem ofParts?_eq_command_iff {name name' : String} {args : List String} {rest : List Char} :
    ofParts? name rest = some (.command name' args) ↔
      (name ≠ "" ∧ name ∉ signalNames) ∧ name = name' ∧ argsOfText rest = args := by
  unfold ofParts?
  split_ifs <;> simp_all [signalNames]

/-- A command is sent as its name, a bar, and its arguments between commas. -/
theorem toList_encode_command (name : String) (args : List String) :
    (encode (.command name args)).toList =
      name.toList ++ '|' :: [','].intercalate (args.map String.toList) := by
  rw [encode, String.toList_append, String.toList_append, String.toList_intercalate,
    List.append_assoc]
  rfl

/-- A command keeps its end on the way if its last argument does. -/
theorem keepsEnd_encode {name : String} {args : List String}
    (h : ∀ arg ∈ args.getLast?, KeepsEnd arg.toList) :
    KeepsEnd (encode (.command name args)).toList := by
  have hbar : KeepsEnd (name.toList ++ ['|']) := keepsEnd_concat rfl
  rw [toList_encode_command, List.append_cons, keepsEnd_intercalate_iff hbar, List.getLast?_map]
  rintro p hp
  obtain ⟨arg, harg, rfl⟩ := Option.map_eq_some_iff.mp hp
  exact h arg harg

/-- A safe command is understood as it was sent. -/
theorem WireSafe.decode?_encode {name : String} {args : List String} (h : WireSafe name args) :
    decode? (encode (.command name args)) = some (.command name args) := by
  have hname : ∀ c ∈ name.toList, decide (c ≠ '|') = true := fun c hc =>
    decide_eq_true fun hbar => h.noBar (hbar ▸ hc)
  have hstop : ('|' :: [','].intercalate (args.map String.toList)).head?.any
      (fun c => decide (c ≠ '|')) = false := rfl
  rw [decode?, dropLineEnds_eq_self (keepsEnd_encode h.noLineEnd), toList_encode_command,
    takeWhile_front hname hstop, dropWhile_front hname hstop, String.ofList_toList, List.drop_one,
    List.tail_cons, ofParts?_eq_command_iff]
  exact ⟨⟨h.named, h.noSignal⟩, rfl, argsOfText_intercalate h.noComma h.notBlank⟩

/-- What is understood as a command is a safe command, whatever the text was. -/
theorem wireSafe_of_decode? {wire name : String} {args : List String}
    (h : decode? wire = some (.command name args)) : WireSafe name args := by
  rw [decode?, ofParts?_eq_command_iff] at h
  obtain ⟨⟨hnamed, hsignal⟩, rfl, rfl⟩ := h
  refine ⟨hnamed, fun hbar => ?_, hsignal, comma_not_mem_of_mem_argsOfText, argsOfText_ne_blank _,
    fun arg harg => ?_⟩
  · rw [String.toList_ofList] at hbar
    exact Bool.false_ne_true (List.mem_takeWhile_imp hbar)
  · -- The last argument stands at the end of the text, which has lost its line ends.
    have hrest : KeepsEnd (((dropLineEnds wire.toList).dropWhile (· ≠ '|')).drop 1) :=
      (keepsEnd_dropLineEnds wire.toList).of_suffix
        ((List.drop_suffix _ _).trans (List.dropWhile_suffix _))
    have hnil : KeepsEnd [] := nofun
    rw [← intercalate_argsOfText (List.drop _ _), ← List.nil_append (List.intercalate _ _),
      keepsEnd_intercalate_iff hnil] at hrest
    exact hrest arg.toList (by rw [List.getLast?_map, harg]; rfl)

end Message

end Tandem
