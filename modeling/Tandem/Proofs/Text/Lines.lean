import Tandem.Text.Blank
import Tandem.Text.Lines
import Mathlib.Data.List.Basic

/-!
# Texts made of lines

A text that is made of lines, each followed by a line feed, is cut into these lines again, as long
as none of them holds a line feed or ends with a carriage return (`lines_unlines`). Cutting at a
character is undone by nothing but that character (`pieces_append_cons`).

A `Tight` text neither starts nor ends with a blank, so `trim` drops just the blanks in front of it
(`Tight.trim_append`).
-/

namespace Tandem.Text

/-! ## Pieces and lines -/

/-- Without a separator there is one piece. -/
theorem pieces_of_not_mem {sep : Char} : ∀ {cs : List Char}, sep ∉ cs → pieces sep cs = [cs]
  | [], _ => rfl
  | c :: cs, h => by
    have hc : c ≠ sep := fun e => h (e ▸ List.mem_cons_self)
    have hcs : sep ∉ cs := fun hm => h (List.mem_cons_of_mem c hm)
    rw [pieces, if_neg hc, pieces_of_not_mem hcs]

/-- A text is cut at its first separator. -/
theorem pieces_append_cons {sep : Char} (rest : List Char) : ∀ {cs : List Char}, sep ∉ cs →
    pieces sep (cs ++ sep :: rest) = cs :: pieces sep rest
  | [], _ => by rw [List.nil_append, pieces, if_pos rfl]
  | c :: cs, h => by
    have hc : c ≠ sep := fun e => h (e ▸ List.mem_cons_self)
    have hcs : sep ∉ cs := fun hm => h (List.mem_cons_of_mem c hm)
    rw [List.cons_append, pieces, if_neg hc, pieces_append_cons rest hcs]

/-- The text that is made of the lines, each followed by a line feed. -/
def unlines (ls : List (List Char)) : List Char :=
  ls.flatMap fun l => l ++ ['\n']

@[simp] theorem unlines_nil : unlines [] = [] := rfl

@[simp] theorem unlines_cons (l : List Char) (ls : List (List Char)) :
    unlines (l :: ls) = l ++ '\n' :: unlines ls := by
  simp [unlines]

/-- Lines are written one part after the other. -/
@[simp] theorem unlines_append (ls ls' : List (List Char)) :
    unlines (ls ++ ls') = unlines ls ++ unlines ls' :=
  List.flatMap_append

/-- The text can be a line: it holds no line feed, and does not end with a carriage return. -/
def IsLine (l : List Char) : Prop :=
  '\n' ∉ l ∧ l.getLast? ≠ some '\r'

theorem linesOfPieces_cons (p : List Char) {ps : List (List Char)} (h : ps ≠ []) :
    linesOfPieces (p :: ps) = dropReturn p :: linesOfPieces ps := by
  cases ps with
  | nil => exact absurd rfl h
  | cons q ps => rw [linesOfPieces]

/-- A text made of lines is cut into these lines again. -/
theorem lines_unlines {ls : List (List Char)} (h : ∀ l ∈ ls, IsLine l) :
    lines (unlines ls) = ls := by
  induction ls with
  | nil => rfl
  | cons l ls ih =>
    have hl := h l List.mem_cons_self
    have hls := ih fun l' hl' => h l' (List.mem_cons_of_mem l hl')
    rw [lines, unlines_cons, pieces_append_cons _ hl.1, linesOfPieces_cons _ (pieces_ne_nil _ _),
      dropReturn, if_neg hl.2]
    exact congrArg (l :: ·) hls

/-! ## The front of a text -/

section Front

variable {p : Char → Bool} {front rest : List Char}

theorem takeWhile_front (h : ∀ c ∈ front, p c = true) (hr : rest.head?.any p = false) :
    (front ++ rest).takeWhile p = front := by
  rw [List.takeWhile_append_of_pos h]
  cases rest with
  | nil => simp
  | cons a rest =>
    have ha : ¬p a = true := Bool.eq_false_iff.mp hr
    rw [List.takeWhile_cons_of_neg ha, List.append_nil]

theorem dropWhile_front (h : ∀ c ∈ front, p c = true) (hr : rest.head?.any p = false) :
    (front ++ rest).dropWhile p = rest := by
  rw [List.dropWhile_append_of_pos h]
  cases rest with
  | nil => rfl
  | cons a rest => exact List.dropWhile_cons_of_neg (Bool.eq_false_iff.mp hr)

end Front

/-! ## Blanks around a text -/

/-- Blanks in front are trimmed away. -/
theorem trimStart_append {blanks : List Char} (h : ∀ c ∈ blanks, isBlank c = true)
    (cs : List Char) :
    trimStart (blanks ++ cs) = trimStart cs :=
  List.dropWhile_append_of_pos h

theorem trimEnd_of_getLast? {cs : List Char} {z : Char} (hz : cs.getLast? = some z)
    (h : isBlank z = false) : trimEnd cs = cs := by
  obtain ⟨init, rfl⟩ := List.getLast?_eq_some_iff.mp hz
  simp [trimEnd, h]

theorem trimStart_of_head? {cs : List Char} {a : Char} (ha : cs.head? = some a)
    (h : isBlank a = false) : trimStart cs = cs := by
  obtain ⟨rest, rfl⟩ := List.head?_eq_some_iff.mp ha
  exact trimStart_of_not_isBlank rest h

/-- The text neither starts nor ends with a blank, and is not empty. -/
structure Tight (cs : List Char) : Prop where
  head : ∃ a, cs.head? = some a ∧ isBlank a = false
  last : ∃ z, cs.getLast? = some z ∧ isBlank z = false

namespace Tight

variable {cs : List Char}

theorem ne_nil (h : Tight cs) : cs ≠ [] := by
  rintro rfl
  obtain ⟨a, ha, -⟩ := h.head
  cases ha

theorem trimStart (h : Tight cs) : trimStart cs = cs := by
  obtain ⟨a, ha, hb⟩ := h.head
  exact trimStart_of_head? ha hb

/-- Blanks in front of a tight text are trimmed away. -/
theorem trim_append {blanks : List Char} (h : Tight cs) (hb : ∀ c ∈ blanks, isBlank c = true) :
    trim (blanks ++ cs) = cs := by
  obtain ⟨z, hz, hb'⟩ := h.last
  rw [trim, trimStart_append hb, h.trimStart, trimEnd_of_getLast? hz hb']

/-- A tight text has nothing to be trimmed. -/
theorem trim (h : Tight cs) : Text.trim cs = cs := by
  have hb : ∀ c ∈ ([] : List Char), isBlank c = true := nofun
  exact h.trim_append hb

/-- A text without blanks. -/
theorem of_all (hne : cs ≠ []) (h : ∀ c ∈ cs, isBlank c = false) : Tight cs where
  head := ⟨cs.head hne, List.head?_eq_some_head hne, h _ (List.head_mem hne)⟩
  last := ⟨cs.getLast hne, List.getLast?_eq_some_getLast hne, h _ (List.getLast_mem hne)⟩

/-- A text goes on being tight in front of a tight one, if it starts with no blank. -/
theorem append {a : Char} {front : List Char} (ha : front.head? = some a) (hb : isBlank a = false)
    (h : Tight cs) : Tight (front ++ cs) where
  head := ⟨a, by rw [List.head?_append, ha]; rfl, hb⟩
  last := by
    obtain ⟨z, hz, hbz⟩ := h.last
    exact ⟨z, by rw [List.getLast?_append, hz]; rfl, hbz⟩

/-- A tight text without line feeds can be a line, whatever stands in front of it. -/
theorem isLine {front : List Char} (h : Tight cs) (hf : '\n' ∉ front) (hn : '\n' ∉ cs) :
    IsLine (front ++ cs) := by
  obtain ⟨z, hz, hb⟩ := h.last
  refine ⟨by simp [hf, hn], ?_⟩
  rw [List.getLast?_append, hz, Option.some_or]
  rintro ⟨⟩
  cases hb

end Tight

end Tandem.Text
