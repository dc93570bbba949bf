import Tandem.Proofs.Text.Lines
import Tandem.Script.Reading
import Tandem.Script.Writing

/-!
# Lines that are written are read

The lines of a written script are of three kinds : a leaf, the line that opens a loop and the line
that closes it. Each is read as what it was written for (`ofBody_leaf`, `ofBody_loopOpen`,
`ofBody_loopClose`), with or without a semicolon behind it. What is written in front of a line, its
indentation or its label, makes no difference to it (`Line.Heading`).

A leaf must have a name and arguments that a line can give : a name of letters, digits and
underscores, and arguments that the vocabulary takes (`Vocabulary.Speaks`). These are made of
characters that mean nothing else in a line (`Line.isWordChar`).
-/

namespace Tandem

open Text

namespace Line

/-! ## Words -/

/-- A character of a command name or of an argument. -/
def isWordChar (c : Char) : Bool :=
  isNameChar c || c = '.'

/-- The text has the form of a command name. -/
def isName : List Char → Bool
  | [] => false
  | c :: cs => isNameStart c && cs.all isNameChar

theorem isNameChar_of_isNameStart {c : Char} (h : isNameStart c = true) : isNameChar c = true := by
  simp only [isNameStart, isNameChar, Char.isAlphanum, Bool.or_eq_true] at h ⊢
  tauto

theorem isWordChar_of_isNameChar {c : Char} (h : isNameChar c = true) : isWordChar c = true := by
  rw [isWordChar, h, Bool.true_or]

theorem isWordChar_of_isDigit {c : Char} (h : c.isDigit = true) : isWordChar c = true := by
  simp [isWordChar, isNameChar, Char.isAlphanum, h]

theorem isNameChar_of_isName {cs : List Char} (h : isName cs = true) :
    ∀ c ∈ cs, isNameChar c = true := by
  cases cs with
  | nil => nofun
  | cons a cs =>
    rw [isName, Bool.and_eq_true, List.all_eq_true] at h
    exact List.forall_mem_cons.mpr ⟨isNameChar_of_isNameStart h.1, h.2⟩

/-- The characters of words have codes of their own. -/
theorem code_of_isWordChar {c : Char} (h : isWordChar c = true) :
    c.toNat = 46 ∨ (48 ≤ c.toNat ∧ c.toNat ≤ 57) ∨ (65 ≤ c.toNat ∧ c.toNat ≤ 90) ∨
      c.toNat = 95 ∨ (97 ≤ c.toNat ∧ c.toNat ≤ 122) := by
  have halpha : c.isAlpha = (c.isUpper || c.isLower) := rfl
  have hupper : c.isUpper = true → 65 ≤ c.toNat ∧ c.toNat ≤ 90 := of_decide_eq_true
  have hlower : c.isLower = true → 97 ≤ c.toNat ∧ c.toNat ≤ 122 := fun h =>
    (Bool.and_eq_true_iff.mp h).imp of_decide_eq_true of_decide_eq_true
  have hdigit : c.isDigit = true → 48 ≤ c.toNat ∧ c.toNat ≤ 57 := fun h =>
    (Bool.and_eq_true_iff.mp h).imp of_decide_eq_true of_decide_eq_true
  simp only [isWordChar, isNameChar, Char.isAlphanum, halpha, Bool.or_eq_true,
    decide_eq_true_eq] at h
  rcases h with ((((h | h) | h) | rfl)) | rfl
  · exact Or.inr (Or.inr (Or.inl (hupper h)))
  · exact Or.inr (Or.inr (Or.inr (Or.inr (hlower h))))
  · exact Or.inr (Or.inl (hdigit h))
  · exact Or.inr (Or.inr (Or.inr (Or.inl rfl)))
  · exact Or.inl rfl

theorem not_isBlank_of_isWordChar {c : Char} (h : isWordChar c = true) : isBlank c = false := by
  have hc := code_of_isWordChar h
  simp only [isBlank, Bool.or_eq_false_iff, Bool.and_eq_false_iff, decide_eq_false_iff_not,
    beq_eq_false_iff_ne]
  omega

/-- The arguments are words, at most one of them. -/
def AtMostOneWord (args : List String) : Prop :=
  args = [] ∨ ∃ a, args = [a] ∧ a.toList ≠ [] ∧ ∀ c ∈ a.toList, isWordChar c = true

/-- A whole number is one word. -/
theorem isWordChar_of_isDigits {cs : List Char} (h : ArgKind.isDigits cs = true) :
    ∀ c ∈ cs, isWordChar c = true := by
  rw [ArgKind.isDigits, Bool.and_eq_true, List.all_eq_true] at h
  exact fun c hc => isWordChar_of_isDigit (h.2 c hc)

/-- A number is one word. -/
theorem isWordChar_of_isNumber {cs : List Char} (h : ArgKind.isNumber cs = true) :
    cs ≠ [] ∧ ∀ c ∈ cs, isWordChar c = true := by
  have hcs := intercalate_pieces '.' cs
  unfold ArgKind.isNumber at h
  split at h
  · next whole hp =>
    obtain rfl : whole = cs := by simpa [hp, List.intercalate] using hcs
    refine ⟨?_, isWordChar_of_isDigits h⟩
    rintro rfl
    cases h
  · next whole fraction hp =>
    obtain rfl : whole ++ '.' :: fraction = cs := by simpa [hp, List.intercalate] using hcs
    rw [Bool.and_eq_true] at h
    refine ⟨by simp, fun c hc => ?_⟩
    rcases List.mem_append.mp hc with hc | hc
    · exact isWordChar_of_isDigits h.1 c hc
    · rcases List.mem_cons.mp hc with rfl | hc
      · rfl
      · exact isWordChar_of_isDigits h.2 c hc
  · cases h

/-- The name of a direction is one word. -/
theorem isWordChar_of_direction (d : Direction) :
    d.name.toList ≠ [] ∧ ∀ c ∈ d.name.toList, isWordChar c = true := by
  have hall : d.name.toList.all isWordChar = true := by cases d <;> decide
  exact ⟨by cases d <;> decide, List.all_eq_true.mp hall⟩

/-- The arguments that a declared command accepts are one word, or none. -/
theorem atMostOneWord_of_accepts {kind : ArgKind} {args : List String}
    (h : kind.accepts args = true) : AtMostOneWord args := by
  unfold ArgKind.accepts at h
  split at h
  · exact Or.inl (List.isEmpty_iff.mp h)
  · next a => exact Or.inr ⟨a, rfl, isWordChar_of_isNumber h⟩
  · next a =>
    obtain ⟨d, hd⟩ := Option.isSome_iff_exists.mp h
    rw [Direction.eq_name_of_ofName? hd]
    exact Or.inr ⟨_, rfl, isWordChar_of_direction d⟩
  · cases h

end Line

/-- A line can give the command, and the vocabulary declares it with such arguments. -/
def Vocabulary.Speaks (v : Vocabulary) (name : String) (args : List String) : Prop :=
  Line.isName name.toList = true ∧ v.understands name args = true

theorem Vocabulary.Speaks.atMostOneWord {v : Vocabulary} {name : String} {args : List String}
    (h : v.Speaks name args) : Line.AtMostOneWord args := by
  obtain ⟨spec, -, ha⟩ := (Option.any_eq_true _ _).mp h.2
  exact Line.atMostOneWord_of_accepts ha

namespace Line

/-! ## What a text without a label says -/

theorem eq_append_of_after? : ∀ {w cs rest : List Char}, after? w cs = some rest → cs = w ++ rest
  | [], cs, rest, h => Option.some.inj h
  | w :: ws, [], rest, h => by cases h
  | w :: ws, c :: cs, rest, h => by
    rw [after?] at h
    split at h
    · next hw => rw [hw, eq_append_of_after? h, List.cons_append]
    · cases h

theorem mem_of_mem_trimStart {c : Char} {cs : List Char} (h : c ∈ trimStart cs) : c ∈ cs :=
  (List.dropWhile_suffix _).subset h

/-- A line that opens a loop has a brace in it. -/
theorem brace_mem_of_isLoopOpen {cs : List Char} (h : isLoopOpen cs = true) : '\x7b' ∈ cs := by
  unfold isLoopOpen at h
  split at h
  · next c rest hw =>
    rw [Bool.and_eq_true] at h
    obtain ⟨-, h⟩ := h
    split at h
    · next rest' hw' =>
      have hb : '\x7b' ∈ rest' := mem_of_mem_trimStart (by rw [of_decide_eq_true h]; simp)
      have hr : '\x7b' ∈ rest := mem_of_mem_trimStart (by
        rw [eq_append_of_after? hw']
        exact List.mem_append_right _ hb)
      rw [eq_append_of_after? hw]
      exact List.mem_append_right _ (List.mem_cons_of_mem c hr)
    · cases h
  · cases h

theorem closingDigits?_of_ne {a : Char} (ha : a ≠ '\x7d') (cs : List Char) :
    closingDigits? (a :: cs) = none := by
  unfold closingDigits?
  split
  · next h => exact absurd (List.cons.inj h).1 ha
  · rfl

/-- What may stand behind a line : nothing or a semicolon. -/
def IsTail (tail : List Char) : Prop := tail = [] ∨ tail = [';']

/-- Behind a line there may be a semicolon. -/
theorem isEnd_tail {tail : List Char} (h : IsTail tail) : isEnd tail = true := by
  rcases h with rfl | rfl <;> rfl

/-- The text of a leaf, without its semicolon. -/
def leafBody (name : String) (args : List String) : List Char :=
  name.toList ++ ' ' :: '(' :: ((String.intercalate "," args).toList ++ [')'])

theorem word_inside {args : List String} (h : AtMostOneWord args) :
    ∀ c ∈ (String.intercalate "," args).toList, isWordChar c = true := by
  obtain rfl | ⟨a, rfl, -, ha⟩ := h
  · intro c hc
    simp at hc
  · simpa using ha

theorem ne_of_isWordChar {c d : Char} (h : isWordChar c = true) (hd : isWordChar d = false) :
    c ≠ d := by
  rintro rfl
  rw [h] at hd
  cases hd

theorem isInside_of_isWordChar {c : Char} (h : isWordChar c = true) : isInside c = true := by
  have h1 := ne_of_isWordChar (d := '(') h rfl
  have h2 := ne_of_isWordChar (d := ')') h rfl
  simp [isInside, h1, h2]

/-- The arguments are read back from what stands between the parentheses. -/
theorem argsOfInside_intercalate {args : List String} (h : AtMostOneWord args) :
    argsOfInside (String.intercalate "," args).toList = args := by
  obtain rfl | ⟨a, rfl, hne, ha⟩ := h
  · rfl
  · have htight : Tight a.toList := .of_all hne fun c hc => not_isBlank_of_isWordChar (ha c hc)
    have hcomma : ',' ∉ a.toList := fun hc => ne_of_isWordChar (ha _ hc) rfl rfl
    simp [argsOfInside, htight.trim, hne, pieces_of_not_mem hcomma]

/-- The name and the arguments are found in the line that was written for them. -/
theorem nameAndInside?_leafBody {name : String} {args : List String}
    (hn : isName name.toList = true) (ha : AtMostOneWord args) {tail : List Char}
    (ht : IsTail tail) :
    nameAndInside? (leafBody name args ++ tail) =
      some (name.toList, (String.intercalate "," args).toList) := by
  have hi : ∀ c ∈ (String.intercalate "," args).toList, isInside c = true := fun c hc =>
    isInside_of_isWordChar (word_inside ha c hc)
  unfold leafBody
  cases hname : name.toList with
  | nil => rw [hname] at hn; cases hn
  | cons a cs =>
    rw [hname, isName, Bool.and_eq_true, List.all_eq_true] at hn
    have hsplit : ∀ rest, (a :: cs ++ ' ' :: rest) ++ tail =
      a :: (cs ++ ' ' :: (rest ++ tail)) := by
      simp
    rw [hsplit, nameAndInside?, if_pos hn.1, takeWhile_front hn.2 rfl, dropWhile_front hn.2 rfl,
      trimStart_of_isBlank _ rfl]
    simp only [List.cons_append, List.append_assoc, List.nil_append]
    rw [trimStart_of_not_isBlank _ rfl]
    have hstop : (')' :: tail).head?.any isInside = false := rfl
    simp only [dropWhile_front hi hstop, takeWhile_front hi hstop, isEnd_tail ht, if_true]

/-- The characters of a leaf's text mean what they mean in a leaf only. -/
theorem leafBody_chars {name : String} {args : List String} (hn : isName name.toList = true)
    (ha : AtMostOneWord args) {tail : List Char} (ht : IsTail tail) :
    ∀ c ∈ leafBody name args ++ tail,
      isWordChar c = true ∨ c = ' ' ∨ c = '(' ∨ c = ')' ∨ c = ';' := by
  intro c hc
  simp only [leafBody, List.mem_append, List.mem_cons, List.not_mem_nil, or_false] at hc
  rcases hc with (hc | rfl | rfl | hc | rfl) | hc
  · exact Or.inl (isWordChar_of_isNameChar (isNameChar_of_isName hn c hc))
  · simp
  · simp
  · exact Or.inl (word_inside ha c hc)
  · simp
  · rcases ht with rfl | rfl
    · cases hc
    · simp_all

/-- Such a line has no other characters than those of its words and its punctuation. -/
theorem not_mem_leafBody {name : String} {args : List String} (hn : isName name.toList = true)
    (ha : AtMostOneWord args) {tail : List Char} (ht : IsTail tail) {d : Char}
    (hd : isWordChar d = false ∧ d ∉ [' ', '(', ')', ';']) : d ∉ leafBody name args ++ tail := by
  intro hm
  have h := leafBody_chars hn ha ht d hm
  rw [hd.1] at h
  simp_all

/-- What is written for a leaf is read as a command. -/
theorem ofBody_leaf {name : String} {args : List String} (hn : isName name.toList = true)
    (ha : AtMostOneWord args) {tail : List Char} (ht : IsTail tail) :
    ofBody (leafBody name args ++ tail) = .command name args := by
  have hopen : isLoopOpen (leafBody name args ++ tail) = false := Bool.eq_false_iff.mpr fun h =>
    not_mem_leafBody hn ha ht (by decide) (brace_mem_of_isLoopOpen h)
  have hclose : closingDigits? (leafBody name args ++ tail) = none := by
    cases hb : leafBody name args ++ tail with
    | nil => rfl
    | cons a cs =>
      refine closingDigits?_of_ne ?_ cs
      rintro rfl
      exact not_mem_leafBody hn ha ht (d := '\x7d') (by decide) (by rw [hb]; simp)
  rw [ofBody, hopen, if_neg Bool.false_ne_true, hclose]
  dsimp only
  rw [nameAndInside?_leafBody hn ha ht]
  dsimp only
  rw [argsOfInside_intercalate ha, String.ofList_toList]

/-- The text that opens a loop. -/
def openBody : List Char := "LOOP REPEAT \x7b".toList

/-- What is written where a loop begins is read so. -/
theorem ofBody_loopOpen : ofBody openBody = .loopOpen := rfl

/-- The text that closes a loop of that count, without its semicolon. -/
def closeBody (n : UInt32) : List Char :=
  '\x7d' :: ' ' :: ((countText n).toList ++ " Times".toList)

theorem isDigit_of_mem_repr {number : Nat} {c : Char} (hc : c ∈ number.repr.toList) :
    c.isDigit = true := by
  rw [Nat.toList_repr] at hc
  exact Nat.isDigit_of_mem_toDigits (by decide) (by decide) hc

theorem repr_ne_nil (number : Nat) : number.repr.toList ≠ [] := by
  rw [Nat.toList_repr]
  exact Nat.toDigits_ne_nil

/-- What is written where a loop ends is read so, with its count. -/
theorem ofBody_loopClose (n : UInt32) {tail : List Char} (ht : IsTail tail) :
    ofBody (closeBody n ++ tail) = .loopClose n := by
  have hne : (countText n).toList ≠ [] := repr_ne_nil n.toNat
  have hd : ∀ c ∈ (countText n).toList, isDecimalDigit c = true := fun c hc =>
    isDecimalDigit_of_isDigit (isDigit_of_mem_repr hc)
  have htight : Tight (countText n).toList := .of_all hne fun c hc =>
    not_isBlank_of_isWordChar (isWordChar_of_isDigit (isDigit_of_mem_repr hc))
  obtain ⟨a, ha, hblank⟩ := htight.head
  have htrim : trimStart ((countText n).toList ++ (" Times".toList ++ tail)) =
      (countText n).toList ++ (" Times".toList ++ tail) :=
    trimStart_of_head? (by rw [List.head?_append, ha]; rfl) hblank
  have hclose : closingDigits? (closeBody n ++ tail) = some (countText n).toList := by
    show closingDigits? ('\x7d' :: (' ' :: ((countText n).toList ++ " Times".toList) ++ tail)) = _
    rw [List.cons_append, List.append_assoc, closingDigits?, trimStart_of_isBlank _ rfl, htrim,
      takeWhile_front hd rfl, dropWhile_front hd rfl,
      show after? "Times".toList (trimStart (" Times".toList ++ tail)) = some tail from rfl]
    exact if_pos ⟨hne, isEnd_tail ht⟩
  have hopen : isLoopOpen (closeBody n ++ tail) = false := rfl
  rw [ofBody, hopen, if_neg Bool.false_ne_true, hclose]
  dsimp only
  rw [readCount?_countText]

/-! ## Indentations and labels -/

theorem dropColour_suffix (cs : List Char) : dropColour cs <:+ cs := by
  unfold dropColour
  split
  · next a b c d e f rest h =>
    split
    · rw [eq_append_of_after? h]
      exact ⟨"<color=#".toList ++ [a, b, c, d, e, f, '>'], by simp⟩
    · exact List.suffix_rfl
  · exact List.suffix_rfl

theorem dropColourEnd_suffix (cs : List Char) : dropColourEnd cs <:+ cs := by
  unfold dropColourEnd
  cases h : after? "</color>".toList cs with
  | none => exact List.suffix_rfl
  | some rest => exact ⟨_, (eq_append_of_after? h).symm⟩

/-- A line with a label has a colon in it. -/
theorem colon_mem_of_afterLabel? {cs rest : List Char} (h : afterLabel? cs = some rest) :
    ':' ∈ cs := by
  unfold afterLabel? at h
  split at h
  · next cs' hL =>
    split at h
    · cases h
    · split at h
      · next hc =>
        refine (dropColour_suffix cs).subset ?_
        rw [hL]
        have hm : ':' ∈ dropColourEnd (cs'.dropWhile isDecimalDigit) := by
          rw [hc]
          exact List.mem_cons_self
        exact List.mem_cons_of_mem _
          ((List.dropWhile_suffix _).subset ((dropColourEnd_suffix _).subset hm))
      · cases h
  · cases h

/-- A line without a colon has no label to be dropped. -/
theorem dropLabel_of_not_mem {cs : List Char} (h : ':' ∉ cs) : dropLabel cs = cs := by
  unfold dropLabel
  split
  · next hl => exact absurd (colon_mem_of_afterLabel? hl) h
  · rfl

/-- What stands in front of the text of a line and says nothing. -/
structure Heading (front : List Char) : Prop where
  noFeed : '\n' ∉ front
  ofText_append : ∀ body, Tight body → ':' ∉ body → ofText (front ++ body) = ofBody body

theorem heading_replicate (n : Nat) : Heading (List.replicate n ' ') where
  noFeed h := by cases List.eq_of_mem_replicate h
  ofText_append body ht hc := by
    have hb : ∀ c ∈ List.replicate n ' ', isBlank c = true := fun c h => by
      rw [List.eq_of_mem_replicate h]
      rfl
    simp only [ofText, ht.trim_append hb, if_neg ht.ne_nil, dropLabel_of_not_mem hc]

/-- A line may be indented. -/
theorem heading_indentation (depth : Nat) : Heading (indentation depth).toList := by
  rw [indentation, String.toList_ofList]
  exact heading_replicate _

/-- A text in front of a line is passed over if it is read as a label. -/
theorem heading_of_label {front : List Char} {a : Char} (ha : front.head? = some a)
    (hb : isBlank a = false) (hn : '\n' ∉ front)
    (h : ∀ body, afterLabel? (front ++ body) = some (' ' :: body)) : Heading front where
  noFeed := hn
  ofText_append body ht _ := by
    have htight : Tight (front ++ body) := .append ha hb ht
    have hblank : trimStart (' ' :: body) = body := by
      rw [trimStart_of_isBlank _ rfl, ht.trimStart]
    simp only [ofText, htight.trim, if_neg htight.ne_nil, dropLabel, h, hblank]

theorem afterLabel?_label (number : Nat) (front colourEnd body : List Char)
    (hfront : ∀ rest, dropColour (front ++ 'L' :: rest) = 'L' :: rest)
    (hstop : (colourEnd ++ ':' :: body).head?.any isDecimalDigit = false)
    (hend : dropColourEnd (colourEnd ++ ':' :: body) = ':' :: body) :
    afterLabel? (front ++ 'L' :: (number.repr.toList ++ (colourEnd ++ ':' :: body))) =
      some body := by
  have hd : ∀ c ∈ number.repr.toList, isDecimalDigit c = true := fun c hc =>
    isDecimalDigit_of_isDigit (isDigit_of_mem_repr hc)
  rw [afterLabel?, hfront]
  simp only [takeWhile_front hd hstop, dropWhile_front hd hstop, if_neg (repr_ne_nil number), hend]

/-- A line may begin with a label. -/
theorem heading_label (style : Style) (number : Nat) :
    Heading (Script.label style number).toList := by
  have hn : '\n' ∉ number.repr.toList := fun h => by cases isDigit_of_mem_repr h
  unfold Script.label
  split
  · split
    · refine heading_of_label (a := '<') (by simp) rfl (by simpa using hn) fun body => ?_
      have h := afterLabel?_label number "<color=#24A0FF>".toList "</color>".toList (' ' :: body)
        (fun rest => rfl) rfl rfl
      simpa using h
    · refine heading_of_label (a := 'L') (by simp) rfl (by simpa using hn) fun body => ?_
      have h := afterLabel?_label number [] [] (' ' :: body) (fun rest => rfl) rfl rfl
      simpa using h
  · exact heading_replicate 0

/-! ## Lines with their headings -/

/-- A text that a heading can stand in front of, and that can be a line. -/
structure Says (body : List Char) (line : Line) : Prop where
  tight : Tight body
  noFeed : '\n' ∉ body
  noColon : ':' ∉ body
  ofBody : ofBody body = line

/-- A line says the same behind any heading. -/
theorem Says.ofText_append {front body : List Char} {line : Line} (h : Says body line)
    (hf : Heading front) : ofText (front ++ body) = line :=
  (hf.ofText_append body h.tight h.noColon).trans h.ofBody

theorem Says.isLine {front body : List Char} {line : Line} (h : Says body line)
    (hf : Heading front) : IsLine (front ++ body) :=
  h.tight.isLine hf.noFeed h.noFeed

/-- The line of a leaf says its command. -/
theorem says_leaf {v : Vocabulary} {name : String} {args : List String} (h : v.Speaks name args)
    {tail : List Char} (ht : IsTail tail) :
    Says (leafBody name args ++ tail) (.command name args) where
  tight := by
    refine ⟨?_, ?_⟩
    · have hs := h.1
      cases hname : name.toList with
      | nil => rw [hname] at hs; cases hs
      | cons a cs =>
        rw [hname, isName, Bool.and_eq_true] at hs
        exact ⟨a, by simp [leafBody, hname], not_isBlank_of_isWordChar
          (isWordChar_of_isNameChar (isNameChar_of_isNameStart hs.1))⟩
    · rcases ht with rfl | rfl
      · refine ⟨')', List.getLast?_eq_some_iff.mpr
          ⟨name.toList ++ ' ' :: '(' :: (String.intercalate "," args).toList, ?_⟩, rfl⟩
        simp only [leafBody, List.append_nil, List.append_assoc, List.cons_append]
      · exact ⟨';', List.getLast?_concat, rfl⟩
  noFeed := not_mem_leafBody h.1 h.atMostOneWord ht (by decide)
  noColon := not_mem_leafBody h.1 h.atMostOneWord ht (by decide)
  ofBody := ofBody_leaf h.1 h.atMostOneWord ht

theorem says_loopOpen : Says openBody .loopOpen where
  tight := ⟨⟨'L', rfl, rfl⟩, ⟨'\x7b', rfl, rfl⟩⟩
  noFeed := by decide
  noColon := by decide
  ofBody := ofBody_loopOpen

theorem says_loopClose (n : UInt32) {tail : List Char} (ht : IsTail tail) :
    Says (closeBody n ++ tail) (.loopClose n) := by
  have hmem : ∀ c, c.isDigit = false → c ∉ '\x7d' :: ' ' :: ';' :: " Times".toList →
      c ∉ closeBody n ++ tail := by
    intro c hd hc hm
    simp only [closeBody, List.mem_append, List.mem_cons] at hm hc
    rcases hm with (rfl | rfl | hm | hm) | hm
    · simp at hc
    · simp at hc
    · rw [isDigit_of_mem_repr hm] at hd
      cases hd
    · exact hc (Or.inr (Or.inr (Or.inr hm)))
    · rcases ht with rfl | rfl <;> simp_all
  refine ⟨⟨⟨'\x7d', rfl, rfl⟩, ?_⟩, hmem _ rfl (by decide), hmem _ rfl (by decide),
    ofBody_loopClose n ht⟩
  rcases ht with rfl | rfl
  · exact ⟨'s', by simp [closeBody, List.getLast?_cons, List.getLast?_append], rfl⟩
  · exact ⟨';', by simp, rfl⟩

/-! ## The form of a command that was read -/

theorem isName_of_nameAndInside? {cs name inside : List Char}
    (h : nameAndInside? cs = some (name, inside)) : isName name = true := by
  unfold nameAndInside? at h
  split at h
  · cases h
  · next c cs =>
    have hall : (cs.takeWhile isNameChar).all isNameChar = true := List.all_takeWhile
    split at h
    · next hstart =>
      have hname : isName (c :: cs.takeWhile isNameChar) = true := by
        rw [isName, hstart, hall]
        rfl
      split at h
      · split at h
        · split at h
          · cases h
            exact hname
          · cases h
        · cases h
      · split at h
        · cases h
          exact hname
        · cases h
    · cases h

/-- The command of a line has a name of the form that the codec knows. -/
theorem isName_of_ofText {raw : List Char} {name : String} {args : List String}
    (h : ofText raw = .command name args) : isName name.toList = true := by
  unfold ofText at h
  dsimp only at h
  split at h
  · cases h
  · unfold ofBody at h
    split at h
    · cases h
    · split at h
      · split at h <;> cases h
      · split at h
        · next hn =>
          cases h
          rw [String.toList_ofList]
          exact isName_of_nameAndInside? hn
        · cases h

end Line

end Tandem
