import Tandem.Script.Reading
import Mathlib.Data.List.Basic

/-!
# Blocks of lines

To the reading of a script, each line is a token : it is blank, gives a command, opens or closes a
loop, or is unfit for the script. The lines that open and close loops match like brackets, the
innermost first. What matches is said without the reading : tokens between which everything matches
form the commands of a block (`Token.Forms`), and two tokens are the ends of a loop if what stands
between them forms one (`Token.Pairs`).

A line that opens a loop may be `Token.Unclosed`, and one that closes a loop may be `Token.Stray`.
Tokens that form a block have none that is unclosed (`Forms.not_unclosed`). In a block no part of it
from its start on has more closings than openings (`Forms.rise_nonneg`), so nothing that forms a
block can be cut short by a closing (`Forms.not_balanced`), and tokens form a block in one way only
(`Forms.unique`).
-/

namespace Tandem

/-- What a line is to the script that it stands in. -/
inductive Token where
  | blank
  | command (c : Command)
  | opening
  | closing (count : UInt32)
  /-- The line gives nothing that the script could have. -/
  | unfit (reason : OmissionReason)
deriving DecidableEq

namespace Token

/-- What the line is to a script of that vocabulary. -/
def ofLine (v : Vocabulary) (raw : List Char) : Token :=
  match Line.ofText raw with
  | .blank => .blank
  | .loopOpen => .opening
  | .loopClose count => .closing count
  | .command name args =>
    match v.find? name with
    | none => .unfit .unknownCommand
    | some spec =>
      if spec.arg.accepts args then .command (.ofName name args) else .unfit .badArguments
  | .unknown => .unfit .unknownCommand

/-! ## Blocks -/

/-- The tokens form the commands of a block, in order, with a loop for each pair of ends. At the
`top`, a closing may also stand by itself. -/
inductive Forms : (top : Bool) → List Token → List Command → Prop
  | nil {top : Bool} : Forms top [] []
  | blank {top : Bool} {ts : List Token} {cs : List Command} :
    Forms top ts cs → Forms top (.blank :: ts) cs
  | unfit {top : Bool} {ts : List Token} {cs : List Command} (reason : OmissionReason) :
    Forms top ts cs → Forms top (.unfit reason :: ts) cs
  | command {top : Bool} {ts : List Token} {cs : List Command} (c : Command) :
    Forms top ts cs → Forms top (.command c :: ts) (c :: cs)
  | loop {top : Bool} {body ts : List Token} {inner cs : List Command} (count : UInt32) :
    Forms false body inner → Forms top ts cs →
    Forms top (.opening :: (body ++ .closing count :: ts)) (.repeated count inner :: cs)
  | stray {ts : List Token} {cs : List Command} (count : UInt32) :
    Forms true ts cs → Forms true (.closing count :: ts) cs

/-- Everything that opens or closes a loop among the tokens matches. -/
def Balanced (ts : List Token) : Prop :=
  ∃ cs, Forms false ts cs

/-- The tokens of these indices are the ends of a loop. -/
def Pairs (ts : List Token) (i j : Nat) : Prop :=
  ∃ front body count rest, ts = front ++ .opening :: (body ++ .closing count :: rest) ∧
    Balanced body ∧ i = front.length ∧ j = front.length + 1 + body.length

/-- The token of that index opens a loop that is never closed. -/
def Unclosed (ts : List Token) (i : Nat) : Prop :=
  ts[i]? = some .opening ∧ ∀ j, ¬Pairs ts i j

/-- The token of that index closes a loop where none is open. -/
def Stray (ts : List Token) (j : Nat) : Prop :=
  (∃ count, ts[j]? = some (.closing count)) ∧ ∀ i, ¬Pairs ts i j

/-- The index is that of the first token that is never closed, or the number of tokens if there is
none. -/
structure FirstUnclosed (ts : List Token) (p : Nat) : Prop where
  le : p ≤ ts.length
  unclosed : p < ts.length → Unclosed ts p
  first : ∀ i, Unclosed ts i → p ≤ i

/-- The line of that index is to be left out for the reason. -/
inductive Fault (ts : List Token) (i : Nat) : OmissionReason → Prop
  | unfit {reason : OmissionReason} : ts[i]? = some (.unfit reason) → Fault ts i reason
  | stray : Stray ts i → Fault ts i .unmatchedLoopClose
  | unclosed : Unclosed ts i → Fault ts i .unterminatedLoop

/-! ## Blocks put together -/

namespace Forms

variable {top : Bool} {ts us : List Token} {cs ds : List Command}

/-- A block followed by another is a block. -/
theorem append (h : Forms top ts cs) (h' : Forms top us ds) : Forms top (ts ++ us) (cs ++ ds) := by
  induction h with
  | nil => exact h'
  | blank _ ih => exact .blank (ih h')
  | unfit reason _ ih => exact .unfit reason (ih h')
  | command c _ ih => exact .command c (ih h')
  | loop count hbody _ _ ih =>
    rw [List.cons_append, List.append_assoc]
    exact .loop count hbody (ih h')
  | stray count _ ih => exact .stray count (ih h')

end Forms

/-- How many more loops the tokens open than they close. -/
def rise : List Token → Int
  | [] => 0
  | .opening :: ts => rise ts + 1
  | .closing _ :: ts => rise ts - 1
  | .blank :: ts | .command _ :: ts | .unfit _ :: ts => rise ts

/-- What two stretches of lines rise by adds up. -/
theorem rise_append : ∀ ts us : List Token, rise (ts ++ us) = rise ts + rise us
  | [], us => (Int.zero_add _).symm
  | t :: ts, us => by
    have ih := rise_append ts us
    cases t <;> simp only [List.cons_append, rise, ih] <;> omega

theorem rise_loop (body ts : List Token) (count : UInt32) :
    rise (.opening :: (body ++ .closing count :: ts)) = rise body + rise ts := by
  simp only [rise, rise_append]
  omega

namespace Forms

variable {ts : List Token} {cs : List Command}

/-- The body of a loop rises by nothing. -/
theorem rise_eq (h : Forms false ts cs) : rise ts = 0 := by
  generalize htop : false = top at h
  induction h with
  | nil => rfl
  | blank _ ih | unfit _ _ ih | command _ _ ih => exact ih htop
  | loop count _ _ ihbody ih => rw [rise_loop, ihbody rfl, ih htop, Int.add_zero]
  | stray => cases htop

/-- Wherever a block is cut, what stands in front of the cut closes no more loops than it opens. -/
theorem rise_nonneg (h : Forms false ts cs) {front : List Token} (hfront : front <+: ts) :
    0 ≤ rise front := by
  generalize htop : false = top at h
  induction h generalizing front with
  | nil =>
    rw [List.prefix_nil.mp hfront]
    exact Int.le_refl 0
  | blank _ ih | unfit _ _ ih | command _ _ ih =>
    obtain rfl | ⟨front', rfl, hcut⟩ := List.prefix_cons_iff.mp hfront
    · exact Int.le_refl 0
    · have hrise := ih hcut htop
      exact hrise
  | @loop _ body ts _ _ count hbody _ ihbody ih =>
    obtain rfl | ⟨front', rfl, hcut⟩ := List.prefix_cons_iff.mp hfront
    · exact Int.le_refl 0
    obtain hinner | ⟨back, rfl⟩ :=
      List.prefix_or_prefix_of_prefix hcut (List.prefix_append body _)
    · have hinner := ihbody hinner rfl
      simp only [rise]
      omega
    · obtain rfl | ⟨back, rfl, hback⟩ :=
        List.prefix_cons_iff.mp ((List.prefix_append_right_inj body).mp hcut)
      · simp only [rise, List.append_nil, hbody.rise_eq]
        omega
      · rw [rise_loop, hbody.rise_eq, Int.zero_add]
        exact ih hback htop
  | stray => cases htop

/-- A block is not cut short by a closing. -/
theorem not_balanced {front rest : List Token} {count : UInt32}
    (h : Forms false (front ++ .closing count :: rest) cs) : ¬Balanced front := by
  rintro ⟨ds, hfront⟩
  have hcut : front ++ [.closing count] <+: front ++ .closing count :: rest := ⟨rest, by simp⟩
  have hrise := h.rise_nonneg hcut
  rw [rise_append, hfront.rise_eq, Int.zero_add] at hrise
  exact absurd hrise (by simp [rise])

/-- A token of a loop opens it, stands in its body, closes it, or stands behind it. -/
theorem loop_split {body ts front rest : List Token} {count : UInt32} {t : Token}
    (h : .opening :: (body ++ .closing count :: ts) = front ++ t :: rest) :
    (front = [] ∧ t = .opening ∧ rest = body ++ .closing count :: ts) ∨
    (∃ front' rest', front = .opening :: front' ∧ body = front' ++ t :: rest' ∧
      rest = rest' ++ .closing count :: ts) ∨
    (front = .opening :: body ∧ t = .closing count ∧ rest = ts) ∨
    ∃ front', front = .opening :: (body ++ .closing count :: front') ∧
      ts = front' ++ t :: rest := by
  obtain ⟨rfl, ht⟩ | ⟨front', rfl, ht⟩ := List.cons_eq_append_iff.mp h
  · obtain ⟨rfl, rfl⟩ := List.cons.inj ht
    exact Or.inl ⟨rfl, rfl, rfl⟩
  obtain ⟨back, rfl, hback⟩ | ⟨back, rfl, hback⟩ := List.append_eq_append_iff.mp ht
  · obtain ⟨rfl, hclose⟩ | ⟨back', rfl, rfl⟩ := List.cons_eq_append_iff.mp hback
    · obtain ⟨rfl, rfl⟩ := List.cons.inj hclose
      exact Or.inr (Or.inr (Or.inl ⟨by rw [List.append_nil], rfl, rfl⟩))
    · exact Or.inr (Or.inr (Or.inr ⟨back', rfl, rfl⟩))
  · obtain ⟨rfl, hclose⟩ | ⟨back', rfl, rfl⟩ := List.cons_eq_append_iff.mp hback
    · obtain ⟨rfl, rfl⟩ := List.cons.inj hclose
      exact Or.inr (Or.inr (Or.inl ⟨by rw [List.append_nil], rfl, rfl⟩))
    · exact Or.inr (Or.inl ⟨front', back', rfl, rfl, rfl⟩)

/-- A block that begins with an opening begins with a loop. -/
theorem of_opening {top : Bool} (h : Forms top (.opening :: ts) cs) :
    ∃ body inner count rest ds, ts = body ++ .closing count :: rest ∧ Forms false body inner ∧
      Forms top rest ds ∧ cs = .repeated count inner :: ds := by
  cases h with
  | loop count hbody h => exact ⟨_, _, count, _, _, rfl, hbody, h, rfl⟩

/-- Tokens form a block in one way only. -/
theorem unique {top : Bool} {ds : List Command} (h : Forms top ts cs) (h' : Forms top ts ds) :
    cs = ds := by
  induction h generalizing ds with
  | nil =>
    cases h' with
    | nil => rfl
  | blank _ ih =>
    cases h' with
    | blank h' => exact ih h'
  | unfit _ _ ih =>
    cases h' with
    | unfit _ h' => exact ih h'
  | command c _ ih =>
    cases h' with
    | command _ h' => rw [ih h']
  | stray _ _ ih =>
    cases h' with
    | stray _ h' => exact ih h'
  | @loop _ body ts inner cs count hbody _ ihbody ih =>
    obtain ⟨body', inner', count', rest, ds, hts, hbody', hrest, rfl⟩ := h'.of_opening
    -- Neither of the two bodies can go on behind the end of the other one.
    obtain ⟨back, rfl, hback⟩ | ⟨back, rfl, hback⟩ := List.append_eq_append_iff.mp hts
    all_goals obtain ⟨rfl, hclose⟩ | ⟨back', rfl, -⟩ := List.cons_eq_append_iff.mp hback
    · obtain ⟨hcount, rfl⟩ := List.cons.inj hclose
      obtain rfl := Token.closing.inj hcount
      rw [List.append_nil] at hbody'
      rw [ihbody hbody', ih hrest]
    · exact absurd ⟨_, hbody⟩ hbody'.not_balanced
    · obtain ⟨hcount, rfl⟩ := List.cons.inj hclose
      obtain rfl := Token.closing.inj hcount
      rw [List.append_nil] at ihbody
      rw [ihbody hbody', ih hrest]
    · exact absurd ⟨_, hbody'⟩ hbody.not_balanced

/-- Every loop that is opened in a block is closed in it. -/
theorem closed {top : Bool} (h : Forms top ts cs) : ∀ {front rest : List Token},
    ts = front ++ .opening :: rest →
    ∃ body count rest', rest = body ++ .closing count :: rest' ∧ Balanced body := by
  induction h with
  | nil =>
    exact fun hts => absurd hts.symm (List.append_ne_nil_of_right_ne_nil _ (List.cons_ne_nil _ _))
  | blank _ ih | unfit _ _ ih | command _ _ ih | stray _ _ ih =>
    intro front rest hts
    obtain ⟨-, hhead⟩ | ⟨front', -, hts⟩ := List.cons_eq_append_iff.mp hts
    · cases hhead
    · exact ih hts
  | loop count hbody _ ihbody ih =>
    intro front rest hts
    obtain ⟨-, -, rfl⟩ | ⟨front', rest', -, hfront, rfl⟩ | ⟨-, hopen, -⟩ | ⟨front', -, hfront⟩ :=
      loop_split hts
    · exact ⟨_, _, _, rfl, _, hbody⟩
    · obtain ⟨body, count', rest'', rfl, hbalanced⟩ := ihbody hfront
      exact ⟨body, count', _, by rw [List.append_assoc, List.cons_append], hbalanced⟩
    · cases hopen
    · exact ih hfront

end Forms

/-! ## The ends of loops -/

theorem split_of_getElem? {ts : List Token} {i : Nat} {t : Token} (h : ts[i]? = some t) :
    ∃ front rest, ts = front ++ t :: rest ∧ front.length = i := by
  obtain ⟨hi, rfl⟩ := List.getElem?_eq_some_iff.mp h
  refine ⟨ts.take i, ts.drop (i + 1), ?_, List.length_take_of_le (Nat.le_of_lt hi)⟩
  rw [← List.drop_eq_getElem_cons hi, List.take_append_drop]

variable {ts us body : List Token} {i j : Nat}

/-- What follows does not part a pair. -/
theorem Pairs.append (h : Pairs ts i j) (us : List Token) : Pairs (ts ++ us) i j := by
  obtain ⟨front, body, count, rest, rfl, hbody, rfl, rfl⟩ := h
  exact ⟨front, body, count, rest ++ us, by simp, hbody, rfl, rfl⟩

/-- A pair that ends in the front is a pair of the front. -/
theorem Pairs.of_append (h : Pairs (ts ++ us) i j) (hj : j < ts.length) : Pairs ts i j := by
  obtain ⟨front, body, count, rest, hts, hbody, rfl, rfl⟩ := h
  have hsplit : ts ++ us = (front ++ .opening :: (body ++ [.closing count])) ++ rest := by
    rw [hts]
    simp
  obtain ⟨back, hends, -⟩ | ⟨back, rfl, -⟩ := List.append_eq_append_iff.mp hsplit
  -- What stands behind the loop is cut off, or nothing is.
  · have hlength := congrArg List.length hends
    simp only [List.length_append, List.length_cons, List.length_nil] at hlength
    have hback : back = [] := List.length_eq_zero_iff.mp (by omega)
    rw [hback, List.append_nil] at hends
    exact ⟨front, body, count, [], hends.symm, hbody, rfl, rfl⟩
  · exact ⟨front, body, count, back, by simp, hbody, rfl, rfl⟩

/-- The closing at the end of tokens is that of the loop whose body stands in front of it. -/
theorem pairs_concat (front : List Token) (hbody : Balanced body) (count : UInt32) :
    Pairs (front ++ .opening :: body ++ [.closing count]) front.length
      (front ++ .opening :: body).length :=
  ⟨front, body, count, [], by simp, hbody, rfl, by simp; omega⟩

/-- At the end of a block there is no loop to be closed. -/
theorem Forms.not_pairs {top : Bool} {cs : List Command} (h : Forms top ts cs) (t : Token)
    (i : Nat) :
    ¬Pairs (ts ++ [t]) i ts.length := by
  rintro ⟨front, body, count, rest, hts, ⟨ds, hbody⟩, -, hj⟩
  have hsplit : ts ++ [t] = (front ++ .opening :: body) ++ (.closing count :: rest) := by
    rw [hts]
    simp
  obtain ⟨rfl, -⟩ := List.append_inj hsplit (by simp; omega)
  obtain ⟨body', count', rest', rfl, hbalanced⟩ := h.closed rfl
  exact hbody.not_balanced hbalanced

/-! ## Loops that are never closed -/

/-- A loop whose body has not come to its end is open. -/
theorem unclosed_opening (front : List Token) (hbody : Balanced body) :
    Unclosed (front ++ .opening :: body) front.length := by
  refine ⟨by simp, ?_⟩
  rintro j ⟨front', body', count, rest, hts, hbalanced, hlength, -⟩
  obtain ⟨-, htail⟩ := List.append_inj hts hlength
  obtain ⟨ds, hbody⟩ := hbody
  obtain rfl := (List.cons.inj htail).2
  exact hbody.not_balanced hbalanced

/-- A loop that was open in front of it still is. -/
theorem unclosed_append_opening (hbody : Balanced body) (hi : i < ts.length) :
    Unclosed (ts ++ .opening :: body) i ↔ Unclosed ts i := by
  unfold Unclosed
  rw [List.getElem?_append_left hi]
  refine and_congr_right fun hopen => ⟨fun h j hp => h j (hp.append _), fun h j hp => ?_⟩
  obtain hj | hj := Nat.lt_or_ge j ts.length
  · exact h j (hp.of_append hj)
  obtain ⟨front, mid, rfl, rfl⟩ := split_of_getElem? hopen
  obtain ⟨front', inner, count, rest, hts, ⟨ds, hinner⟩, hfront, rfl⟩ := hp
  rw [List.append_assoc] at hts
  obtain ⟨rfl, hloop⟩ := List.append_inj hts hfront
  have hloop : mid ++ .opening :: body = inner ++ .closing count :: rest := (List.cons.inj hloop).2
  -- The closing stands in the body, so the loop that is opened in front of the body would be closed
  -- in front of the closing.
  obtain ⟨back, rfl, hback⟩ | ⟨back, rfl, hback⟩ := List.append_eq_append_iff.mp hloop
  · obtain ⟨rfl, hhead⟩ | ⟨body', rfl, hbody'⟩ := List.cons_eq_append_iff.mp hback
    · cases hhead
    · obtain ⟨inner', count', rest', rfl, hbalanced⟩ := hinner.closed rfl
      obtain ⟨cs, hbody⟩ := hbody
      rw [hbody', List.append_assoc] at hbody
      exact hbody.not_balanced hbalanced
  · obtain ⟨rfl, hhead⟩ | ⟨back', rfl, -⟩ := List.cons_eq_append_iff.mp hback
    · cases hhead
    · simp at hj
      omega

/-- A loop in the body is closed. -/
theorem le_of_unclosed (hbody : Balanced body) (h : Unclosed (ts ++ .opening :: body) i) :
    i ≤ ts.length := by
  by_contra hi
  obtain ⟨hopen, hnever⟩ := h
  obtain ⟨cs, hbody⟩ := hbody
  have hbody' : body[i - ts.length - 1]? = some .opening := by
    rw [List.getElem?_append_right (by omega), List.getElem?_cons, if_neg (by omega)] at hopen
    exact hopen
  obtain ⟨front, rest, rfl, hfront⟩ := split_of_getElem? hbody'
  obtain ⟨inner, count, rest', rfl, hbalanced⟩ := hbody.closed rfl
  exact hnever _ ⟨ts ++ .opening :: front, inner, count, rest', by simp, hbalanced,
    by simp; omega, rfl⟩

/-- In a block every loop is closed. -/
theorem Forms.not_unclosed {top : Bool} {cs : List Command} (h : Forms top ts cs) (i : Nat) :
    ¬Unclosed ts i := by
  rintro ⟨hopen, hnever⟩
  obtain ⟨front, rest, rfl, rfl⟩ := split_of_getElem? hopen
  obtain ⟨body, count, rest', rfl, hbody⟩ := h.closed rfl
  exact hnever _ ⟨front, body, count, rest', rfl, hbody, rfl, rfl⟩

end Token

/-! ## Reading tokens -/

namespace Reading

/-- The next line, which is that token, is read. -/
def readToken (r : Reading) (raw : List Char) (index : Nat) : Token → Reading
  | .blank => r
  | .command c => r.push c
  | .opening => r.openLoop index raw
  | .closing count =>
    match r.loops with
    | [] => r.skip index .unmatchedLoopClose raw
    | inner :: outer =>
      { r with
        commands := Command.repeated count r.commands.reverse :: inner.before
        loops := outer }
  | .unfit reason => r.skip index reason raw

/-- Of a line, nothing but its token makes a difference to what is read. -/
theorem readLine_eq (v : Vocabulary) (r : Reading) (raw : List Char) (index : Nat) :
    r.readLine v raw index = r.readToken raw index (.ofLine v raw) := by
  unfold readLine Token.ofLine
  cases Line.ofText raw with
  | blank | loopOpen | loopClose | unknown => rfl
  | command name args =>
    dsimp only
    cases v.find? name with
    | none => rfl
    | some spec =>
      dsimp only
      cases spec.arg.accepts args <;> rfl

/-- The loops that are still open at the end are reported. -/
theorem omissions_giveUpLoops (loops : List OpenLoop) (commands : List Command)
    (skipped : List Omission) : (giveUpLoops loops commands skipped).omissions =
      skipped.reverse ++ loops.map fun l => .ofLine l.index .unterminatedLoop l.raw := by
  induction loops generalizing commands skipped with
  | nil => exact (List.append_nil _).symm
  | cons l loops ih =>
    rw [giveUpLoops, ih, List.reverse_cons, List.append_assoc]
    rfl

/-- What has been read outside of all loops is the script. -/
theorem script_giveUpLoops {loops loops' : List OpenLoop}
    (h : loops'.map (·.before) = loops.map (·.before)) (commands : List Command)
    (skipped skipped' : List Omission) :
    (giveUpLoops loops' commands skipped').script =
      (giveUpLoops loops commands skipped).script := by
  induction loops generalizing loops' commands skipped skipped' with
  | nil =>
    rw [List.map_nil, List.map_eq_nil_iff] at h
    rw [h]
    rfl
  | cons l loops ih =>
    obtain ⟨l', loops', rfl, hl, h⟩ := List.map_eq_cons_iff.mp h
    rw [giveUpLoops, giveUpLoops, hl]
    exact ih h _ _ _

end Reading

end Tandem
