import Tandem.Decimal.Basic
import Tandem.Text.Blank

/-!
# Lines left out

Reading a script text never fails: a line that cannot be used is left out, and reported with
its number, the reason and its text. The number is a 32-bit word, so it tells the place of a line
among the first `2 ^ 32 - 1` lines (`Omission.toNat_line_ofLine`), and goes round behind them.
-/

namespace Tandem

/-- Why a line was left out. -/
inductive OmissionReason where
  /-- The line gives no command of the vocabulary. -/
  | unknownCommand
  /-- The command does not take the arguments. -/
  | badArguments
  /-- The line closes a loop, but none is open. -/
  | unmatchedLoopClose
  /-- The line opens a loop that is never closed. -/
  | unterminatedLoop
deriving DecidableEq, Repr

/-- The words for the reason. -/
def OmissionReason.words : OmissionReason → String
  | unknownCommand => "unknown command"
  | badArguments => "bad arguments"
  | unmatchedLoopClose => "loop close without open"
  | unterminatedLoop => "loop never closed"

/-- A line that was left out, numbered from one. -/
structure Omission where
  line : UInt32
  reason : OmissionReason
  text : String
deriving DecidableEq, Repr

namespace Omission

/-- The report on the line of that index. -/
def ofLine (index : Nat) (reason : OmissionReason) (raw : List Char) : Omission :=
  ⟨UInt32.ofNat index + 1, reason, String.ofList (Text.trim raw)⟩

/-- The number of a line is one more than its index, as long as words go that far. -/
theorem toNat_line_ofLine {index : Nat} (h : index + 1 < UInt32.size) (reason : OmissionReason)
    (raw : List Char) : (ofLine index reason raw).line.toNat = index + 1 := by
  rw [ofLine, UInt32.toNat_add, UInt32.toNat_ofNat', UInt32.toNat_one, Nat.mod_add_mod]
  exact Nat.mod_eq_of_lt h

/-- Behind the last number that is a word comes zero. -/
theorem line_ofLine_of_last (reason : OmissionReason) (raw : List Char) :
    (ofLine (UInt32.size - 1) reason raw).line = 0 := rfl

/-- The report as it is shown. -/
def shown (s : Omission) : String :=
  "line " ++ countText s.line ++ ": " ++ s.text ++ " (" ++ s.reason.words ++ ")"

end Omission

end Tandem
