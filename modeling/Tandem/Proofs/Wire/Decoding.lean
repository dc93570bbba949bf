import Tandem.Proofs.Script.Names
import Tandem.Proofs.Wire.Safe

/-!
# Messages that are sent are understood

The text of a message stands for the message, if it is a signal or a command that a script can hold
(`Message.decode?_encode`). Such a command has no bar in its name and no comma in its argument, and
the vocabularies that can be used give no command the name of a signal, so it is safe on the wire
(`Message.wireSafe_of_speaks`).

`Message.survives_wire` says of every command and of every text what the wire makes of it.
-/

namespace Tandem

namespace Message

/-- A command that a script can hold is safe on the wire. -/
theorem wireSafe_of_speaks {v : Vocabulary} (hv : v.check = .ok ()) {name : String}
    {args : List String} (h : v.Speaks name args) : WireSafe name args where
  named := by
    rintro rfl
    cases h.1
  noBar hbar := by cases Line.isNameChar_of_isName h.1 _ hbar
  noSignal hm :=
    have hsignal := Vocabulary.not_signal_of_check hv h.2
    absurd (List.contains_iff_mem.mpr hm) (Bool.eq_false_iff.mp hsignal)
  noComma arg harg hcomma := by
    obtain rfl | ⟨a, rfl, -, ha⟩ := h.atMostOneWord
    · cases harg
    · obtain rfl := List.mem_singleton.mp harg
      cases ha _ hcomma
  notBlank hblank := by
    obtain rfl | ⟨a, rfl, hne, -⟩ := h.atMostOneWord
    · cases hblank
    · cases hblank
      exact hne rfl
  noLineEnd arg harg c hc := by
    obtain rfl | ⟨a, rfl, -, ha⟩ := h.atMostOneWord
    · cases harg
    · obtain rfl := Option.some.inj harg
      refine Bool.eq_false_iff.mpr fun hend => ?_
      have hword := ha c (List.mem_of_getLast? hc)
      rw [isLineEnd, Bool.or_eq_true, decide_eq_true_eq, decide_eq_true_eq] at hend
      obtain rfl | rfl := hend <;> cases hword

/-- A signal, or a command that a script can hold, is understood as it was sent. -/
theorem decode?_encode {v : Vocabulary} (hv : v.check = .ok ()) : ∀ {m : Message},
    (∀ name args, m = .command name args → v.Speaks name args) → decode? m.encode = some m
  | finish, _ => by decide
  | unlock, _ => by decide
  | run, _ => by decide
  | command name args, h => (wireSafe_of_speaks hv (h name args rfl)).decode?_encode

end Message

/-- The command is a loop, which is never sent, or a leaf that is understood as it was sent. -/
def Command.SurvivesWire : Command → Prop
  | leaf b =>
    Message.decode? (Message.encode (.command b.name b.args)) = some (.command b.name b.args)
  | loop .. => True

namespace Message

/-- A command is understood as it was sent just if it is safe on the wire. What is understood of any
text is understood again when it is sent on. A vocabulary that can be used lets no text give a leaf
that the wire changes or takes for a signal. -/
theorem survives_wire :
    (∀ name args, decode? (encode (.command name args)) = some (.command name args) ↔
      WireSafe name args) ∧
    (∀ wire m, decode? wire = some m → decode? m.encode = some m) ∧
    ∀ v : Vocabulary, v.check = .ok () → ∀ ls : List (List Char),
      (Script.ofLines v ls).script.Every Command.SurvivesWire := by
  refine ⟨fun name args => ⟨wireSafe_of_decode?, WireSafe.decode?_encode⟩, fun wire m h => ?_,
    fun v hv ls => ?_⟩
  · cases m with
    | command name args => exact (wireSafe_of_decode? h).decode?_encode
    | finish => decide
    | unlock => decide
    | run => decide
  · have hleaf : ∀ c, Command.SpokenIn v c → c.SurvivesWire
      | .leaf _, h => (wireSafe_of_speaks hv h).decode?_encode
      | .loop .., _ => trivial
    exact (Script.spokenIn_ofLines v ls).mono hleaf

/-- A text that ends with a line end, and a line that is read as a leaf. -/
theorem survives_wire_of_line :
    (decode? "MOVE|EAST\r\n" = some (.command "MOVE" ["EAST"]) ∧
      decode? (encode (.command "MOVE" ["EAST"])) = some (.command "MOVE" ["EAST"])) ∧
    Vocabulary.check .standard = .ok () ∧
      (Script.ofLines .standard ["L1: MOVE (EAST);".toList]).script.Every Command.SurvivesWire := by
  have hwire : decode? "MOVE|EAST\r\n" = some (.command "MOVE" ["EAST"]) := by decide +kernel
  have hv : Vocabulary.check .standard = .ok () := by decide +kernel
  exact ⟨⟨hwire, survives_wire.2.1 _ _ hwire⟩, hv, survives_wire.2.2 _ hv _⟩

end Message

end Tandem
