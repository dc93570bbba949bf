import Tandem.Proofs.Script.RoundTrip

/-!
# Names that a script can give

The names of a vocabulary that can be used are all different, and none is the name of a signal
(`Vocabulary.distinct_of_checkNames`). Yet it may declare commands that no script can give :
`Vocabulary.check` refuses the names that hold certain characters, while a line can only give names
of letters, digits and underscores. A declared command with arguments that it takes is read back
from its own line just if its name is one of these (`Vocabulary.reads_back_iff`).
-/

namespace Tandem

namespace Vocabulary

/-! ## Declarations and their names -/

/-- A name that passes the check is neither taken nor reserved. -/
theorem new_of_checkName {earlier : List String} {name : String}
    (h : checkName earlier name = .ok ()) : name ∉ earlier ∧ isReserved name = false := by
  unfold checkName at h
  split_ifs at h with _ hr hm
  exact ⟨hm, Bool.eq_false_iff.mpr hr⟩

/-- Names that can be declared are all different, and none of them is reserved. -/
theorem distinct_of_checkNames : ∀ {names earlier : List String},
    checkNames earlier names = .ok () →
      names.Nodup ∧ ∀ name ∈ names, name ∉ earlier ∧ isReserved name = false
  | [], _, _ => ⟨.nil, nofun⟩
  | name :: names, earlier, h => by
    rw [checkNames] at h
    split at h
    · cases h
    · next hname =>
      obtain ⟨hnodup, hlater⟩ := distinct_of_checkNames h
      refine ⟨List.nodup_cons.mpr ⟨fun hm => (hlater name hm).1 List.mem_cons_self, hnodup⟩, ?_⟩
      refine List.forall_mem_cons.mpr ⟨new_of_checkName hname, fun n hn => ?_⟩
      exact (hlater n hn).imp (fun hnew he => hnew (List.mem_cons_of_mem name he)) id

theorem checkNames_of_check {v : Vocabulary} (hv : v.check = .ok ()) :
    checkNames [] (v.commands.map (·.name)) = .ok () := by
  unfold check at hv
  split at hv
  · cases hv
  · split at hv
    · cases hv
    · next hnames => exact hnames

/-- Where no name is declared twice, each declaration is found by its name. -/
theorem find?_of_nodup {d : Declaration} : ∀ {ds : List Declaration}, (ds.map (·.name)).Nodup →
    d ∈ ds → ds.find? (fun spec => spec.name = d.name) = some d
  | e :: ds, hnodup, hd => by
    rw [List.map_cons, List.nodup_cons] at hnodup
    obtain rfl | hd := List.mem_cons.mp hd
    · exact List.find?_cons_of_pos (decide_eq_true rfl)
    · have hne : decide (e.name = d.name) = false := decide_eq_false fun he => by
        rw [he] at hnodup
        exact hnodup.1 (List.mem_map_of_mem hd)
      simp only [List.find?_cons, hne, find?_of_nodup hnodup.2 hd]

/-- In a vocabulary that can be used, each declaration is found by its name. -/
theorem find?_of_check {v : Vocabulary} (hv : v.check = .ok ()) {d : Declaration}
    (hd : d ∈ v.commands) : v.find? d.name = some d :=
  find?_of_nodup (distinct_of_checkNames (checkNames_of_check hv)).1 hd

/-- No command of a vocabulary that can be used has the name of a signal. -/
theorem not_signal_of_check {v : Vocabulary} (hv : v.check = .ok ()) {name : String}
    {args : List String} (h : v.understands name args = true) : isSignalName name = false := by
  obtain ⟨spec, hspec, -⟩ := (Option.any_eq_true _ _).mp h
  have hmem : name ∈ v.commands.map (·.name) :=
    List.mem_map.mpr ⟨spec, List.mem_of_find?_eq_some hspec, name_of_find? hspec⟩
  have hr := ((distinct_of_checkNames (checkNames_of_check hv)).2 name hmem).2
  rw [isReserved, Bool.or_eq_false_iff] at hr
  exact hr.2

/-- A vocabulary understands what it declares, with arguments that are accepted. -/
theorem understands_of_check {v : Vocabulary} (hv : v.check = .ok ()) {d : Declaration}
    (hd : d ∈ v.commands) {args : List String} (ha : d.arg.accepts args = true) :
    v.understands d.name args = true := by
  rw [understands, find?_of_check hv hd]
  exact ha

/-! ## Reading a command back -/

/-- The script of that one command. -/
def scriptOf (d : Declaration) (args : List String) : Script := ⟨[.ofName d.name args]⟩

theorem isName_of_read {v : Vocabulary} {text : String} {d : Declaration} {args : List String}
    (h : Script.ofText v text = ⟨scriptOf d args, []⟩) : Line.isName d.name.toList = true := by
  have hspoken := Script.spokenIn_ofText v text
  rw [h] at hspoken
  exact hspoken.1.1

/-- A declared command, with arguments that it takes, is read back from the line that it is written
as just if its name is one that a line can give. -/
theorem reads_back_iff {v : Vocabulary} (hv : v.check = .ok ()) {d : Declaration}
    (hd : d ∈ v.commands) {args : List String} (ha : d.arg.accepts args = true) :
    Script.ofText v ((scriptOf d args).text .plain) = ⟨scriptOf d args, []⟩ ↔
      Line.isName d.name.toList = true := by
  refine ⟨isName_of_read, fun hname => ?_⟩
  have hspoken : (scriptOf d args).Every (Command.SpokenIn v) :=
    ⟨⟨hname, understands_of_check hv hd ha⟩, trivial⟩
  exact Script.ofText_text_eq_rebuilt hspoken nofun

/-- The grid avatar's moves are read back. -/
theorem reads_back_of_move :
    Vocabulary.standard.check = .ok () ∧
    ⟨"MOVE", .direction, true, false⟩ ∈ Vocabulary.standard.commands ∧
    ArgKind.direction.accepts ["EAST"] = true ∧
    Script.ofText .standard ((scriptOf ⟨"MOVE", .direction, true, false⟩ ["EAST"]).text .plain) =
      ⟨scriptOf ⟨"MOVE", .direction, true, false⟩ ["EAST"], []⟩ := by
  have hv : Vocabulary.standard.check = .ok () := by decide +kernel
  have hd : ⟨"MOVE", .direction, true, false⟩ ∈ Vocabulary.standard.commands :=
    List.mem_cons_self
  have ha : ArgKind.direction.accepts ["EAST"] = true := by decide +kernel
  exact ⟨hv, hd, ha, (reads_back_iff hv hd ha).mpr (by decide +kernel)⟩

/-- A turn whose name has a hyphen in it. -/
def hyphenated : Declaration := ⟨"Turn-Left", .none, false, false⟩

/-- A vocabulary that declares it. -/
def withHyphenated : Vocabulary where
  commands := [hyphenated, ⟨"Continue_Sec", .number, true, false⟩]
  waitCommand := "Continue_Sec"

/-- The vocabulary can be used, but the turn that it declares is left out of the script that is read
from its own line. -/
theorem hyphenated_left_out :
    withHyphenated.check = .ok () ∧ hyphenated ∈ withHyphenated.commands ∧
    hyphenated.arg.accepts [] = true ∧
    Script.ofText withHyphenated ((scriptOf hyphenated []).text .plain) =
      ⟨.empty, [⟨1, .unknownCommand, "Turn-Left ();"⟩]⟩ ∧
    Script.ofText withHyphenated ((scriptOf hyphenated []).text .plain) ≠
      ⟨scriptOf hyphenated [], []⟩ := by
  have hv : withHyphenated.check = .ok () := by
    simp only [withHyphenated, hyphenated]
    decide +kernel
  have hread : Script.ofText withHyphenated ((scriptOf hyphenated []).text .plain) =
      ⟨.empty, [⟨1, .unknownCommand, "Turn-Left ();"⟩]⟩ := by decide +kernel
  refine ⟨hv, List.mem_cons_self, rfl, hread, fun h => ?_⟩
  cases hread.symm.trans h

end Vocabulary

end Tandem
