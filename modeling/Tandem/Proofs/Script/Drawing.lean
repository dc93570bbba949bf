import Tandem.Proofs.Script.Names
import Tandem.Script.Randomize
import Mathlib.Logic.Function.Iterate

/-!
# Directions that are drawn for a script

To draw directions changes the arguments of the leaves that take a direction, and nothing else.
Which leaves these are is a matter of their commands alone : in a vocabulary that can be used, a
command takes a direction just if its declaration says so (`Vocabulary.contains_directionNames`).

* One command becomes what `Command.Redrawn` says. At every path of a script the command has
  become one of these, whatever was left of the source when it was its turn
  (`Command.get?_randomize`).
* The leaves take the directions in the order in which they stand in the script, each leaf the next
  one that is drawn (`Command.draws_randomize`).

`ScriptStore.redraws_directions` puts these together, and adds that a script that can be read from
a text is still one afterwards.
-/

namespace Tandem

/-! ## Commands that take a direction -/

namespace Vocabulary

variable {v : Vocabulary} {name : String}

/-- The named command is declared to take a direction. -/
def takesDirection (v : Vocabulary) (name : String) : Bool :=
  (v.find? name).any (·.arg = .direction)

/-- The names of the commands that take a direction are those that the vocabulary declares so. -/
theorem contains_directionNames (hv : v.check = .ok ()) (name : String) :
    v.directionNames.contains name = v.takesDirection name := by
  rw [Bool.eq_iff_iff, List.contains_iff_mem, directionNames, takesDirection, Option.any_eq_true,
    List.mem_map]
  constructor
  · rintro ⟨d, hd, rfl⟩
    obtain ⟨hmem, harg⟩ := List.mem_filter.mp hd
    exact ⟨d, find?_of_check hv hmem, harg⟩
  · rintro ⟨d, hd, harg⟩
    exact ⟨d, List.mem_filter.mpr ⟨List.mem_of_find?_eq_some hd, harg⟩, name_of_find? hd⟩

/-- A command that takes a direction takes every one by its name. -/
theorem understands_direction (h : v.takesDirection name = true) (d : Direction) :
    v.understands name [d.name] = true := by
  obtain ⟨spec, hspec, harg⟩ := (Option.any_eq_true _ _).mp h
  rw [understands, hspec, Option.any_some, of_decide_eq_true harg, ArgKind.accepts,
    Direction.ofName?_name, Option.isSome_some]

end Vocabulary

section Source

variable {σ : Type} (draw : σ → Direction × σ)

/-- The directions that are drawn one after another. -/
def drawn : Nat → σ → List Direction
  | 0, _ => []
  | n + 1, source => (draw source).1 :: drawn n (draw source).2

/-- What is left of the source once that many directions are drawn. -/
def spent (n : Nat) (source : σ) : σ := (fun source => (draw source).2)^[n] source

/-- Draws in a row are those of the first part and then those of the rest. -/
theorem drawn_add (n : Nat) : ∀ (m : Nat) (source : σ),
    drawn draw (m + n) source = drawn draw m source ++ drawn draw n (spent draw m source)
  | 0, source => by rw [Nat.zero_add, drawn, List.nil_append, spent, Function.iterate_zero_apply]
  | m + 1, source => by
    rw [Nat.add_right_comm, drawn, drawn, drawn_add n m, List.cons_append, spent, spent,
      Function.iterate_succ_apply]

theorem spent_add (m n : Nat) (source : σ) :
    spent draw (m + n) source = spent draw n (spent draw m source) := by
  rw [Nat.add_comm, spent, Function.iterate_add_apply]
  rfl

end Source

namespace Command

variable {v : Vocabulary} {σ : Type}

/-! ## The command at a path -/

/-- What the drawing of directions makes of a command, without what is in it : a leaf that takes a
direction has some direction as its one argument, any other leaf is left as it is, and a loop is
left as it is but for its children. -/
inductive Redrawn (v : Vocabulary) : Command → Command → Prop
  | aimed {b : CommandHead} (h : v.takesDirection b.name = true) (d : Direction) :
      Redrawn v (leaf b) (leaf { b with args := [d.name] })
  | spared {b : CommandHead} (h : v.takesDirection b.name = false) : Redrawn v (leaf b) (leaf b)
  | loop (b : CommandHead) (n : UInt32) {cs cs' : List Command} (h : cs'.length = cs.length) :
      Redrawn v (loop b n cs) (loop b n cs')

section Paths

variable (names : List String) (draw : σ → Direction × σ)

theorem length_randomizeList (cs : List Command) (source : σ) :
    (randomizeList names draw cs source).1.length = cs.length := by
  induction cs generalizing source with
  | nil => rfl
  | cons c cs ih => exact congrArg (· + 1) (ih (randomize names draw c source).2.2)

theorem getElem?_randomizeList : ∀ (cs : List Command) (i : Nat) (source : σ), ∃ later,
    (randomizeList names draw cs source).1[i]? =
      cs[i]?.map fun c => (randomize names draw c later).1
  | [], _, source => ⟨source, rfl⟩
  | _ :: _, 0, source => ⟨source, rfl⟩
  | c :: cs, i + 1, source => getElem?_randomizeList cs i (randomize names draw c source).2.2

/-- At every path the command has been given its directions from what was left of the source. -/
theorem get?_randomize : ∀ (path : Path) (c : Command) (source : σ), ∃ later,
    (randomize names draw c source).1.get? path =
      (c.get? path).map fun d => (randomize names draw d later).1
  | [], _, source => ⟨source, rfl⟩
  | i :: path, leaf b, source => by
    refine ⟨source, ?_⟩
    unfold randomize
    split <;> rfl
  | i :: path, loop b n cs, source => by
    obtain ⟨later, hchild⟩ := getElem?_randomizeList names draw cs i source
    simp only [randomize, get?, children, hchild]
    cases cs[i]? with
    | none => exact ⟨source, rfl⟩
    | some c => exact get?_randomize path c later

end Paths

/-- A command is redrawn in nothing but its direction. -/
theorem redrawn_randomize (hv : v.check = .ok ()) (draw : σ → Direction × σ) (c : Command)
    (source : σ) : Redrawn v c (c.randomize v.directionNames draw source).1 := by
  cases c with
  | leaf b =>
    rw [randomize, Vocabulary.contains_directionNames hv]
    cases h : v.takesDirection b.name with
    | true => exact .aimed h (draw source).1
    | false => exact .spared h
  | loop b n cs => exact .loop b n (length_randomizeList _ draw cs source)

/-! ## The order of the draws -/

/-- The arguments of a leaf that takes a direction. -/
def aim? (v : Vocabulary) : Command → Option (List String)
  | leaf b => if v.takesDirection b.name then some b.args else none
  | loop .. => none

/-- The arguments of the leaves that take a direction, in order. -/
def aims (v : Vocabulary) (nodes : List (Path × Command)) : List (List String) :=
  nodes.filterMap fun node => aim? v node.2

/-- The commands that take a direction are found part by part. -/
theorem aims_append (ns ns' : List (Path × Command)) :
    aims v (ns ++ ns') = aims v ns ++ aims v ns' :=
  List.filterMap_append

/-- That many directions were drawn from the source, and the leaves that take one have got them
in order. -/
structure Draws (v : Vocabulary) (draw : σ → Direction × σ) (source : σ)
    (before after : List (Path × Command)) (n : Nat) (rest : σ) : Prop where
  count : n = (aims v before).length
  args : aims v after = (drawn draw n source).map fun d => [d.name]
  rest : rest = spent draw n source

/-- What is drawn for two parts in turn is drawn for both. -/
theorem Draws.append {draw : σ → Direction × σ} {source middle rest : σ}
    {before before' after after' : List (Path × Command)} {m n : Nat}
    (h : Draws v draw source before after m middle)
    (h' : Draws v draw middle before' after' n rest) :
    Draws v draw source (before ++ before') (after ++ after') (m + n) rest where
  count := by rw [aims_append, List.length_append, ← h.count, ← h'.count]
  args := by rw [aims_append, h.args, h'.args, drawn_add, List.map_append, ← h.rest]
  rest := by rw [h'.rest, h.rest, spent_add]

section Order

variable (draw : σ → Direction × σ)

mutual

/-- One direction is drawn for each leaf of the tree that takes one, in order. -/
theorem draws_randomize (hv : v.check = .ok ()) (path : Path) : ∀ (c : Command) (source : σ),
    let out := c.randomize v.directionNames draw source
    Draws v draw source (nodes path c) (nodes path out.1) out.2.1 out.2.2
  | leaf b, source => by
    rw [randomize, Vocabulary.contains_directionNames hv]
    cases h : v.takesDirection b.name with
    | true => exact ⟨by simp [nodes, aims, aim?, h], by simp [nodes, aims, aim?, h, drawn], rfl⟩
    | false => exact ⟨by simp [nodes, aims, aim?, h], by simp [nodes, aims, aim?, h, drawn], rfl⟩
  | loop b n cs, source => by
    obtain ⟨hcount, hargs, hrest⟩ := draws_randomizeList hv path 0 cs source
    exact ⟨hcount, hargs, hrest⟩

/-- One direction is drawn for each leaf of the trees that takes one, in order. -/
theorem draws_randomizeList (hv : v.check = .ok ()) (path : Path) :
    ∀ (i : Nat) (cs : List Command) (source : σ),
      let out := randomizeList v.directionNames draw cs source
      Draws v draw source (nodesList path i cs) (nodesList path i out.1) out.2.1 out.2.2
  | _, [], _ => ⟨rfl, rfl, rfl⟩
  | i, c :: cs, source =>
    (draws_randomize hv (path ++ [i]) c source).append
      (draws_randomizeList hv path (i + 1) cs (c.randomize v.directionNames draw source).2.2)

end

end Order

/-! ## Conditions on every command -/

section Every

variable {P : Command → Prop} (draw : σ → Direction × σ)

mutual

/-- What a redrawn command keeps, the whole tree keeps. -/
theorem Every.randomize (hv : v.check = .ok ()) (hP : ∀ {c c'}, Redrawn v c c' → P c → P c') :
    ∀ {c : Command}, c.Every P → ∀ source : σ,
      (c.randomize v.directionNames draw source).1.Every P
  | leaf b, h, source => by
    have hredrawn := redrawn_randomize hv draw (leaf b) source
    revert hredrawn
    generalize (randomize v.directionNames draw (leaf b) source).1 = c'
    rintro (⟨hb, d⟩ | hb | -)
    · exact hP (.aimed hb d) h
    · exact h
  | loop b n cs, h, source =>
    ⟨hP (redrawn_randomize hv draw (loop b n cs) source) h.1,
      EveryOf.randomizeList hv hP h.2 source⟩

theorem EveryOf.randomizeList (hv : v.check = .ok ())
    (hP : ∀ {c c'}, Redrawn v c c' → P c → P c') :
    ∀ {cs : List Command}, EveryOf P cs → ∀ source : σ,
      EveryOf P (Command.randomizeList v.directionNames draw cs source).1
  | [], _, _ => trivial
  | _ :: _, h, source => ⟨h.1.randomize hv hP source, EveryOf.randomizeList hv hP h.2 _⟩

end

end Every

/-- A redrawn command can still be said in the vocabulary. -/
theorem SpokenIn.redrawn {c c' : Command} (h : Redrawn v c c') (hc : c.SpokenIn v) :
    c'.SpokenIn v := by
  cases h with
  | aimed hb d => exact ⟨hc.1, Vocabulary.understands_direction hb d⟩
  | spared hb => exact hc
  | loop => trivial

theorem Redrawn.disabled_eq {c c' : Command} (h : Redrawn v c c') : c'.disabled = c.disabled := by
  cases h <;> rfl

end Command

namespace Script

open Command

variable {v : Vocabulary} {σ : Type}

/-- The arguments of the leaves of the script that take a direction, in order. -/
def aims (v : Vocabulary) (s : Script) : List (List String) := Command.aims v s.nodes

/-- Each place of a script is that of the old one, redrawn. -/
theorem redrawn_get? (hv : v.check = .ok ()) (draw : σ → Direction × σ) (s : Script) (source : σ)
    (path : Path) : Option.Rel (Redrawn v) (s.get? path)
      (get? ⟨(randomizeList v.directionNames draw s.commands source).1⟩ path) := by
  cases path with
  | nil => exact .none
  | cons i path =>
    obtain ⟨later, hchild⟩ := getElem?_randomizeList v.directionNames draw s.commands i source
    simp only [get?, hchild]
    cases s.commands[i]? with
    | none => exact .none
    | some c =>
      obtain ⟨later', hpath⟩ := get?_randomize v.directionNames draw path c later
      simp only [Option.map_some, hpath]
      cases c.get? path with
      | none => exact .none
      | some d => exact .some (redrawn_randomize hv draw d later')

end Script

namespace ScriptStore

open Command

/-- To draw directions for a script that is loaded leaves the reference copy and what is being
edited as they are. In the working script the leaves whose commands take a direction, be they
disabled or not and wherever they stand, have the next directions of the source as their arguments,
and as many leaves are reported as changed. Any other leaf is left as it is, and so is what a loop
has beside its children. A script that can be read from a text still can, with no line left out. -/
theorem redraws_directions {v : Vocabulary} (hv : v.check = .ok ()) {σ : Type}
    (draw : σ → Direction × σ) (source : σ) {t : ScriptStore} {s : Script}
    (hs : t.working = some s) : ∃ s' : Script,
      t.randomize v draw source = ({ t with working := some s' }, (s.aims v).length) ∧
      s'.aims v = (drawn draw (s.aims v).length source).map (fun d => [d.name]) ∧
      s'.length = s.length ∧
      (∀ path, Option.Rel (Redrawn v) (s.get? path) (s'.get? path)) ∧
      (s.Every (SpokenIn v) → s'.Every (SpokenIn v) ∧
        ∀ style : Style, (style.rich = true → s.Every fun c => c.disabled = false) →
          (Script.ofText v (s'.text style)).omissions = [] ∧
          (Script.ofText v (s'.text style)).script.sameCode s' = true) := by
  have hdraws := draws_randomizeList draw hv [] 0 s.commands source
  refine ⟨⟨(randomizeList v.directionNames draw s.commands source).1⟩, ?_, ?_,
    length_randomizeList _ draw _ _, s.redrawn_get? hv draw source, fun hspoken => ?_⟩
  · rw [randomize, hs]
    exact congrArg (Prod.mk _) hdraws.count
  · exact hdraws.args.trans (by rw [hdraws.count]; rfl)
  · have hspoken' : Script.Every (SpokenIn v)
        ⟨(randomizeList v.directionNames draw s.commands source).1⟩ :=
      EveryOf.randomizeList draw hv SpokenIn.redrawn hspoken source
    refine ⟨hspoken', fun style henabled => ?_⟩
    have henabled' : style.rich = true → Script.Every (fun c => c.disabled = false)
        ⟨(randomizeList v.directionNames draw s.commands source).1⟩ := fun hrich =>
      EveryOf.randomizeList draw hv (fun h hc => h.disabled_eq.trans hc) (henabled hrich) source
    rw [Script.ofText_text_eq_rebuilt hspoken' henabled']
    exact ⟨rfl, Script.sameCode_rebuilt _⟩

/-- A walk with a disabled move in a loop. -/
def patrol : Script :=
  ⟨[.ofName "MOVE" ["EAST"],
    .repeated 3 [(Command.ofName "MOVE" ["EAST"]).setDisabled true, .ofName "Climb_Up" []]]⟩

/-- The patrol gets two directions, drawn from three words the second of which is passed over. -/
theorem redraws_directions_of_patrol :
    Vocabulary.standard.check = .ok () ∧
    patrol.Every (SpokenIn .standard) ∧
    ∃ s' : Script,
      (empty.load patrol).randomize .standard drawDirection [0x40000000, 0x20000000, 0xC0000000] =
        ({ empty.load patrol with working := some s' }, 2) ∧
      s'.aims .standard = [["SOUTH"], ["WEST"]] ∧
      (Script.ofText .standard (s'.text .labelled)).omissions = [] := by
  have hv : Vocabulary.standard.check = .ok () := by decide +kernel
  have hspoken : patrol.Every (SpokenIn .standard) := by
    simp only [Script.Every, patrol, Command.repeated, Command.ofName, Command.setDisabled,
      Command.mapFlags, Command.mapHead, Command.EveryOf, Command.Every, Command.SpokenIn,
      Vocabulary.Speaks, and_true, true_and]
    decide +kernel
  have hcount : (patrol.aims .standard).length = 2 := by decide +kernel
  obtain ⟨s', hout, haims, -, -, hread⟩ := redraws_directions hv drawDirection
    [0x40000000, 0x20000000, 0xC0000000] (t := empty.load patrol) rfl
  rw [hcount] at hout haims
  exact ⟨hv, hspoken, s', hout, haims.trans (by decide +kernel),
    ((hread hspoken).2 .labelled fun h => absurd h Bool.false_ne_true).1⟩

end ScriptStore

end Tandem
