import Tandem.Script.Basic

/-!
# Writing scripts

A script is written with one statement for each top-level command. A leaf is its name with its
arguments in parentheses; a loop is a block whose children stand on lines of their own,
indented by its depth. A text for display may carry a label in front of each statement, and in
rich text the labels are coloured and disabled commands are faded and struck out. The plain
text is read back to the same code.
-/

namespace Tandem

/-- How a script is written. -/
structure Style where
  /-- With colours for labels and faded disabled commands. -/
  rich : Bool
  /-- With the line number in front of each top-level command. -/
  labels : Bool
deriving DecidableEq, Repr

namespace Style

/-- The text that scripts are stored as. -/
def plain : Style := ⟨false, false⟩

/-- The text that scripts are shown as. -/
def labelled : Style := ⟨false, true⟩

end Style

/-- The blanks in front of a line at that depth. -/
def indentation (depth : Nat) : String :=
  String.ofList (List.replicate (4 * depth) ' ')

/-- The text, faded and struck out if it is to be. -/
def faded (fade : Bool) (text : String) : String :=
  if fade then "<alpha=#44><s>" ++ text ++ "</s><alpha=#FF>" else text

namespace Command

/-- The word in front of a loop where it stands as a statement. -/
def keyword (c : Command) : String :=
  if c.isLoop then loopName ++ " " else ""

mutual

/-- The text of the command at that depth, without its keyword and semicolon. -/
def text (rich : Bool) (depth : Nat) : Command → String
  | leaf b =>
    faded (rich && b.flags.disabled) (b.name ++ " (" ++ String.intercalate "," b.args ++ ")")
  | loop b n cs =>
    faded (rich && b.flags.disabled)
      ("REPEAT \x7b\n" ++ childTexts rich (depth + 1) cs ++ indentation depth ++ "\x7d " ++
        countText n ++ " Times")

/-- The lines of the children at that depth. -/
def childTexts (rich : Bool) (depth : Nat) : List Command → String
  | [] => ""
  | c :: cs =>
    indentation depth ++ c.keyword ++ text rich depth c ++ "\n" ++ childTexts rich depth cs

end

/-- The command as a statement. -/
def statement (rich : Bool) (c : Command) : String :=
  c.keyword ++ c.text rich 0 ++ ";"

end Command

namespace Script

/-- The label in front of the statement of that number. -/
def label (style : Style) (number : Nat) : String :=
  if style.labels then
    if style.rich then "<color=#24A0FF>L" ++ number.repr ++ "</color>: "
    else "L" ++ number.repr ++ ": "
  else ""

/-- The statements of the commands, the first one having that number. -/
def statements (style : Style) : Nat → List Command → String
  | _, [] => ""
  | number, c :: cs =>
    label style number ++ c.statement style.rich ++ "\n" ++ statements style (number + 1) cs

/-- The text of the script. -/
def text (style : Style) (s : Script) : String :=
  statements style 1 s.commands

end Script

end Tandem
