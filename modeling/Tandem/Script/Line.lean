import Tandem.Text.Blank
import Tandem.Text.DecimalDigit
import Tandem.Text.Lines
import Tandem.Decimal.Basic

/-!
# Lines of a script text

A script text is read line by line. A line may start with a label, `L` with a line number and
a colon, the label perhaps in a colour; the label says nothing. What is left is blank, opens
a loop (`LOOP REPEAT` and a brace), closes a loop (a brace, a count and `Times`), or gives a
command: a name, perhaps arguments in parentheses, perhaps a semicolon. `Line.ofText` tells
which, whatever the vocabulary.
-/

namespace Tandem

/-- What a line of a script text says. -/
inductive Line where
  | blank
  | loopOpen
  | loopClose (count : UInt32)
  | command (name : String) (args : List String)
  | unknown
deriving DecidableEq, Repr

namespace Line

/-- The text behind the word, if the text starts with it. -/
def after? : List Char → List Char → Option (List Char)
  | [], cs => some cs
  | w :: ws, c :: cs => if w = c then after? ws cs else none
  | _ :: _, [] => none

/-- A hexadecimal digit. -/
def isHexDigit (c : Char) : Bool :=
  c.isDigit || ('a' ≤ c && c ≤ 'f') || ('A' ≤ c && c ≤ 'F')

/-- The text without the mark that starts a colour, if it starts with one. -/
def dropColour (cs : List Char) : List Char :=
  match after? "<color=#".toList cs with
  | some (a :: b :: c :: d :: e :: f :: '>' :: rest) =>
    if [a, b, c, d, e, f].all isHexDigit then rest else cs
  | _ => cs

/-- The text without the mark that ends a colour, if it starts with one. -/
def dropColourEnd (cs : List Char) : List Char :=
  (after? "</color>".toList cs).getD cs

/-- The text behind the label that it starts with. -/
def afterLabel? (cs : List Char) : Option (List Char) :=
  match dropColour cs with
  | 'L' :: cs =>
    if cs.takeWhile Text.isDecimalDigit = [] then none
    else
      match dropColourEnd (cs.dropWhile Text.isDecimalDigit) with
      | ':' :: rest => some rest
      | _ => none
  | _ => none

/-- The text without the label it may start with, and without the blanks behind that. -/
def dropLabel (cs : List Char) : List Char :=
  match afterLabel? cs with
  | some rest => Text.trimStart rest
  | none => cs

/-- The text opens a loop. -/
def isLoopOpen (cs : List Char) : Bool :=
  match after? "LOOP".toList cs with
  | some (c :: rest) =>
    Text.isBlank c &&
      (match after? "REPEAT".toList (Text.trimStart rest) with
      | some rest => Text.trimStart rest = ['\x7b']
      | none => false)
  | _ => false

/-- Nothing is left but blanks and perhaps one semicolon at the end. -/
def isEnd (cs : List Char) : Bool :=
  let rest := Text.trimStart cs
  rest = [] || rest = [';']

/-- The digits of the count, if the text closes a loop. -/
def closingDigits? : List Char → Option (List Char)
  | '\x7d' :: cs =>
    let cs := Text.trimStart cs
    let digits := cs.takeWhile Text.isDecimalDigit
    match after? "Times".toList (Text.trimStart (cs.dropWhile Text.isDecimalDigit)) with
    | some rest => if digits ≠ [] ∧ isEnd rest = true then some digits else none
    | none => none
  | _ => none

/-- A character that a command name may start with. -/
def isNameStart (c : Char) : Bool :=
  c.isAlpha || c = '_'

/-- A character that a command name may go on with. -/
def isNameChar (c : Char) : Bool :=
  c.isAlphanum || c = '_'

/-- A character that can stand between the parentheses of a command. -/
def isInside (c : Char) : Bool :=
  c ≠ '(' && c ≠ ')'

/-- The name of the command that the text gives, and what stands in its parentheses. -/
def nameAndInside? : List Char → Option (List Char × List Char)
  | [] => none
  | c :: cs =>
    if isNameStart c then
      let name := c :: cs.takeWhile isNameChar
      match Text.trimStart (cs.dropWhile isNameChar) with
      | '(' :: rest =>
        match rest.dropWhile isInside with
        | ')' :: behind => if isEnd behind then some (name, rest.takeWhile isInside) else none
        | _ => none
      | rest => if isEnd rest then some (name, []) else none
    else none

/-- The arguments that the text between parentheses gives: what stands between its commas,
without the blanks around each, or nothing if the text is blank. -/
def argsOfInside (inside : List Char) : List String :=
  let cs := Text.trim inside
  if cs = [] then [] else (Text.pieces ',' cs).map fun p => String.ofList (Text.trim p)

/-- What a text without a label says, if it is not blank. -/
def ofBody (cs : List Char) : Line :=
  if isLoopOpen cs then loopOpen
  else
    match closingDigits? cs with
    | some digits =>
      match readCount? digits with
      | some n => loopClose n
      | none => unknown
    | none =>
      match nameAndInside? cs with
      | some (name, inside) => command (String.ofList name) (argsOfInside inside)
      | none => unknown

/-- What a line says. -/
def ofText (raw : List Char) : Line :=
  let cs := Text.trim raw
  if cs = [] then blank else ofBody (dropLabel cs)

end Line

end Tandem
