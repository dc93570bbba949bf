import Tandem.Json.Basic
import Tandem.Decimal.Basic

/-!
# Reading JSON

The reader takes the JSON grammar as it stands: no comments, no trailing commas, no needless
zeros in front of a number, no control characters inside a string, and nothing but blanks
after the value. Each reading function gives what it read and the rest of the text. The depth
of nesting is bounded by the length of the text, which serves as the bound of the recursion.
-/

namespace Tandem.Json

/-- The text without the blanks of JSON it starts with. -/
def skipBlanks (cs : List Char) : List Char :=
  cs.dropWhile fun c => c = ' ' || c = '\n' || c = '\t' || c = '\r'

/-- The value of a hexadecimal digit. -/
def hexValue? (c : Char) : Option Nat :=
  if '0' ≤ c ∧ c ≤ '9' then some (c.toNat - '0'.toNat)
  else if 'a' ≤ c ∧ c ≤ 'f' then some (c.toNat - 'a'.toNat + 10)
  else if 'A' ≤ c ∧ c ≤ 'F' then some (c.toNat - 'A'.toNat + 10)
  else none

/-- The number that four hexadecimal digits write. -/
def unitOfHex? (a b c d : Char) : Option Nat := do
  let a ← hexValue? a
  let b ← hexValue? b
  let c ← hexValue? c
  let d ← hexValue? d
  pure (((a * 16 + b) * 16 + c) * 16 + d)

/-- The character that a one-letter escape stands for. -/
def escaped? (c : Char) : Option Char :=
  match c with
  | '"' => some '"'
  | '\\' => some '\\'
  | '/' => some '/'
  | 'b' => some '\x08'
  | 'f' => some '\x0c'
  | 'n' => some '\n'
  | 'r' => some '\r'
  | 't' => some '\t'
  | _ => none

/-- The numbers of the characters up to the closing quote, escapes resolved but surrogates
left single, in front of which `units` were read, the last one first. -/
def readUnits : List Char → List Nat → Option (List Nat × List Char)
  | [], _ => none
  | '"' :: cs, units => some (units.reverse, cs)
  | '\\' :: 'u' :: a :: b :: c :: d :: cs, units =>
    match unitOfHex? a b c d with
    | some u => readUnits cs (u :: units)
    | none => none
  | '\\' :: c :: cs, units =>
    match escaped? c with
    | some e => readUnits cs (e.toNat :: units)
    | none => none
  | c :: cs, units => if c.toNat < 0x20 ∨ c = '\\' then none else readUnits cs (c.toNat :: units)

/-- The characters of a sequence of numbers in which a high and a low surrogate together name
one character. A single surrogate names none. -/
def textOfUnits : List Nat → Option (List Char)
  | [] => some []
  | u :: v :: us =>
    if 0xD800 ≤ u ∧ u < 0xDC00 then
      if 0xDC00 ≤ v ∧ v < 0xE000 then
        (textOfUnits us).map
          (Char.ofNat (0x10000 + (u - 0xD800) * 0x400 + (v - 0xDC00)) :: ·)
      else none
    else if 0xDC00 ≤ u ∧ u < 0xE000 then none
    else (textOfUnits (v :: us)).map (Char.ofNat u :: ·)
  | [u] => if 0xD800 ≤ u ∧ u < 0xE000 then none else some [Char.ofNat u]

/-- The string behind an opening quote. -/
def readString (cs : List Char) : Option (Text × List Char) :=
  (readUnits cs []).map fun (units, rest) => ((textOfUnits units).map String.ofList, rest)

/-- The digits at the start of the text, of which there must be one. -/
def readDigits (cs : List Char) : Option (List Char × List Char) :=
  let ds := cs.takeWhile Char.isDigit
  if ds = [] then none else some (ds, cs.dropWhile Char.isDigit)

/-- The digits behind the point of a number, none if there is no point. -/
def readFraction : List Char → Option (List Char × List Char)
  | '.' :: cs => readDigits cs
  | cs => some ([], cs)

/-- The power of ten of a number, if it has one. -/
def readExponent : List Char → Option (Option Int × List Char)
  | c :: cs =>
    if c = 'e' ∨ c = 'E' then do
      let (negative, cs) := Decimal.splitSign cs
      let (ds, rest) ← readDigits cs
      let n : Int := Decimal.natOfDigits ds
      pure (some (if negative then -n else n), rest)
    else some (none, c :: cs)
  | [] => some (none, [])

/-- The number behind its sign. -/
def readNumber (negative : Bool) (cs : List Char) : Option (Number × List Char) := do
  let (whole, cs) ← readDigits cs
  if whole.length ≠ 1 ∧ whole.head? = some '0' then none
  else
    let (fraction, cs) ← readFraction cs
    let (power, cs) ← readExponent cs
    pure (⟨negative, whole, fraction, power⟩, cs)

mutual

/-- The value at the start of the text, nested less deep than `depth`. -/
def readValue : Nat → List Char → Option (Json × List Char)
  | 0, _ => none
  | depth + 1, cs =>
    match skipBlanks cs with
    | 'n' :: 'u' :: 'l' :: 'l' :: cs => some (.null, cs)
    | 't' :: 'r' :: 'u' :: 'e' :: cs => some (.bool true, cs)
    | 'f' :: 'a' :: 'l' :: 's' :: 'e' :: cs => some (.bool false, cs)
    | '"' :: cs => (readString cs).map fun (text, cs) => (.string text, cs)
    | '[' :: cs =>
      match skipBlanks cs with
      | ']' :: cs => some (.array [], cs)
      | cs => (readItems depth cs).map fun (items, cs) => (.array items, cs)
    | '\x7b' :: cs =>
      match skipBlanks cs with
      | '\x7d' :: cs => some (.object [], cs)
      | cs => (readFields depth cs).map fun (fields, cs) => (.object fields, cs)
    | '-' :: cs => (readNumber true cs).map fun (n, cs) => (.number n, cs)
    | cs => (readNumber false cs).map fun (n, cs) => (.number n, cs)

/-- The items of an array up to its end, of which there is at least one. -/
def readItems : Nat → List Char → Option (List Json × List Char)
  | 0, _ => none
  | depth + 1, cs =>
    match readValue depth cs with
    | none => none
    | some (item, cs) =>
      match skipBlanks cs with
      | ']' :: cs => some ([item], cs)
      | ',' :: cs => (readItems depth cs).map fun (items, cs) => (item :: items, cs)
      | _ => none

/-- The fields of an object up to its end, of which there is at least one. -/
def readFields : Nat → List Char → Option (List (Text × Json) × List Char)
  | 0, _ => none
  | depth + 1, cs =>
    match skipBlanks cs with
    | '"' :: cs =>
      match readString cs with
      | none => none
      | some (name, cs) =>
        match skipBlanks cs with
        | ':' :: cs =>
          match readValue depth cs with
          | none => none
          | some (value, cs) =>
            match skipBlanks cs with
            | '\x7d' :: cs => some ([(name, value)], cs)
            | ',' :: cs =>
              (readFields depth cs).map fun (fields, cs) => ((name, value) :: fields, cs)
            | _ => none
        | _ => none
    | _ => none

end

/-- The value that the whole text writes. -/
def read? (s : String) : Option Json :=
  let cs := s.toList
  match readValue (2 * cs.length + 2) cs with
  | some (v, rest) => if skipBlanks rest = [] then some v else none
  | none => none

end Tandem.Json
