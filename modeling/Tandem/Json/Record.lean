import Tandem.Json.Number

/-!
# Reading records out of JSON

A record is written as an object, whose fields may come in any order, or as an array of the
field values in the order of the record. A field that the record does not know is passed over,
and a field that it knows may not come twice. A choice among names is written as one of the
names, or as an object with that name and `null`.
-/

namespace Tandem.Json

/-- The values of the named fields, in the order of the names. -/
def record? (names : List String) : Json → Option (List (Option Json))
  | .object fields =>
    if fields.any (fun f => f.1.isNone) ∨
        names.any (fun name => 1 < fields.countP fun f => f.1 = some name) then none
    else some (names.map fun name => (fields.find? fun f => f.1 = some name).map Prod.snd)
  | .array items =>
    if items.length ≤ names.length then
      some ((List.range names.length).map fun i => items[i]?)
    else none
  | _ => none

/-- A field that must be there. -/
def required? {α : Type} (decode : Json → Option α) : Option Json → Option α
  | some v => decode v
  | none => none

/-- A field that has a default. -/
def orDefault? {α : Type} (decode : Json → Option α) (default : α) : Option Json → Option α
  | some v => decode v
  | none => some default

/-- The text of a string. -/
def string? : Json → Option String
  | .string text => text
  | _ => none

/-- A truth value. -/
def bool? : Json → Option Bool
  | .bool b => some b
  | _ => none

/-- A number in single precision. -/
def float32? : Json → Option Float32
  | .number n => n.toFloat32?
  | _ => none

/-- A whole number that 32 bits hold with a sign. -/
def int32? : Json → Option Int
  | .number n =>
    match n.toInt? with
    | some i => if -0x80000000 ≤ i ∧ i < 0x80000000 then some i else none
    | none => none
  | _ => none

/-- A list of values. -/
def list? {α : Type} (decode : Json → Option α) : Json → Option (List α)
  | .array items => items.mapM decode
  | _ => none

/-- A value, or `null` for none. -/
def optional? {α : Type} (decode : Json → Option α) : Json → Option (Option α)
  | .null => some none
  | v => (decode v).map some

/-- One of the named choices. -/
def choice? {α : Type} (choices : List (String × α)) : Json → Option α
  | .string (some name) => choices.lookup name
  | .object [(some name, .null)] => choices.lookup name
  | _ => none

end Tandem.Json
