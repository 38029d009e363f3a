import Mathlib.Data.Rat.Defs

/-!
# JSON

JSON values.
-/

namespace Texts

/-- A JSON value; a number stands for its exact value. -/
inductive Json
  | null
  | bool (value : Bool)
  | num (value : Rat)
  | str (value : String)
  | arr (items : List Json)
  | obj (fields : List (String × Json))

namespace Json

/-- `value[name]`, where `value` is an object that has the field. -/
def field? (name : String) : Json → Option Json
  | obj fields => (fields.find? fun f => f.1 = name).map Prod.snd
  | _ => none

/-- The number that a value is. -/
def num? : Json → Option Rat
  | num value => some value
  | _ => none

/-- The text that a value is. -/
def str? : Json → Option String
  | str value => some value
  | _ => none

/-- How the type of a value, or of a missing one, is named in a message. -/
def typeName : Option Json → String
  | none => "undefined"
  | some .null => "null"
  | some (.bool _) => "boolean"
  | some (.num _) => "number"
  | some (.str _) => "string"
  | some (.arr _) => "array"
  | some (.obj _) => "object"

end Json

end Texts
