import BrokerAdmin.Toml.Moment

/-!
# Values in TOML

The values that a TOML document is made of. Dates and times are values of their own here; in a value of a
document they become what its reader shows them as.
-/

namespace BrokerAdmin.Toml

/-- A value of a TOML document. -/
inductive Datum where
  | bool (value : Bool)
  | int (value : Int)
  | float (value : Binary64)
  | text (value : String)
  | moment (value : Moment)
  | list (items : List Datum)
  | table (fields : List (String × Datum))

namespace Datum

variable (shown : Moment → Value)

mutual

/-- The value that stands for one of TOML, dates and times being shown in a given way. -/
def toValue : Datum → Value
  | bool value => .bool value
  | int value => .int value
  | float value => .float value
  | text value => .text value
  | moment value => shown value
  | list items => .list (itemValues items)
  | table fields => .table (fieldValues fields)

/-- The values that stand for the items of a list. -/
def itemValues : List Datum → List Value
  | [] => []
  | item :: rest => item.toValue :: itemValues rest

/-- The values that stand for those of fields. -/
def fieldValues : List (String × Datum) → List (String × Value)
  | [] => []
  | (name, value) :: rest => (name, value.toValue) :: fieldValues rest

end

end Datum

end BrokerAdmin.Toml
