import BrokerAdmin.Binary64.Basic
import BrokerAdmin.Catalog

/-!
# Values of documents

The values that configuration files, requests and message properties are made of. Whole numbers are
kept exactly and apart from numbers in binary floating point. The fields of a table stand in the order
in which they were written, repetitions included; the canonical form has them sorted, and of
repeated fields the last.
-/

namespace BrokerAdmin

/-- A value of a document. -/
inductive Value where
  | null
  | bool (value : Bool)
  | int (value : Int)
  | float (value : Binary64)
  | text (value : String)
  | list (items : List Value)
  | table (fields : List (String × Value))

namespace Value

instance : Inhabited Value := ⟨null⟩

mutual

/-- The value with the fields of all its tables sorted, of repeated ones the last. -/
def canonical : Value → Value
  | list items => list (canonicalItems items)
  | table fields => table (Catalog.ofList (canonicalFields fields)).entries
  | value => value

/-- Canonical items of a list. -/
def canonicalItems : List Value → List Value
  | [] => []
  | item :: rest => canonical item :: canonicalItems rest

/-- Canonical values of fields. -/
def canonicalFields : List (String × Value) → List (String × Value)
  | [] => []
  | (name, value) :: rest => (name, canonical value) :: canonicalFields rest

end

mutual

/-- Whether two values are equal; numbers are by their worth, so that the two zeros are. -/
def same : Value → Value → Bool
  | null, null => true
  | bool a, bool b => a == b
  | int a, int b => a == b
  | float x, float y => x.same y
  | text s, text t => s == t
  | list as, list bs => sameItems as bs
  | table as, table bs => sameFields as bs
  | _, _ => false

/-- Whether two lists hold equal values in the same places. -/
def sameItems : List Value → List Value → Bool
  | [], [] => true
  | a :: as, b :: bs => same a b && sameItems as bs
  | _, _ => false

/-- Whether two tables hold equal values under the same names in the same places. -/
def sameFields : List (String × Value) → List (String × Value) → Bool
  | [], [] => true
  | (name, a) :: as, (other, b) :: bs => name == other && same a b && sameFields as bs
  | _, _ => false

end

/-- The text of a text value. -/
def text? : Value → Option String
  | text s => some s
  | _ => none

end Value

end BrokerAdmin
