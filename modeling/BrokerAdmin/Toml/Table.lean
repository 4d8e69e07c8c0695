import BrokerAdmin.Toml.Datum

/-!
# Building up tables

The tables of a document come about in three ways: by a header of their own, as a part of the name
in another header, or by a key with dots. A header may define a table only once, though one that has so
far only been part of other headers may still be defined; a table that came about by a dotted key is
closed to headers of its own; and a list of tables grows by one with each of its headers. Nothing can be
added to a table that was written as a value.
-/

namespace BrokerAdmin.Toml

/-- How a table came about. -/
inductive Origin where
  /-- By a header of its own. -/
  | header
  /-- As a part of the name in another header. -/
  | passing
  /-- By a key with dots. -/
  | dottedKey
  deriving DecidableEq

/-- What stands under a key. -/
inductive Node where
  | value (value : Datum)
  | table (origin : Origin) (fields : List (String × Node))
  /-- A list of tables, the last one apart. -/
  | tables (earlier : List (List (String × Node))) (last : List (String × Node))

/-- What stands under the keys of a table, in the order in which they were written. -/
abbrev Fields := List (String × Node)

namespace Fields

/-- The fields with another node under a key that is there. -/
def replace (fields : Fields) (key : String) (node : Node) : Fields :=
  fields.map fun field => if field.1 == key then (key, node) else field

/-- Put a value under a key with dots, the parts before the last given apart. A table that headers defined
or that is a value cannot be extended. The last table on the way must have come about by a dotted key, or
have been only a part of headers where the rules let it be adopted. -/
def assign (rules : Rules) : List String → String → Datum → Fields → Option Fields
  | [], key, value, fields =>
    if (fields.lookup key).isNone then some (fields ++ [(key, .value value)]) else none
  | part :: path, key, value, fields =>
    match fields.lookup part with
    | none =>
      (assign rules path key value []).map fun inner => fields ++ [(part, .table .dottedKey inner)]
    | some (.table .dottedKey inner) =>
      (assign rules path key value inner).map fun inner => fields.replace part (.table .dottedKey inner)
    | some (.table .passing inner) =>
      if path.isEmpty then
        if rules.adoptsPassing then
          (assign rules path key value inner).map fun inner => fields.replace part (.table .dottedKey inner)
        else none
      else (assign rules path key value inner).map fun inner => fields.replace part (.table .passing inner)
    | some (.tables earlier last) =>
      if path.isEmpty then none
      else (assign rules path key value last).map fun last => fields.replace part (.tables earlier last)
    | some (.table .header _) | some (.value _) => none

/-- Change the table that a header names by its parts; of a list of tables the last is meant, and tables
that are not there yet come about on the way. -/
def within : List String → (Fields → Option Fields) → Fields → Option Fields
  | [], change, fields => change fields
  | part :: path, change, fields =>
    match fields.lookup part with
    | none => (within path change []).map fun inner => fields ++ [(part, .table .passing inner)]
    | some (.table origin inner) =>
      (within path change inner).map fun inner => fields.replace part (.table origin inner)
    | some (.tables earlier last) =>
      (within path change last).map fun last => fields.replace part (.tables earlier last)
    | some (.value _) => none

/-- Define a table by a header. -/
def define (key : String) (fields : Fields) : Option Fields :=
  match fields.lookup key with
  | none => some (fields ++ [(key, .table .header [])])
  | some (.table .passing inner) => some (fields.replace key (.table .header inner))
  | _ => none

/-- Add a table to a list by a header. -/
def append (key : String) (fields : Fields) : Option Fields :=
  match fields.lookup key with
  | none => some (fields ++ [(key, .tables [] [])])
  | some (.tables earlier last) => some (fields.replace key (.tables (earlier ++ [last]) []))
  | _ => none

end Fields

mutual

/-- The value that a node stands for. -/
def Node.toDatum : Node → Datum
  | .value value => value
  | .table _ fields => .table (Fields.data fields)
  | .tables earlier last => .list (Fields.tableData earlier ++ [.table (Fields.data last)])

/-- The values under the keys of a table. -/
def Fields.data : List (String × Node) → List (String × Datum)
  | [] => []
  | (key, node) :: rest => (key, node.toDatum) :: Fields.data rest

/-- The tables of a list as values. -/
def Fields.tableData : List (List (String × Node)) → List Datum
  | [] => []
  | fields :: rest => .table (Fields.data fields) :: Fields.tableData rest

end

end BrokerAdmin.Toml
