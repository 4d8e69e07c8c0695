/-!
# Rules for reading TOML

Readers of TOML agree on most documents. Where they differ, one reads by the following rules: how deep it
goes, whether it knows version 1.1 of the format besides version 1.0, what becomes of line breaks and of
numbers that are too large, and which tables a key with dots may extend.
-/

namespace BrokerAdmin.Toml

/-- Rules for reading TOML. -/
structure Rules where
  /-- How deep lists and inline tables may be nested, and how many parts a key may have. -/
  depth : Nat
  /-- The escapes `\e` and `\x` are known, a time of day needs no seconds, and an inline table may be written
  like a list: over several lines, with comments, and with a comma at its end. -/
  version11 : Bool
  /-- A line break in a text stays as it is written; without this rule it becomes a line feed. -/
  keepsLineBreaks : Bool
  /-- A number that is too large is malformed on either side of zero; without this rule one below zero is
  the negative infinity. -/
  boundsNegative : Bool
  /-- A key with dots may put a value into a table that has so far only been a part of headers. The table
  then counts as one that came about by a key with dots. -/
  adoptsPassing : Bool
  deriving DecidableEq

end BrokerAdmin.Toml
