import BrokerAdmin.Document.Record
import BrokerAdmin.Text.Numeral
import BrokerAdmin.Toml.Rules

/-!
# Dates and times in TOML

A date is written `2024-05-01` and a time of day `07:30:00`, with a fraction of the second if there is one. A
date may have a time behind it, after the letter `T` or a space, and the time then its offset from
universal time. From version 1.1 of the format on the seconds may be left out. Of a fraction nine digits count.
-/

namespace BrokerAdmin.Toml

/-- A day of a month of a year. -/
structure Date where
  year : Nat
  month : Nat
  day : Nat
  deriving DecidableEq

/-- A time of day, with the seconds and the nanoseconds that are written. -/
structure Clock where
  hour : Nat
  minute : Nat
  second : Option Nat
  nanosecond : Option Nat
  deriving DecidableEq

/-- How far a time is from universal time. -/
inductive Offset where
  | universal
  | minutes (ahead : Int)
  deriving DecidableEq

/-- A date, a time of day, or both. -/
inductive Moment where
  | date (date : Date)
  | clock (clock : Clock)
  | both (date : Date) (clock : Clock) (offset : Option Offset)
  deriving DecidableEq

/-! ### Reading -/

/-- A number of so many digits within bounds. -/
def bounded? (count least greatest : Nat) (chars : List Char) : Option (Nat × List Char) :=
  let (digits, rest) := chars.splitAt count
  let n := Text.digitsValue 0 digits
  if digits.length = count && digits.all Char.isDigit && least ≤ n && n ≤ greatest then some (n, rest)
  else none

/-- The text after a mark, if it is here. -/
def mark? (mark : Char) : List Char → Option (List Char)
  | c :: rest => if c = mark then some rest else none
  | [] => none

/-- How many days a month has. -/
def daysIn (year month : Nat) : Nat :=
  match month with
  | 2 => if year % 4 = 0 && (year % 100 != 0 || year % 400 = 0) then 29 else 28
  | 4 | 6 | 9 | 11 => 30
  | _ => 31

/-- A date. -/
def date? (chars : List Char) : Option (Date × List Char) := do
  let (year, rest) ← bounded? 4 0 9999 chars
  let (month, rest) ← bounded? 2 1 12 (← mark? '-' rest)
  let (day, rest) ← bounded? 2 1 (daysIn year month) (← mark? '-' rest)
  return (⟨year, month, day⟩, rest)

/-- An hour and a minute. -/
def hourMinute? (chars : List Char) : Option ((Nat × Nat) × List Char) := do
  let (hour, rest) ← bounded? 2 0 23 chars
  let (minute, rest) ← bounded? 2 0 59 (← mark? ':' rest)
  return ((hour, minute), rest)

/-- The nanoseconds that a fraction of a second stands for; further digits do not count. -/
def nanoseconds (digits : List Char) : Nat :=
  Text.digitsValue 0 (digits.take 9 ++ List.replicate (9 - digits.length) '0')

/-- The nanoseconds after a point, if there is one. -/
def nanosecond? : List Char → Option (Option Nat × List Char)
  | '.' :: rest =>
    let (digits, rest) := rest.span Char.isDigit
    if digits.isEmpty then none else some (some (nanoseconds digits), rest)
  | rest => some (none, rest)

/-- A time of day. -/
def clock? (rules : Rules) (chars : List Char) : Option (Clock × List Char) := do
  let ((hour, minute), rest) ← hourMinute? chars
  match mark? ':' rest with
  | some rest =>
    let (second, rest) ← bounded? 2 0 60 rest
    let (nanosecond, rest) ← nanosecond? rest
    return (⟨hour, minute, some second, nanosecond⟩, rest)
  | none => if rules.version11 then some (⟨hour, minute, none, none⟩, rest) else none

/-- An offset from universal time. -/
def offset? : List Char → Option (Offset × List Char)
  | 'Z' :: rest | 'z' :: rest => some (.universal, rest)
  | sign :: rest =>
    if sign = '+' || sign = '-' then do
      let ((hours, minutes), rest) ← hourMinute? rest
      let ahead : Int := 60 * hours + minutes
      return (.minutes (if sign = '-' then -ahead else ahead), rest)
    else none
  | [] => none

/-- The text after what separates a date from a time. -/
def separator? : List Char → Option (List Char)
  | 'T' :: rest | 't' :: rest | ' ' :: rest => some rest
  | _ => none

/-- A date, with a time and an offset behind it if they are there. -/
def afterDate (rules : Rules) (date : Date) (chars : List Char) : Moment × List Char :=
  match (separator? chars).bind (clock? rules) with
  | none => (.date date, chars)
  | some (clock, rest) =>
    match offset? rest with
    | none => (.both date clock none, rest)
    | some (offset, rest) => (.both date clock (some offset), rest)

/-- A date or time. -/
def moment? (rules : Rules) (chars : List Char) : Option (Moment × List Char) :=
  match date? chars with
  | some (date, rest) => some (afterDate rules date rest)
  | none => (clock? rules chars).map fun (clock, rest) => (.clock clock, rest)

/-! ### Writing -/

/-- A number with at least so many digits. -/
def padded (count n : Nat) : List Char :=
  let digits := Nat.toDigits 10 n
  List.replicate (count - digits.length) '0' ++ digits

/-- A date as it is written. -/
def Date.written (d : Date) : List Char :=
  padded 4 d.year ++ '-' :: padded 2 d.month ++ '-' :: padded 2 d.day

/-- The fraction of a second, without zeros at its end. -/
def fractionWritten (nanosecond : Nat) : List Char :=
  let digits := ((padded 9 nanosecond).reverse.dropWhile (· == '0')).reverse
  if digits.isEmpty then ['0'] else digits

/-- A time of day as it is written. -/
def Clock.written (t : Clock) : List Char :=
  padded 2 t.hour ++ ':' :: padded 2 t.minute ++ (t.second.elim [] fun n => ':' :: padded 2 n) ++
    t.nanosecond.elim [] fun n => '.' :: fractionWritten n

/-- An offset as it is written. -/
def Offset.written : Offset → List Char
  | universal => ['Z']
  | minutes ahead =>
    (if ahead < 0 then '-' else '+') :: padded 2 (ahead.natAbs / 60) ++ ':' :: padded 2 (ahead.natAbs % 60)

namespace Moment

/-- A date or time as it is written. -/
def written : Moment → String
  | date d => String.ofList d.written
  | clock t => String.ofList t.written
  | both d t offset =>
    String.ofList (d.written ++ 'T' :: t.written ++ offset.elim [] Offset.written)

/-- A date or time as a table. -/
def asTable (m : Moment) : Value :=
  .moment m.written

/-- A date or time as a text. -/
def asText (m : Moment) : Value :=
  .text m.written

end Moment

end BrokerAdmin.Toml
