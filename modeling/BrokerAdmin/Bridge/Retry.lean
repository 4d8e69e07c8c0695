import BrokerAdmin.Binary64.Basic

/-!
# Retries

How often a bridge tries to connect and how long it waits in between. The first retry waits a fixed
interval; each later wait is the one before times a multiplier, up to a ceiling. Intervals are kept in
milliseconds and waits are given in nanoseconds. In between stand seconds in binary floating point.
-/

namespace BrokerAdmin.Bridge

/-- An upper bound on attempts. -/
inductive AttemptLimit where
  | unlimited
  | limited (count : Nat)
  deriving DecidableEq

namespace AttemptLimit

/-- The bound that a configured number stands for; `-1` is none. -/
def ofConfig? (value : Int64) : Option AttemptLimit :=
  if value = -1 then some unlimited
  else if 0 ≤ value.toInt ∧ value.toInt < 2 ^ 32 then some (limited value.toInt.toNat)
  else none

/-- The number that is configured for a bound. -/
def toConfig : AttemptLimit → Int
  | unlimited => -1
  | limited count => count

/-- Whether an attempt is still allowed, the first being number zero. -/
def permits : AttemptLimit → Nat → Bool
  | unlimited, _ => true
  | limited count, attempt => decide (attempt < count)

end AttemptLimit

/-- A number of milliseconds as nanoseconds. -/
def nanosOfMillis (millis : Nat) : Nat :=
  millis * 10 ^ 6

/-- A number of milliseconds in seconds: the whole ones plus the rounded rest. -/
def secondsOfMillis (millis : Nat) : Binary64 :=
  (Binary64.ofInt (millis / 1000 : Nat)).add
    ((Binary64.ofInt (nanosOfMillis (millis % 1000))).div (Binary64.ofInt (10 ^ 9)))

/-- A number of seconds as the nearest whole number of nanoseconds, a half going to the even one;
nothing for negative numbers and for seconds that do not fit 64 bits. -/
def nanosOfSeconds? : Binary64 → Option Nat
  | .finite negative m q =>
    let nanos := Binary64.roundQuotient (m * 2 ^ q.toNat * 10 ^ 9) (2 ^ (-q).toNat)
    if (negative && m != 0) || 2 ^ 64 * 10 ^ 9 ≤ nanos then none else some nanos
  | _ => none

/-- When and how often a bridge tries to connect again. -/
structure RetryPolicy where
  /-- Milliseconds. -/
  interval : Nat
  multiplier : Binary64
  /-- Milliseconds. -/
  maxInterval : Nat
  initialConnectAttempts : AttemptLimit
  reconnectAttempts : AttemptLimit
  reconnectAttemptsOnSameNode : AttemptLimit
  deriving DecidableEq

namespace RetryPolicy

/-- The greatest exponent of the multiplier; the waits of later attempts are those of this one. -/
def greatestExponent : Nat := 2 ^ 31 - 1

/-- The wait before an attempt in seconds, before it is capped. -/
def scaledSeconds (p : RetryPolicy) (attempt : Nat) : Binary64 :=
  (secondsOfMillis p.interval).mul (p.multiplier.pow (min attempt greatestExponent))

/-- Whether a wait in seconds is beyond the ceiling. -/
def exceeds (p : RetryPolicy) (seconds : Binary64) : Bool :=
  !seconds.isFinite ||
    match seconds.compare? (secondsOfMillis p.maxInterval) with
    | some .gt | some .eq => true
    | _ => false

/-- The wait before an attempt in nanoseconds, the first attempt being number zero; nothing where the
product is no duration. -/
def waitBefore? (p : RetryPolicy) (attempt : Nat) : Option Nat :=
  if attempt = 0 then some (nanosOfMillis p.interval)
  else if p.exceeds (p.scaledSeconds attempt) then some (nanosOfMillis p.maxInterval)
  else nanosOfSeconds? (p.scaledSeconds attempt)

end RetryPolicy

end BrokerAdmin.Bridge
