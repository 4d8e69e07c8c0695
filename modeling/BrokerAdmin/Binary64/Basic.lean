/-!
# Binary floating point numbers

Numbers of 64 bits in binary floating point, kept as what they denote: a sign, a mantissa below
`2 ^ 53` and a power of two, an infinity, or no number. Every operation is the exact one followed by
one rounding to the nearest such number, a tie going to the even mantissa. Mantissas are kept as long
as possible: below `2 ^ 52` they occur only with the least exponent.
-/

namespace BrokerAdmin

/-- Powers of whole numbers are the core ones, also where a library of algebra brings its own. -/
@[default_instance high+1]
scoped instance (priority := high) wholePower {α : Type} [NatPow α] : Pow α Nat := instPowNat

/-- A number of 64 bits: `± mantissa * 2 ^ exponent`, an infinity, or no number. -/
inductive Binary64 where
  | finite (negative : Bool) (mantissa : Nat) (exponent : Int)
  | infinite (negative : Bool)
  | nan
  deriving DecidableEq

namespace Binary64

/-- The exponent of the smallest numbers. -/
def leastExponent : Int := -1074

/-- The exponent of the largest numbers. -/
def greatestExponent : Int := 971

/-- The natural number nearest to `n / d`, a half going to the even neighbour. -/
def roundQuotient (n d : Nat) : Nat :=
  if d < 2 * (n % d) ∨ (2 * (n % d) = d ∧ n / d % 2 = 1) then n / d + 1 else n / d

/-- The exponent of the last binary place that a number next to `n / d` has. -/
def lastPlace (n d : Nat) : Int :=
  let guess : Int := (n.log2 : Int) - d.log2 - 53
  let place := if n * 2 ^ (-guess).toNat / (d * 2 ^ guess.toNat) < 2 ^ 53 then guess else guess + 1
  max place leastExponent

/-- A mantissa that was rounded up to `2 ^ 53` gives its last place away; past the largest numbers
lies an infinity. -/
def ofMantissa (negative : Bool) (mantissa : Nat) (exponent : Int) : Binary64 :=
  if mantissa = 2 ^ 53 then
    if greatestExponent < exponent + 1 then infinite negative
    else finite negative (2 ^ 52) (exponent + 1)
  else if greatestExponent < exponent then infinite negative
  else finite negative mantissa exponent

/-- The number nearest to `± n / d`. -/
def ofRatio (negative : Bool) (n d : Nat) : Binary64 :=
  if n = 0 then finite negative 0 leastExponent
  else
    let place := lastPlace n d
    ofMantissa negative (roundQuotient (n * 2 ^ (-place).toNat) (d * 2 ^ place.toNat)) place

/-- The number nearest to `± m * 2 ^ q`. -/
def ofScaled (negative : Bool) (m : Nat) (q : Int) : Binary64 :=
  ofRatio negative (m * 2 ^ q.toNat) (2 ^ (-q).toNat)

/-- The number nearest to an integer. -/
def ofInt (z : Int) : Binary64 :=
  ofRatio (decide (z < 0)) z.natAbs 1

/-- The number one. -/
def one : Binary64 := ofInt 1

/-- Whether a number is neither an infinity nor no number. -/
def isFinite : Binary64 → Bool
  | finite .. => true
  | _ => false

/-- The number with the other sign. -/
def neg : Binary64 → Binary64
  | finite negative m q => finite (!negative) m q
  | infinite negative => infinite (!negative)
  | nan => nan

/-- The product; an infinity times zero is no number. -/
def mul : Binary64 → Binary64 → Binary64
  | finite s m q, finite t n r => ofScaled (s != t) (m * n) (q + r)
  | finite s m _, infinite t => if m = 0 then nan else infinite (s != t)
  | infinite s, finite t m _ => if m = 0 then nan else infinite (s != t)
  | infinite s, infinite t => infinite (s != t)
  | _, _ => nan

/-- The quotient; anything but zero divided by zero is an infinity. -/
def div : Binary64 → Binary64 → Binary64
  | finite s m q, finite t n r =>
    if n = 0 then if m = 0 then nan else infinite (s != t)
    else ofRatio (s != t) (m * 2 ^ (q - r).toNat) (n * 2 ^ (r - q).toNat)
  | finite s _ _, infinite t => finite (s != t) 0 leastExponent
  | infinite s, finite t _ _ => infinite (s != t)
  | _, _ => nan

/-- A finite number in units of the smallest positive one. -/
def units (negative : Bool) (mantissa : Nat) (exponent : Int) : Int :=
  let size : Int := mantissa * 2 ^ (exponent - leastExponent).toNat
  if negative then -size else size

/-- The sum; it is the negative zero only if both numbers are. -/
def add : Binary64 → Binary64 → Binary64
  | finite s m q, finite t n r =>
    let sum := units s m q + units t n r
    if sum = 0 then finite (s && t) 0 leastExponent
    else ofScaled (decide (sum < 0)) sum.natAbs leastExponent
  | finite .., infinite t => infinite t
  | infinite s, finite .. => infinite s
  | infinite s, infinite t => if s = t then infinite s else nan
  | _, _ => nan

/-- The order of two numbers: both zeros are equal, and no number compares with `nan`. -/
def compare? : Binary64 → Binary64 → Option Ordering
  | finite s m q, finite t n r => some (compare (units s m q) (units t n r))
  | finite .., infinite t => some (if t then .gt else .lt)
  | infinite s, finite .. => some (if s then .lt else .gt)
  | infinite s, infinite t => some (if s = t then .eq else if s then .lt else .gt)
  | _, _ => none

/-- Whether two numbers are equal; the two zeros are, and `nan` equals nothing. -/
def same (x y : Binary64) : Bool :=
  compare? x y == some .eq

/-- `result * base ^ n` by repeated squaring, from the lowest binary digit of the exponent on. -/
def powTimes (result base : Binary64) (n : Nat) : Binary64 :=
  if n = 0 then result
  else if n = 1 then result.mul base
  else powTimes (if n % 2 = 1 then result.mul base else result) (base.mul base) (n / 2)
termination_by n

/-- The power with a natural exponent, rounded after each product. -/
def pow (base : Binary64) (n : Nat) : Binary64 :=
  powTimes one base n

/-- The integer nearest to a finite number, a half going away from zero. -/
def roundAway (negative : Bool) (mantissa : Nat) (exponent : Int) : Int :=
  let d := 2 ^ (-exponent).toNat
  let size : Int := ((2 * mantissa * 2 ^ exponent.toNat + d) / (2 * d) : Nat)
  if negative then -size else size

end Binary64

end BrokerAdmin
