import BrokerAdmin.Binary64.Shortest

/-!
# Written numbers

A layout says how the shortest digits of a number are set out: which sizes are written without an
exponent, whether a whole number shows that it could have had a fraction, how an exponent is signed,
and how a tie between two shortest decimals is settled. The three layouts of this project stand at
the end.
-/

namespace BrokerAdmin.Binary64

/-- How a number is set out. -/
structure Layout where
  /-- Whether a number with this decimal exponent is written positionally. -/
  positional : Int → Bool
  /-- Whether a whole number that is written positionally ends in `.0`. -/
  pointZero : Bool
  /-- Whether a positive exponent carries a sign. -/
  signedExponent : Bool
  /-- The choice between two shortest decimals that are equally near. -/
  tie : Tie

/-- Digits with a point after the first. -/
def scientificDigits : List Char → List Char
  | [] => []
  | [d] => [d]
  | d :: rest => d :: '.' :: rest

/-- Digits with their exponent, the point where it belongs. -/
def positionalDigits (digits : List Char) (exponent : Int) (pointZero : Bool) : List Char :=
  let whole : Int := digits.length + exponent
  if 0 ≤ exponent then
    digits ++ List.replicate exponent.toNat '0' ++ (if pointZero then ['.', '0'] else [])
  else if 0 < whole then
    digits.take whole.toNat ++ '.' :: digits.drop whole.toNat
  else
    '0' :: '.' :: List.replicate (-whole).toNat '0' ++ digits

/-- An exponent as it is written. -/
def writtenExponent (signed : Bool) (e : Int) : List Char :=
  if e < 0 then '-' :: Nat.toDigits 10 e.natAbs
  else (if signed then ['+'] else []) ++ Nat.toDigits 10 e.natAbs

/-- The characters of a positive decimal. -/
def layOut (layout : Layout) (d : Decimal) : List Char :=
  let digits := Nat.toDigits 10 d.digits
  let leading : Int := digits.length - 1 + d.exponent
  if layout.positional leading then positionalDigits digits d.exponent layout.pointZero
  else scientificDigits digits ++ 'e' :: writtenExponent layout.signedExponent leading

/-- The text of a number. -/
def written (layout : Layout) : Binary64 → String
  | nan => "NaN"
  | infinite negative => if negative then "-inf" else "inf"
  | finite negative m q =>
    let size :=
      if m = 0 then '0' :: (if layout.pointZero then ['.', '0'] else [])
      else layOut layout (shortest layout.tie m q)
    String.ofList (if negative then '-' :: size else size)

/-- Numbers in a document: no exponent from `1e-5` up to below `1e16`. -/
def documentLayout : Layout :=
  ⟨fun e => decide (-5 ≤ e) && decide (e ≤ 15), true, true, .toEven⟩

/-- Numbers among the tokens of a filter: no exponent from `1e-4` up to below `1e16`. -/
def tokenLayout : Layout :=
  ⟨fun e => decide (-4 ≤ e) && decide (e ≤ 15), true, false, .upward⟩

/-- Numbers in error messages and in text fields: never an exponent, and no `.0`. -/
def plainLayout : Layout :=
  ⟨fun _ => true, false, false, .upward⟩

end BrokerAdmin.Binary64
