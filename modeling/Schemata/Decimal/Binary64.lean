/-!
# Binary floating-point numbers

A `Binary64` is a number of the 64-bit binary format as data: a sign, a mantissa below `2 ^ 53` and
a power of two, or one of the special values. `ofRatio` rounds an exact quotient to the nearest
such number, a tie going to the even mantissa, and `ofDecimal` does so for a decimal.
-/

namespace Schemata

-- powers as the core library defines them, whatever is imported
attribute [local instance (2000)] instPowNat

/-- A number of the 64-bit binary floating-point format. -/
inductive Binary64 where
  /-- The value `mantissa * 2 ^ exponent`, negated if so marked. -/
  | finite (negative : Bool) (mantissa : Nat) (exponent : Int)
  /-- Infinity of either sign. -/
  | infinite (negative : Bool)
  /-- No number. -/
  | undefined
deriving DecidableEq, Repr

namespace Binary64

/-- The least exponent, that of the numbers nearest to zero. -/
def minExponent : Int := -1074

/-- The greatest exponent. -/
def maxExponent : Int := 971

/-- Zero. -/
def zero : Binary64 := .finite false 0 minExponent

instance : Inhabited Binary64 := ⟨zero⟩

/-- The quotient rounded to the nearest integer, a tie going to the even one. -/
def roundQuotient (num den : Nat) : Nat :=
  let quotient := num / den
  let remainder := num % den
  if 2 * remainder < den || (2 * remainder == den && quotient % 2 == 0) then quotient
  else quotient + 1

/-- Numerator and denominator of `num / den` divided by a power of two. -/
def scale (num den : Nat) (exponent : Int) : Nat × Nat :=
  (num * 2 ^ (-exponent).toNat, den * 2 ^ exponent.toNat)

/-- The exponent at which `num / den` is rounded: the one that gives a mantissa of 53 bits, but no
less than the least. -/
def exponentFor (num den : Nat) : Int :=
  let estimate := max ((num.log2 : Int) - den.log2 - 53) minExponent
  let (n, d) := scale num den estimate
  if n / d < 2 ^ (53 : Nat) then estimate else estimate + 1

/-- The number nearest to `num / den`, with a sign. -/
def ofRatio (negative : Bool) (num den : Nat) : Binary64 :=
  let exponent := exponentFor num den
  let (n, d) := scale num den exponent
  let mantissa := roundQuotient n d
  let (mantissa, exponent) :=
    if mantissa = 2 ^ (53 : Nat) then (2 ^ (52 : Nat), exponent + 1) else (mantissa, exponent)
  if exponent > maxExponent then .infinite negative else .finite negative mantissa exponent

/-- The number nearest to `digits * 10 ^ exponent`, with a sign. Decimals far beyond the range are
decided by their size alone. -/
def ofDecimal (negative : Bool) (digits : Nat) (exponent : Int) : Binary64 :=
  let size := ((Nat.toDigits 10 digits).length : Int) + exponent
  if digits = 0 || size < -330 then .finite negative 0 minExponent
  else if size > 310 then .infinite negative
  else ofRatio negative (digits * 10 ^ exponent.toNat) (10 ^ (-exponent).toNat)

/-- The number nearest to an integer. -/
def ofInt (n : Int) : Binary64 :=
  ofDecimal (n < 0) n.natAbs 0

/-- The integer that the number is, if it is one. -/
def toInt? : Binary64 → Option Int
  | .finite negative mantissa exponent =>
    let (n, d) := scale mantissa 1 (-exponent)
    if n % d = 0 then some (if negative then -(n / d : Nat) else (n / d : Nat)) else none
  | _ => none

/-- The greatest integer that is not above the number, and the distance of the two as numerator and
denominator. -/
def split? : Binary64 → Option (Int × Nat × Nat)
  | .finite negative mantissa exponent =>
    let (n, d) := scale mantissa 1 (-exponent)
    if negative && n % d ≠ 0 then some (-(n / d : Nat) - 1, d - n % d, d)
    else some (if negative then -(n / d : Nat) else (n / d : Nat), n % d, d)
  | _ => none

/-- The product with a natural number. -/
def timesNat (x : Binary64) (factor : Nat) : Binary64 :=
  match x with
  | .finite negative mantissa exponent =>
    let (n, d) := scale mantissa 1 (-exponent)
    ofRatio negative (n * factor) d
  | x => x

/-- The quotient rounded to the nearest integer, a tie going up. -/
def roundUpQuotient (num den : Nat) : Nat :=
  (2 * num + den) / (2 * den)

/-- The size of the number rounded to the nearest integer, a tie going up. -/
def roundSize : Binary64 → Nat
  | .finite _ mantissa exponent =>
    let (n, d) := scale mantissa 1 (-exponent)
    roundUpQuotient n d
  | _ => 0

/-- Whether the number is finite. -/
def isFinite : Binary64 → Bool
  | .finite .. => true
  | _ => false

example : ofDecimal false 1 (-1) = .finite false 0x1999999999999A (-56) := by decide +kernel

example : ofInt (2 ^ 53 + 1) = .finite false (2 ^ 52) 1 := by decide +kernel

example : (ofDecimal true 25 (-1)).toInt? = none := by decide +kernel

end Binary64

end Schemata
