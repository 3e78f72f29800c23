import Schemata.Decimal.Binary64

/-!
# Shortest decimals

Among the decimals that are read back as a given binary number, `Binary64.shortest` takes one with
the fewest digits, and of those the nearest. It tries one digit, two digits and so on: on the grid
of that many digits only the two neighbours of the number can be read back as it, if any can.

Every decimal tried is tested by reading it, so what is found reads back. Seventeen digits are
enough for every number; the exact value stands behind the search all the same.

`DecimalStyle` says how the digits are laid out.
-/

namespace Schemata

-- powers as the core library defines them, whatever is imported
attribute [local instance (2000)] instPowNat

/-- The decimal `digits * 10 ^ exponent`. -/
structure Decimal where
  /-- The digits, as a number. -/
  digits : Nat
  /-- The power of ten. -/
  exponent : Int
deriving DecidableEq, Repr

namespace Decimal

/-- Moves trailing zeros from the digits into the exponent. -/
def normalize (d : Decimal) : Decimal :=
  if d.digits ≠ 0 ∧ d.digits % 10 = 0 then normalize ⟨d.digits / 10, d.exponent + 1⟩ else d
termination_by d.digits
decreasing_by
  rename_i h
  exact Nat.div_lt_self (Nat.pos_of_ne_zero h.1) (by omega)

/-- Whether `d` is read as the number `mantissa * 2 ^ exponent`. -/
def readsAs (d : Decimal) (mantissa : Nat) (exponent : Int) : Bool :=
  Binary64.ofDecimal false d.digits d.exponent == .finite false mantissa exponent

end Decimal

namespace Binary64

/-- The least power of ten above `mantissa * 2 ^ exponent`, as an exponent. The binary logarithm
tells it up to the neighbours. -/
def decimalMagnitude (mantissa : Nat) (exponent : Int) : Int :=
  let estimate := ((mantissa.log2 : Int) + exponent) * 30103 / 100000
  let (num, den) := scale mantissa 1 (-exponent)
  let above (k : Int) : Bool := num * 10 ^ (-k).toNat < den * 10 ^ k.toNat
  ([estimate - 1, estimate, estimate + 1].find? above).getD (estimate + 2)

/-- The nearer of the two neighbours of `mantissa * 2 ^ exponent` on the grid of `10 ^ power` that
are read as this number, if one is. Of two equally near ones the even one is taken. -/
def neighbour? (mantissa : Nat) (exponent power : Int) : Option Decimal :=
  let (num, den) := scale mantissa 1 (-exponent)
  let num := num * 10 ^ (-power).toNat
  let den := den * 10 ^ power.toNat
  let below : Decimal := ⟨num / den, power⟩
  let above : Decimal := ⟨num / den + 1, power⟩
  let nearest : Decimal := ⟨roundQuotient num den, power⟩
  let other := if nearest = below then above else below
  if nearest.readsAs mantissa exponent then some nearest
  else if other.readsAs mantissa exponent then some other
  else none

/-- The exact decimal value of `mantissa * 2 ^ exponent`. -/
def exactDecimal (mantissa : Nat) (exponent : Int) : Decimal :=
  ⟨mantissa * 2 ^ exponent.toNat * 5 ^ (-exponent).toNat, min exponent 0⟩

/-- A decimal with the fewest digits that is read as `mantissa * 2 ^ exponent`. -/
def shortest (mantissa : Nat) (exponent : Int) : Decimal :=
  let magnitude := decimalMagnitude mantissa exponent
  let tries := (List.range 17).map fun (n : Nat) => magnitude - 1 - (n : Int)
  match tries.findSome? (neighbour? mantissa exponent) with
  | some d => d.normalize
  | none => (exactDecimal mantissa exponent).normalize

end Binary64

/-! ## Layout -/

/-- How a decimal number is written. Whole numbers keep a zero behind the point, and an exponent
always has a sign. -/
structure DecimalStyle where
  /-- The least exponent of the leading digit that is written without an exponent. -/
  plainFrom : Int
  /-- The least exponent above it that needs an exponent again. -/
  plainBelow : Int
  /-- The least number of digits of an exponent. -/
  exponentWidth : Nat
deriving DecidableEq, Repr

namespace DecimalStyle

/-- The text of a number with at least `width` digits. -/
def padded (width n : Nat) : String :=
  let digits := Nat.toDigits 10 n
  String.ofList (List.replicate (width - digits.length) '0' ++ digits)

/-- The text of a positive decimal. -/
def layout (style : DecimalStyle) (d : Decimal) : String :=
  let digits := Nat.toDigits 10 d.digits
  let leading : Int := digits.length - 1 + d.exponent
  if style.plainFrom ≤ leading && leading < style.plainBelow then
    if leading < 0 then
      String.ofList (['0', '.'] ++ List.replicate (-leading - 1).toNat '0' ++ digits)
    else
      let whole := leading.toNat + 1
      let fraction := digits.drop whole
      String.ofList (digits.take whole ++ List.replicate (whole - digits.length) '0' ++ ['.']
        ++ if fraction.isEmpty then ['0'] else fraction)
  else
    let fraction := digits.drop 1
    String.ofList (digits.take 1 ++ if fraction.isEmpty then [] else '.' :: fraction)
      ++ (if leading < 0 then "e-" else "e+") ++ padded style.exponentWidth leading.natAbs

/-- The text of a number. -/
def render (style : DecimalStyle) : Binary64 → String
  | .finite negative mantissa exponent =>
    let sign := if negative then "-" else ""
    if mantissa = 0 then sign ++ "0.0"
    else sign ++ style.layout (Binary64.shortest mantissa exponent)
  | .infinite negative => if negative then "-inf" else "inf"
  | .undefined => "nan"

end DecimalStyle

/-- Numbers inside texts are positional from `0.0001` to below `10 ^ 16`, and exponents have two
digits. -/
def textNumber : DecimalStyle := ⟨-4, 16, 2⟩

/-- Numbers of a document are positional from `0.00001` to below `10 ^ 16`. -/
def documentNumber : DecimalStyle := ⟨-5, 16, 1⟩

end Schemata
