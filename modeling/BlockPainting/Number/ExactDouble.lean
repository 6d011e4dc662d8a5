/-!
# Exact values of doubles

A finite double is a sign, a natural mantissa and a power of two. Rounding to integers and printing
decimals read this exact value, so that natural-number arithmetic alone decides the digits.
-/

namespace BlockPainting

def maxWord : Nat := 4294967295

def maxLong : Nat := 18446744073709551615

/-- The real number `± mantissa * 2 ^ exponent`. -/
structure ExactDouble where
  negative : Bool
  mantissa : Nat
  exponent : Int
  deriving DecidableEq

/-- A double is a real number, an infinity or not a number. -/
inductive DoubleValue where
  | finite (value : ExactDouble)
  | infinite (negative : Bool)
  | notANumber

/-- The leading bit of a full mantissa, `2 ^ 52`. -/
def leadingBit : Nat := 4503599627370496

namespace DoubleValue

/-- Splits the bits of a double into sign, exponent and fraction. -/
def ofFloat (x : Float) : DoubleValue :=
  let bits := x.toBits
  let negative := bits >>> 63 == 1
  let biased := ((bits >>> 52) &&& 0x7ff).toNat
  let fraction := (bits &&& 0xfffffffffffff).toNat
  if biased = 0x7ff then
    if fraction = 0 then .infinite negative else .notANumber
  else if biased = 0 then
    .finite ⟨negative, fraction, -1074⟩
  else
    .finite ⟨negative, fraction + leadingBit, (biased : Int) - 1075⟩

end DoubleValue

/-- The integer nearest to `n / d`, a half going to the even one. -/
def roundDivEven (n d : Nat) : Nat :=
  let q := n / d
  match compare (2 * (n % d)) d with
  | .lt => q
  | .gt => q + 1
  | .eq => if q % 2 = 0 then q else q + 1

namespace ExactDouble

/-- The magnitude as a fraction: numerator and power-of-two denominator. -/
def ratio (v : ExactDouble) : Nat × Nat :=
  match v.exponent with
  | .ofNat e => (v.mantissa * Nat.pow 2 e, 1)
  | .negSucc e => (v.mantissa, Nat.pow 2 (e + 1))

/-- The integer nearest the magnitude, a half going up. -/
def roundHalfUp (v : ExactDouble) : Nat :=
  if v.mantissa = 0 then 0
  else
    let (n, d) := v.ratio
    (2 * n + d) / (2 * d)

end ExactDouble

/-- The natural number up to `limit` that is nearest to `x`, a half going away from zero.
Negative numbers and NaN give zero, and whatever lies above `limit` gives `limit`. -/
def roundClamped (limit : Nat) (x : Float) : Nat :=
  match DoubleValue.ofFloat x with
  | .notANumber => 0
  | .infinite negative => if negative then 0 else limit
  | .finite v => if v.negative then 0 else min v.roundHalfUp limit

/-- The double nearest to a count below `2 ^ 64`. -/
def countToFloat (n : Nat) : Float :=
  n.toUInt64.toFloat

end BlockPainting
