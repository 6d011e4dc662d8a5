import BlockPainting.Number.ExactDouble

/-!
# Decimal text of doubles

Shortest text has the fewest digits that read back as the same double, and of those the digits
nearest to it. Text with fixed places rounds the exact value, a tie going to the even digit. Both
are decided in natural-number arithmetic.
-/

namespace BlockPainting

/-- The number `digits * 10 ^ exponent`. -/
structure Decimal where
  digits : Nat
  exponent : Int
  deriving DecidableEq

/-- Where the digit goes when two neighbours are equally near. -/
inductive Tie where
  | up
  | even

namespace ExactDouble

/-- Compares `a * 10 ^ i` with `n * 2 ^ j`. -/
def compareScaled (a : Nat) (i : Int) (n : Nat) (j : Int) : Ordering :=
  compare (a * Nat.pow 10 i.toNat * Nat.pow 2 (-j).toNat)
    (n * Nat.pow 2 j.toNat * Nat.pow 10 (-i).toNat)

/-- Whether the neighbour below is only half as far as the neighbour above. -/
def narrowBelow (v : ExactDouble) : Bool :=
  v.mantissa == leadingBit && v.exponent > -1074

/-- Whether a decimal lies among the reals that round to the magnitude. -/
def readsBack (v : ExactDouble) (d : Decimal) : Bool :=
  let low := if v.narrowBelow then 4 * v.mantissa - 1 else 4 * v.mantissa - 2
  let high := 4 * v.mantissa + 2
  let closed := v.mantissa % 2 == 0
  let atLow := compareScaled d.digits d.exponent low (v.exponent - 2)
  let atHigh := compareScaled d.digits d.exponent high (v.exponent - 2)
  (atLow == .gt || (closed && atLow == .eq)) && (atHigh == .lt || (closed && atHigh == .eq))

/-- The multiple of `10 ^ k` below the magnitude, in units of `10 ^ k`. -/
def floorAt (v : ExactDouble) (k : Int) : Nat :=
  let (n, d) := v.ratio
  n * Nat.pow 10 (-k).toNat / (d * Nat.pow 10 k.toNat)

/-- Of the two multiples of `10 ^ k` around the magnitude, the nearer one that reads back. -/
def nearestAt (v : ExactDouble) (tie : Tie) (k : Int) : Option Decimal :=
  let c := v.floorAt k
  let below : Decimal := ⟨c, k⟩
  let above : Decimal := ⟨c + 1, k⟩
  match v.readsBack below, v.readsBack above with
  | false, false => none
  | true, false => some below
  | false, true => some above
  | true, true =>
    match compareScaled (2 * c + 1) k (2 * v.mantissa) v.exponent, tie with
    | .gt, _ => some below
    | .lt, _ => some above
    | .eq, .up => some above
    | .eq, .even => if c % 2 = 0 then some below else some above

def decimalBound (v : ExactDouble) : Int :=
  let (n, d) := v.ratio
  if d ≤ n then (Nat.toDigits 10 (n / d)).length
  else 2 - (Nat.toDigits 10 (d / n)).length

/-- Tries finer and finer grids, so many of them. -/
def shortestFrom (v : ExactDouble) (tie : Tie) : Nat → Int → Option Decimal
  | 0, _ => none
  | n + 1, k =>
    match v.nearestAt tie k with
    | some d => some d
    | none => shortestFrom v tie n (k - 1)

def toDecimal (v : ExactDouble) : Decimal :=
  match v.exponent with
  | .ofNat e => ⟨v.mantissa * Nat.pow 2 e, 0⟩
  | .negSucc e => ⟨v.mantissa * Nat.pow 5 (e + 1), -(e + 1 : Int)⟩

/-- The shortest decimal that reads back as the magnitude, which is not zero. -/
def shortest (v : ExactDouble) (tie : Tie) : Decimal :=
  (v.shortestFrom tie 20 v.decimalBound).getD v.toDecimal

/-- The magnitude in units of `10 ^ (-places)`, rounded with ties to even. -/
def roundPlaces (v : ExactDouble) (places : Nat) : Nat :=
  let (n, d) := v.ratio
  roundDivEven (n * Nat.pow 10 places) d

end ExactDouble

namespace Decimal

/-- The same number without zeros at the end of its digits; so many are looked for. -/
def dropZeros : Nat → Decimal → Decimal
  | 0, d => d
  | n + 1, d =>
    if d.digits ≠ 0 ∧ d.digits % 10 = 0 then dropZeros n ⟨d.digits / 10, d.exponent + 1⟩ else d

def zeros (n : Nat) : List Char := List.replicate n '0'

/-- The digits with the decimal point in its place; a whole number has no point. -/
def positional (d : Decimal) : List Char :=
  let ds := Nat.toDigits 10 d.digits
  let point := (ds.length : Int) + d.exponent
  if point ≤ 0 then '0' :: '.' :: (zeros (-point).toNat ++ ds)
  else if d.exponent ≥ 0 then ds ++ zeros d.exponent.toNat
  else ds.take point.toNat ++ '.' :: ds.drop point.toNat

/-- The power of ten of the leading digit. -/
def leading (d : Decimal) : Int :=
  ((Nat.toDigits 10 d.digits).length : Int) + d.exponent - 1

end Decimal

/-- The minus sign of a negative number, also of `-0.0`. -/
def signText (negative : Bool) : List Char :=
  if negative then ['-'] else []

/-- A number in a message: shortest digits, never with a power of ten, a whole number without a
point. Of two equally near digits the larger is taken. -/
def plainText (x : Float) : String :=
  match DoubleValue.ofFloat x with
  | .notANumber => "NaN"
  | .infinite negative => String.ofList (signText negative ++ ['i', 'n', 'f'])
  | .finite v =>
    if v.mantissa = 0 then String.ofList (signText v.negative ++ ['0'])
    else
      String.ofList (signText v.negative ++ ((v.shortest .up).dropZeros 20).positional)

/-- A number with so many places behind the point, at least one. -/
def fixedText (places : Nat) (x : Float) : String :=
  match DoubleValue.ofFloat x with
  | .notANumber => "NaN"
  | .infinite negative => String.ofList (signText negative ++ ['i', 'n', 'f'])
  | .finite v =>
    let ds := Nat.toDigits 10 (v.roundPlaces places)
    let ds := Decimal.zeros (places + 1 - ds.length) ++ ds
    let whole := ds.length - places
    String.ofList (signText v.negative ++ ds.take whole ++ '.' :: ds.drop whole)

end BlockPainting
