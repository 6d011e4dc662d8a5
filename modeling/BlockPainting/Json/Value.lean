import BlockPainting.Number.Decimal
import BlockPainting.Number.ExactDouble

/-!
# JSON values

Numbers are kept as written, since whether a number is an integer and whether it is in range matters
only to those who read it. A text with an unpaired surrogate is a JSON string but no text; it too
matters only to those who read it.
-/

namespace BlockPainting

structure NumberText where
  negative : Bool
  whole : List Char
  fraction : Option (List Char)
  exponent : Option (Bool × List Char)
  deriving DecidableEq

inductive Json where
  | null
  | bool (b : Bool)
  | number (n : NumberText)
  /-- A string; there is no text if it has an unpaired surrogate. -/
  | string (text : Option String)
  | array (items : List Json)
  | object (members : List (Option String × Json))

namespace NumberText

def maxSignificand : Nat := maxLong

/-- A number `significand * 10 ^ exponent`. -/
structure Parts where
  significand : Nat
  exponent : Int

def digit (c : Char) : Nat := c.toNat - '0'.toNat

/-- Takes in the digits before the point. From the first digit on that no longer fits, digits only
raise the exponent. -/
def takeWhole (p : Parts) : List Char → Parts
  | [] => p
  | c :: rest =>
    let s := p.significand * 10 + digit c
    if p.exponent = 0 ∧ s ≤ maxSignificand then takeWhole ⟨s, 0⟩ rest
    else takeWhole ⟨p.significand, p.exponent + 1⟩ rest

/-- Takes in the digits behind the point. From the first digit on that no longer fits, digits are
dropped. -/
def takeFraction (p : Parts) : List Char → Parts
  | [] => p
  | c :: rest =>
    let s := p.significand * 10 + digit c
    if s ≤ maxSignificand then takeFraction ⟨s, p.exponent - 1⟩ rest else p

/-- Powers of ten up to this exponent are doubles. -/
def maxPower : Nat := 308

def powerOfTen (e : Nat) : Float := Float.ofScientific 1 false e

/-- Scales a double by a power of ten, in one step where the power is a double and else in several.
A number beyond the largest double is refused. -/
def scale (f : Float) : Nat → Int → Option Float
  | 0, _ => some f
  | n + 1, e =>
    if e.natAbs ≤ maxPower then
      if 0 ≤ e then
        let g := f * powerOfTen e.natAbs
        if g.isInf then none else some g
      else some (f / powerOfTen e.natAbs)
    else if f == 0.0 then some f
    else if 0 ≤ e then none
    else scale (f / powerOfTen maxPower) n (e + maxPower)

def maxExponent : Nat := 2147483647

/-- The sign of a number put before its magnitude. -/
def signed (negative : Bool) (f : Float) : Float :=
  if negative then -f else f

/-- The number as a double, unless it is out of range. -/
def toFloat (n : NumberText) : Option Float :=
  let p := takeFraction (takeWhole ⟨0, 0⟩ n.whole) (n.fraction.getD [])
  match n.exponent with
  | none => (scale (countToFloat p.significand) 4 p.exponent).map (signed n.negative)
  | some (down, digits) =>
    let e := Nat.ofDigitChars 10 digits 0
    if e > maxExponent then
      if p.significand ≠ 0 ∧ ¬ down then none else some (signed n.negative 0.0)
    else
      let e := if down then p.exponent - e else p.exponent + e
      (scale (countToFloat p.significand) 4 e).map (signed n.negative)

/-- The number as a natural number up to `limit`, if it is written as one. -/
def toNat (limit : Nat) (n : NumberText) : Option Nat :=
  if n.negative ∨ n.fraction.isSome ∨ n.exponent.isSome then none
  else
    let value := Nat.ofDigitChars 10 n.whole 0
    if value ≤ limit then some value else none

def ofNat (n : Nat) : NumberText :=
  ⟨false, Nat.toDigits 10 n, none, none⟩

/-- A decimal as written: from `1e-5` up to below `1e16` with the point in its place and at least
one digit behind it, otherwise with one digit before the point and an exponent. -/
def ofDecimal (negative : Bool) (d : Decimal) : NumberText :=
  let ds := Nat.toDigits 10 d.digits
  let point := (ds.length : Int) + d.exponent
  let leading := d.leading
  if -5 ≤ leading ∧ leading ≤ 15 then
    if point ≤ 0 then ⟨negative, ['0'], some (Decimal.zeros (-point).toNat ++ ds), none⟩
    else if 0 ≤ d.exponent then
      ⟨negative, ds ++ Decimal.zeros d.exponent.toNat, some ['0'], none⟩
    else ⟨negative, ds.take point.toNat, some (ds.drop point.toNat), none⟩
  else
    ⟨negative, ds.take 1, if ds.length = 1 then none else some (ds.drop 1),
      some (leading < 0, Nat.toDigits 10 leading.natAbs)⟩

/-- A double as written: the shortest digits, of two equally near ones the even one. Infinities and
NaN are no numbers here. -/
def ofFloat (x : Float) : Option NumberText :=
  match DoubleValue.ofFloat x with
  | .finite v =>
    if v.mantissa = 0 then some ⟨v.negative, ['0'], some ['0'], none⟩
    else some (ofDecimal v.negative ((v.shortest .even).dropZeros 20))
  | _ => none

end NumberText

namespace Json

def record (members : List (String × Json)) : Json :=
  .object (members.map fun (key, value) => (some key, value))

def text (s : String) : Json := .string (some s)

def nat (n : Nat) : Json := .number (.ofNat n)

/-- A double, or `null` if it is not finite. -/
def float (x : Float) : Json :=
  match NumberText.ofFloat x with
  | some n => .number n
  | none => .null

end Json

end BlockPainting
