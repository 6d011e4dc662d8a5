/-!
# Reading text

White space is the Unicode property `White_Space`. Lines end at a line feed, and a carriage return
just before that line feed goes with it. A numeral is one or more ASCII digits, leading zeros among
them, with at most one plus sign before. A real number is a sign, digits with at most one point
among or around them, and an exponent, of which only one digit must be there. Infinity and NaN are
written by name in any case.
-/

namespace BlockPainting.Text

/-- The Unicode property `White_Space`. -/
def isBlank (c : Char) : Bool :=
  let n := c.toNat
  (0x9 ≤ n && n ≤ 0xd) || n == 0x20 || n == 0x85 || n == 0xa0 || n == 0x1680
    || (0x2000 ≤ n && n ≤ 0x200a) || n == 0x2028 || n == 0x2029 || n == 0x202f || n == 0x205f
    || n == 0x3000

def trimStart (cs : List Char) : List Char :=
  cs.dropWhile isBlank

def trim (cs : List Char) : List Char :=
  (trimStart (trimStart cs).reverse).reverse

/-- The lines of a text. A line feed at the very end opens no further line. -/
def lines : List Char → List (List Char)
  | [] => []
  | '\n' :: rest => [] :: lines rest
  | '\r' :: '\n' :: rest => [] :: lines rest
  | c :: rest =>
    match lines rest with
    | [] => [[c]]
    | line :: more => (c :: line) :: more

/-- The pieces between the separators, of which there is always at least one. -/
def fields (separator : Char) : List Char → List (List Char)
  | [] => [[]]
  | c :: rest =>
    if c = separator then [] :: fields separator rest
    else
      match fields separator rest with
      | [] => [[c]]
      | field :: more => (c :: field) :: more

/-- What stands before the first character with the property, and what after it. -/
def splitOnce (p : Char → Bool) : List Char → Option (List Char × List Char)
  | [] => none
  | c :: rest =>
    if p c then some ([], rest)
    else (splitOnce p rest).map fun (before, after) => (c :: before, after)

def isDigit (c : Char) : Bool :=
  '0' ≤ c && c ≤ '9'

/-- The number written by digits, if it is at most `limit`. -/
def readDigits (limit : Nat) (cs : List Char) : Option Nat :=
  if cs ≠ [] ∧ cs.all isDigit then
    let n := Nat.ofDigitChars 10 cs 0
    if n ≤ limit then some n else none
  else
    none

/-- The number written by a numeral, if it is at most `limit`. -/
def readNumeral (limit : Nat) : List Char → Option Nat
  | '+' :: cs => readDigits limit cs
  | cs => readDigits limit cs

/-- An exponent with its mark and sign; nothing at all is the exponent zero. -/
def readExponent : List Char → Option Int
  | [] => some 0
  | mark :: cs =>
    if mark.toLower ≠ 'e' then none
    else
      match cs with
      | '-' :: ds => (digits ds).map fun n : Nat => -(n : Int)
      | '+' :: ds => (digits ds).map fun n : Nat => (n : Int)
      | ds => (digits ds).map fun n : Nat => (n : Int)
where
  digits (ds : List Char) : Option Nat :=
    if ds ≠ [] ∧ ds.all isDigit then some (Nat.ofDigitChars 10 ds 0) else none

/-- The double nearest to `n * 10 ^ e`. -/
def nearestDouble (n : Nat) (e : Int) : Float :=
  let leading := ((Nat.toDigits 10 n).length : Int) + e
  if n = 0 ∨ leading < -330 then 0.0
  else if leading > 310 then 1.0 / 0.0
  else Float.ofScientific n (e < 0) e.natAbs

/-- Digits with at most one point, and an exponent. -/
def readMagnitude (cs : List Char) : Option Float :=
  let (whole, rest) := cs.span isDigit
  let (fraction, rest) :=
    match rest with
    | '.' :: rest => rest.span isDigit
    | rest => ([], rest)
  if whole ++ fraction = [] then none
  else
    (readExponent rest).map fun e =>
      nearestDouble (Nat.ofDigitChars 10 (whole ++ fraction) 0) (e - fraction.length)

def readUnsigned (cs : List Char) : Option Float :=
  match String.ofList (cs.map Char.toLower) with
  | "inf" => some (1.0 / 0.0)
  | "infinity" => some (1.0 / 0.0)
  | "nan" => some (0.0 / 0.0)
  | _ => readMagnitude cs

/-- A real number, as the double nearest to it. -/
def readReal : List Char → Option Float
  | '-' :: cs => (readUnsigned cs).map fun x => -x
  | '+' :: cs => readUnsigned cs
  | cs => readUnsigned cs

end BlockPainting.Text
