import BlockPainting.Json.Value

/-!
# Reading JSON

The whole text must be one value with white space around it. Nothing else is tolerated: no leading
zeros, no trailing commas, no raw control characters in strings.
-/

namespace BlockPainting.Json.Reader

def isSpace (c : Char) : Bool :=
  c == ' ' || c == '\t' || c == '\n' || c == '\r'

def skip (cs : List Char) : List Char :=
  cs.dropWhile isSpace

def isDigit (c : Char) : Bool :=
  '0' ≤ c && c ≤ '9'

/-- The digits in front, of which there must be one. -/
def digits (cs : List Char) : Option (List Char × List Char) :=
  match cs.span isDigit with
  | ([], _) => none
  | found => some found

/-- The digits before the point: no zero leads other digits. -/
def whole (cs : List Char) : Option (List Char × List Char) :=
  match digits cs with
  | some ('0' :: _ :: _, _) => none
  | found => found

/-- A point and the digits behind it, if there is a point. -/
def fraction (cs : List Char) : Option (Option (List Char) × List Char) :=
  match cs with
  | '.' :: rest => (digits rest).map fun (ds, rest) => (some ds, rest)
  | cs => some (none, cs)

def signedDigits (cs : List Char) : Option ((Bool × List Char) × List Char) :=
  match cs with
  | '-' :: rest => (digits rest).map fun (ds, rest) => ((true, ds), rest)
  | '+' :: rest => (digits rest).map fun (ds, rest) => ((false, ds), rest)
  | cs => (digits cs).map fun (ds, rest) => ((false, ds), rest)

/-- An exponent, if there is one. -/
def exponent (cs : List Char) : Option (Option (Bool × List Char) × List Char) :=
  match cs with
  | 'e' :: rest => (signedDigits rest).map fun (e, rest) => (some e, rest)
  | 'E' :: rest => (signedDigits rest).map fun (e, rest) => (some e, rest)
  | cs => some (none, cs)

def magnitude (negative : Bool) (cs : List Char) : Option (NumberText × List Char) := do
  let (w, cs) ← whole cs
  let (f, cs) ← fraction cs
  let (e, cs) ← exponent cs
  return (⟨negative, w, f, e⟩, cs)

def number (cs : List Char) : Option (NumberText × List Char) :=
  match cs with
  | '-' :: rest => magnitude true rest
  | cs => magnitude false cs

def hexDigit (c : Char) : Option Nat :=
  if '0' ≤ c ∧ c ≤ '9' then some (c.toNat - '0'.toNat)
  else if 'a' ≤ c ∧ c ≤ 'f' then some (c.toNat - 'a'.toNat + 10)
  else if 'A' ≤ c ∧ c ≤ 'F' then some (c.toNat - 'A'.toNat + 10)
  else none

/-- The code unit of a `\u` escape. -/
def codeUnit (a b c d : Char) : Option Nat := do
  let a ← hexDigit a
  let b ← hexDigit b
  let c ← hexDigit c
  let d ← hexDigit d
  return ((a * 16 + b) * 16 + c) * 16 + d

def isLead (n : Nat) : Bool := 0xd800 ≤ n && n < 0xdc00

def isTrail (n : Nat) : Bool := 0xdc00 ≤ n && n < 0xe000

def pairChar (lead trail : Nat) : Char :=
  Char.ofNat (0x10000 + (lead - 0xd800) * 0x400 + (trail - 0xdc00))

def escape (c : Char) : Option Char :=
  match c with
  | '"' => some '"'
  | '\\' => some '\\'
  | '/' => some '/'
  | 'b' => some '\x08'
  | 'f' => some '\x0c'
  | 'n' => some '\n'
  | 'r' => some '\r'
  | 't' => some '\t'
  | _ => none

/-- Puts a character before a text that was read. -/
def cons (c : Char) (found : Option (Option (List Char) × List Char)) :
    Option (Option (List Char) × List Char) :=
  found.map fun (text, rest) => (text.map (c :: ·), rest)

def unpaired (found : Option (Option (List Char) × List Char)) :
    Option (Option (List Char) × List Char) :=
  found.map fun (_, rest) => (none, rest)

/-- A string after its opening quote, up to its closing quote. -/
def stringBody : List Char → Option (Option (List Char) × List Char)
  | [] => none
  | '"' :: rest => some (some [], rest)
  | '\\' :: 'u' :: a :: b :: c :: d :: rest =>
    match codeUnit a b c d with
    | none => none
    | some unit =>
      if isLead unit then
        match rest with
        | '\\' :: 'u' :: e :: f :: g :: h :: rest' =>
          match codeUnit e f g h with
          | none => none
          | some trail =>
            if isTrail trail then cons (pairChar unit trail) (stringBody rest')
            else unpaired (stringBody ('\\' :: 'u' :: e :: f :: g :: h :: rest'))
        | rest => unpaired (stringBody rest)
      else if isTrail unit then unpaired (stringBody rest)
      else cons (Char.ofNat unit) (stringBody rest)
  | '\\' :: c :: rest =>
    match escape c with
    | none => none
    | some c => cons c (stringBody rest)
  | c :: rest => if c < ' ' then none else cons c (stringBody rest)
termination_by cs => cs.length

def string (cs : List Char) : Option (Option String × List Char) :=
  (stringBody cs).map fun (text, rest) => (text.map String.ofList, rest)

mutual

/-- A value. Every step takes at least one character off the text, so the number of steps is bounded
by the length of the text. -/
def value : Nat → List Char → Option (Json × List Char)
  | 0, _ => none
  | n + 1, cs =>
    match skip cs with
    | 'n' :: 'u' :: 'l' :: 'l' :: rest => some (.null, rest)
    | 't' :: 'r' :: 'u' :: 'e' :: rest => some (.bool true, rest)
    | 'f' :: 'a' :: 'l' :: 's' :: 'e' :: rest => some (.bool false, rest)
    | '"' :: rest => (string rest).map fun (s, rest) => (.string s, rest)
    | '[' :: rest =>
      match skip rest with
      | ']' :: rest => some (.array [], rest)
      | rest => (items n rest).map fun (js, rest) => (.array js, rest)
    | '\x7b' :: rest =>
      match skip rest with
      | '\x7d' :: rest => some (.object [], rest)
      | rest => (members n rest).map fun (ms, rest) => (.object ms, rest)
    | cs => (number cs).map fun (k, rest) => (.number k, rest)

/-- The items of an array, up to its end. -/
def items : Nat → List Char → Option (List Json × List Char)
  | 0, _ => none
  | n + 1, cs => do
    let (j, rest) ← value n cs
    match skip rest with
    | ',' :: rest =>
      let (js, rest) ← items n rest
      return (j :: js, rest)
    | ']' :: rest => return ([j], rest)
    | _ => none

/-- The members of an object, up to its end. -/
def members : Nat → List Char → Option (List (Option String × Json) × List Char)
  | 0, _ => none
  | n + 1, cs =>
    match skip cs with
    | '"' :: rest => do
      let (key, rest) ← string rest
      match skip rest with
      | ':' :: rest =>
        let (j, rest) ← value n rest
        match skip rest with
        | ',' :: rest =>
          let (ms, rest) ← members n rest
          return ((key, j) :: ms, rest)
        | '\x7d' :: rest => return ([(key, j)], rest)
        | _ => none
      | _ => none
    | _ => none

end

/-- The value in front of a text and what follows it. -/
def valueIn (cs : List Char) : Option (Json × List Char) :=
  value (cs.length + 1) cs

end BlockPainting.Json.Reader

namespace BlockPainting.Json

def parse (s : String) : Option Json :=
  match Reader.valueIn s.toList with
  | some (j, rest) => if Reader.skip rest = [] then some j else none
  | none => none

end BlockPainting.Json
