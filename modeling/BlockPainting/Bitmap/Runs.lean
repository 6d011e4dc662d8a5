import BlockPainting.Bitmap.Header

/-!
# Runs in bitmap files

A picture may be stored as commands, which give pixels or leave them out. They go from left to right
and from the bottom row up, and no command for pixels goes beyond the end of its row. Pixels that
are left out are black.
-/

namespace BlockPainting.Bitmap

inductive Command where
  | endOfRow
  | endOfPicture
  /-- Leaves out so many rows and then so many pixels. -/
  | skip (right up : Nat)
  | numbers (ns : List Nat)

/-- The numbers in bytes: one in each byte, or one in each half with the higher half first. -/
def numbersIn (halves : Bool) (bytes : List UInt8) : List Nat :=
  if halves then bytes.flatMap fun b => [b.toNat / 16, b.toNat % 16] else bytes.map UInt8.toNat

/-- The next command and what follows it. Listed numbers take an even number of bytes. -/
def Command.next? (halves : Bool) : List UInt8 → Option (Command × List UInt8)
  | 0 :: 0 :: rest => some (.endOfRow, rest)
  | 0 :: 1 :: rest => some (.endOfPicture, rest)
  | 0 :: 2 :: right :: up :: rest => some (.skip right.toNat up.toNat, rest)
  | 0 :: 2 :: _ => none
  | 0 :: n :: rest =>
    let needed := if halves then (n.toNat + 1) / 2 else n.toNat
    let length := needed + needed % 2
    let listed := rest.take length
    if listed.length < length then none
    else some (.numbers ((numbersIn halves listed).take n.toNat), rest.drop length)
  | n :: b :: rest =>
    some (.numbers ((numbersIn halves (List.replicate n.toNat b)).take n.toNat), rest)
  | _ => none

structure Part where
  pixels : Array Color
  /-- The row that comes next or is not yet over. -/
  row : Nat

namespace Part

/-- Leaves out pixels up to a number of them. -/
def fill (p : Part) (size : Nat) : Array Color :=
  p.pixels ++ Array.replicate (size - p.pixels.size) Color.black

def apply (width height : Nat) (color : Nat → Color) (p : Part) : Command → Except Fault Part
  | .endOfRow => .ok ⟨p.fill ((p.row + 1) * width), p.row + 1⟩
  | .endOfPicture => .ok ⟨p.fill (height * width), height⟩
  | .skip right up =>
    let row := p.row + up
    let size := p.pixels.size + up * width + right
    if height ≤ row ∨ (row + 1) * width < size then .error .strayRun else .ok ⟨p.fill size, row⟩
  | .numbers ns =>
    if (p.row + 1) * width < p.pixels.size + ns.length then .error .strayRun
    else .ok { p with pixels := p.pixels ++ ns.map color }

/-- Carries out the commands in bytes until all rows are over. A command takes at least one byte, so
that the number of bytes bounds that of the commands. -/
def applyAll (width height : Nat) (color : Nat → Color) (halves : Bool) :
    Nat → Part → List UInt8 → Except PictureError Part
  | 0, p, _ => if height ≤ p.row then .ok p else .error .cutShort
  | bound + 1, p, bytes =>
    if height ≤ p.row then .ok p
    else
      match Command.next? halves bytes with
      | none => .error .cutShort
      | some (command, rest) => do
        let next ← (p.apply width height color command).mapError .bitmap
        applyAll width height color halves bound next rest

end Part

/-- The pixels from the bottom row up of a picture that is stored in runs. -/
def runs (bytes : ByteArray) (h : Header) : Except PictureError (Array Color) := do
  let commands := (bytes.extract h.offset bytes.size).toList
  let all ← Part.applyAll h.width h.height h.meaning.color (h.coding = .halfRuns)
    commands.length ⟨#[], 0⟩ commands
  return all.pixels

end BlockPainting.Bitmap
