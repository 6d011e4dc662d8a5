import BlockPainting.Color
import BlockPainting.SolveError

/-!
# Headers of bitmap files

A bitmap file begins with two letters and the place of its rows. Then comes a header of one of
several sizes, of which all but the shortest begin with the same fields, and after it the masks or
the palette. Numbers are little-endian, and a file that ends before a number is read is cut short.
-/

namespace BlockPainting.Bitmap

/-- The byte at a place, or zero beyond the end. -/
def byte (bytes : ByteArray) (i : Nat) : UInt8 :=
  bytes[i]?.getD 0

/-- The little-endian number of so many bytes at a place. -/
def number (bytes : ByteArray) (i : Nat) : Nat → Nat
  | 0 => 0
  | n + 1 => (byte bytes i).toNat + 256 * number bytes (i + 1) n

/-- The number of so many bytes at a place, all of which must be there. -/
def field (bytes : ByteArray) (i n : Nat) : Except PictureError Nat :=
  if i + n ≤ bytes.size then .ok (number bytes i n) else .error .cutShort

/-- A number of four bytes that may be negative. -/
def signedField (bytes : ByteArray) (i : Nat) : Except PictureError Int :=
  (field bytes i 4).map fun n => (n : Int).bmod (Nat.pow 2 32)

/-- Goes on, or fails with a fault if there is one. -/
def refuse (faulty : Bool) (fault : Fault) : Except PictureError Unit :=
  if faulty then .error (.bitmap fault) else .ok ()

/-- The bits of a number that hold a channel. -/
structure Channel where
  shift : Nat
  bits : Nat

namespace Channel

/-- The channel under a mask, whose bits must be neighbours and among the lowest ones. Of a channel
with more than eight bits only the highest eight count. -/
def ofMask (limit mask : Nat) : Except Fault Channel :=
  match (List.range 32).filter mask.testBit with
  | [] => .ok ⟨0, 0⟩
  | lowest :: others =>
    let count := others.length + 1
    if lowest :: others ≠ List.range' lowest count then .error .maskWithGaps
    else if limit < lowest + count then .error .longMask
    else .ok ⟨lowest + (count - 8), min count 8⟩

/-- The value of a channel in a number, stretched to a whole byte. -/
def value (c : Channel) (n : Nat) : UInt8 :=
  let highest := Nat.pow 2 c.bits - 1
  (((n >>> c.shift) % (highest + 1) * 510 + highest) / (2 * highest)).toUInt8

end Channel

structure Channels where
  red : Channel
  green : Channel
  blue : Channel
  alpha : Channel

namespace Channels

/-- A byte for each channel, the blue one lowest. -/
def bytes : Channels :=
  ⟨⟨16, 8⟩, ⟨8, 8⟩, ⟨0, 8⟩, ⟨0, 0⟩⟩

/-- Five bits for each channel, the blue one lowest. -/
def fives : Channels :=
  ⟨⟨10, 5⟩, ⟨5, 5⟩, ⟨0, 5⟩, ⟨0, 0⟩⟩

/-- The channels under four masks, of which only the last may be empty. -/
def ofMasks (bits red green blue alpha : Nat) : Except Fault Channels := do
  let channel := Channel.ofMask bits
  let channels : Channels := ⟨← channel red, ← channel green, ← channel blue, ← channel alpha⟩
  if channels.red.bits = 0 ∨ channels.green.bits = 0 ∨ channels.blue.bits = 0 then
    .error (.missingMask bits)
  else .ok channels

def color (c : Channels) (n : Nat) : Color :=
  ⟨c.red.value n, c.green.value n, c.blue.value n,
    if c.alpha.bits = 0 then 255 else c.alpha.value n⟩

end Channels

structure Opening where
  width : Nat
  height : Nat
  topDown : Bool
  bits : Nat
  coding : Coding
  /-- The number of colors in the palette, or zero for as many as there are numbers. -/
  colors : Nat

def shortSize : Nat := 12

def longSizes : List Nat := [40, 52, 56, 108, 124]

/-- The sizes of the headers with a mask for the alpha channel. -/
def alphaSizes : List Nat := [56, 108, 124]

def shortOpening (bytes : ByteArray) : Except PictureError Opening := do
  let width ← field bytes 18 2
  let height ← field bytes 20 2
  refuse (width = 0 || height = 0) (.noPixels width height)
  let planes ← field bytes 22 2
  refuse (planes ≠ 1) .severalPlanes
  let bits ← field bytes 24 2
  refuse (bits ∉ [1, 4, 8, 24]) (.depth .plain bits)
  return ⟨width, height, false, bits, .plain, 0⟩

def codingOf : Nat → Except Fault Coding
  | 0 => .ok .plain
  | 1 => .ok .byteRuns
  | 2 => .ok .halfRuns
  | 3 => .ok .masked
  | 4 => .error (.unsupported "JPEG compression")
  | 5 => .error (.unsupported "PNG compression")
  | 11 => .error (.unsupported "CMYK format")
  | 12 => .error (.unsupported "CMYK format")
  | 13 => .error (.unsupported "CMYK format")
  | n => .error (.unknownCoding n)

/-- The numbers of bits that a pixel may have. -/
def Coding.depths : Coding → List Nat
  | plain => [1, 2, 4, 8, 16, 24, 32]
  | byteRuns => [8]
  | halfRuns => [4]
  | masked => [16, 32]

def longestSide : Int := 65535

/-- Reads the fields that the other headers begin with. Rows go from the top down if the height is
negative. -/
def longOpening (bytes : ByteArray) : Except PictureError Opening := do
  let width ← signedField bytes 18
  let height ← signedField bytes 22
  refuse (width < 0) (.negativeWidth width)
  refuse (longestSide < width || longestSide < height) (.longSide width height)
  refuse (height = -(Nat.pow 2 31)) .lowestHeight
  refuse (width = 0 || height = 0) (.noPixels width.natAbs height.natAbs)
  let planes ← field bytes 26 2
  refuse (planes ≠ 1) .severalPlanes
  let bits ← field bytes 28 2
  let kind ← field bytes 30 4
  refuse (height < 0 && kind ≠ 0 && kind ≠ 3) (.topDownCoding kind)
  let coding ← (codingOf kind).mapError .bitmap
  refuse (bits ∉ coding.depths) (.depth coding bits)
  let colors ← field bytes 46 4
  let _ ← field bytes 50 4
  return ⟨width.natAbs, height.natAbs, height < 0, bits, coding, colors⟩

/-- What the number of a pixel means. -/
inductive Meaning where
  /-- It is the number of a color; further colors are black. -/
  | index (palette : List Color)
  | channels (c : Channels)

/-- The color that the number of a pixel stands for. -/
def Meaning.color : Meaning → Nat → Color
  | index palette, n => palette.getD n Color.black
  | channels c, n => c.color n

structure Header where
  offset : Nat
  width : Nat
  height : Nat
  topDown : Bool
  bits : Nat
  coding : Coding
  meaning : Meaning

/-- Reads a palette at a place. The shortest header has three bytes to a color, the others four. -/
def palette (bytes : ByteArray) (place size : Nat) (o : Opening) :
    Except PictureError (List Color) := do
  let most := Nat.pow 2 o.bits
  refuse (most < o.colors) (.longPalette o.colors o.bits)
  let count := if o.colors = 0 then most else o.colors
  let step := if size = shortSize then 3 else 4
  let _ ← field bytes place (step * count)
  return (List.range count).map fun i => Channels.bytes.color (number bytes (place + step * i) 3)

def masks (bytes : ByteArray) (size bits : Nat) : Except PictureError Channels := do
  let red ← field bytes 54 4
  let green ← field bytes 58 4
  let blue ← field bytes 62 4
  let alpha ← if size ∈ alphaSizes then field bytes 66 4 else pure 0
  (Channels.ofMasks bits red green blue alpha).mapError .bitmap

def meaning (bytes : ByteArray) (size : Nat) (o : Opening) : Except PictureError Meaning := do
  if o.coding = .masked then return .channels (← masks bytes size o.bits)
  else if o.bits ≤ 8 then return .index (← palette bytes (14 + size) size o)
  else if o.bits = 16 then return .channels .fives
  else return .channels .bytes

/-- The most memory that a picture may take, in bytes. -/
def maxMemory : Nat := 536870912

def Meaning.memory : Meaning → Nat
  | channels c => if c.alpha.bits = 0 then 3 else 4
  | index _ => 3

def header (bytes : ByteArray) : Except PictureError Header := do
  let offset ← field bytes 10 4
  let size ← field bytes 14 4
  refuse (size < shortSize) (.shortHeader size)
  refuse (size ≠ shortSize && size ∉ longSizes) (.unknownHeader size)
  let o ← if size = shortSize then shortOpening bytes else longOpening bytes
  let meaning ← meaning bytes size o
  if maxMemory < o.width * o.height * meaning.memory then throw .tooLarge
  return ⟨offset, o.width, o.height, o.topDown, o.bits, o.coding, meaning⟩

/-- The length of a row in the file: whole words of four bytes. -/
def stride (bits width : Nat) : Nat :=
  (bits * width + 31) / 32 * 4

end BlockPainting.Bitmap
