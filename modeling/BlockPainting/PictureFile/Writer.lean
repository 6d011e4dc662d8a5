import BlockPainting.Bitmap.Header
import BlockPainting.Raster

/-!
# Writing picture files

Bitmaps have 24 bits for each pixel and their rows from the bottom up, behind a header of 40 bytes.

PNG files have four bytes per pixel. The pixel data is stored without compression, in blocks of at
most 65535 bytes.

WebP files are lossless, with four bytes per pixel. Every value of a channel is coded in eight bits,
so that the size of the file depends only on the size of the picture.
-/

namespace BlockPainting.Bitmap

def numberBytes : Nat → Nat → List UInt8
  | 0, _ => []
  | n + 1, value => (value % 256).toUInt8 :: numberBytes n (value / 256)

def rowBytes (img : Image) (y : Nat) : List UInt8 :=
  ((List.range img.width).flatMap fun x =>
    let c := img.pixel x y
    [c.blue, c.green, c.red])
    ++ List.replicate (stride 24 img.width - 3 * img.width) 0

/-- The bitmap file of a picture, whose alpha channel is left out. -/
def encode (img : Image) : ByteArray :=
  let size := img.height * stride 24 img.width
  let head := [0x42, 0x4d] ++ numberBytes 4 (54 + size) ++ numberBytes 4 0 ++ numberBytes 4 54
    ++ numberBytes 4 40 ++ numberBytes 4 img.width ++ numberBytes 4 img.height ++ numberBytes 2 1
    ++ numberBytes 2 24 ++ numberBytes 4 0 ++ numberBytes 4 size ++ numberBytes 4 2835
    ++ numberBytes 4 2835 ++ numberBytes 4 0 ++ numberBytes 4 0
  let rows := (List.range img.height).reverse.flatMap (rowBytes img)
  ⟨(head ++ rows).toArray⟩

end BlockPainting.Bitmap

namespace BlockPainting.Png

def word (n : UInt32) : List UInt8 :=
  [(n >>> 24).toUInt8, (n >>> 16).toUInt8, (n >>> 8).toUInt8, n.toUInt8]

/-- One shift of the remainder of a cyclic redundancy check. -/
def shift (c : UInt32) : UInt32 :=
  if c &&& 1 = 1 then (c >>> 1) ^^^ 0xedb88320 else c >>> 1

def crcByte (c : UInt32) (b : UInt8) : UInt32 :=
  (shift ∘ shift ∘ shift ∘ shift ∘ shift ∘ shift ∘ shift ∘ shift) (c ^^^ b.toUInt32)

/-- The cyclic redundancy check of a chunk. -/
def crc (bytes : List UInt8) : UInt32 :=
  bytes.foldl crcByte 0xffffffff ^^^ 0xffffffff

/-- The check sum of the pixel data: two sums modulo the largest prime below `2 ^ 16`. -/
def adler (bytes : List UInt8) : UInt32 :=
  let (a, b) := bytes.foldl (fun (a, b) x =>
    let a := (a + x.toUInt32) % 65521
    (a, (b + a) % 65521)) (1, 0)
  (b <<< 16) ||| a

/-- The two low bytes of a number, the lower first. -/
def half (n : Nat) : List UInt8 :=
  [n.toUInt8, (n / 256).toUInt8]

/-- Cuts bytes into stored blocks, so many at most; the last one is marked. -/
def stored : Nat → List UInt8 → List UInt8
  | 0, _ => []
  | n + 1, bytes =>
    let block := bytes.take 65535
    let rest := bytes.drop 65535
    (if rest = [] then 1 else 0) :: half block.length ++ half (65535 - block.length) ++ block
      ++ (if rest = [] then [] else stored n rest)

/-- Pixel data in the wrapping of a compressed stream. -/
def stream (bytes : List UInt8) : List UInt8 :=
  [0x78, 0x01] ++ stored (bytes.length / 65535 + 1) bytes ++ word (adler bytes)

/-- A chunk with its length, kind and check. -/
def chunk (kind : String) (content : List UInt8) : List UInt8 :=
  let body := kind.toUTF8.toList ++ content
  word content.length.toUInt32 ++ body ++ word (crc body)

/-- The size of the picture, eight bits in each of four channels, rows in order. -/
def header (img : Image) : List UInt8 :=
  word img.width.toUInt32 ++ word img.height.toUInt32 ++ [8, 6, 0, 0, 0]

/-- One row, of which no byte depends on others. -/
def row (img : Image) (y : Nat) : List UInt8 :=
  0 :: (List.range img.width).flatMap fun x =>
    let c := img.pixel x y
    [c.red, c.green, c.blue, c.alpha]

def encode (img : Image) : ByteArray :=
  let signature : List UInt8 := [0x89, 0x50, 0x4e, 0x47, 0x0d, 0x0a, 0x1a, 0x0a]
  let rows := (List.range img.height).flatMap (row img)
  ⟨(signature ++ chunk "IHDR" (header img) ++ chunk "IDAT" (stream rows)
    ++ chunk "IEND" []).toArray⟩

end BlockPainting.Png

namespace BlockPainting.WebP

/-- Bytes filled bit by bit, each from its lowest bit up. -/
structure Bits where
  bytes : ByteArray
  /-- The bits of the byte that is not yet full. -/
  pending : UInt8
  count : Nat

namespace Bits

def empty : Bits := ⟨.empty, 0, 0⟩

def push (b : Bits) (bit : Bool) : Bits :=
  let byte := if bit then b.pending ||| ((1 : UInt8) <<< b.count.toUInt8) else b.pending
  if b.count = 7 then ⟨b.bytes.push byte, 0, 0⟩ else ⟨b.bytes, byte, b.count + 1⟩

def repeated (b : Bits) (n : Nat) (bit : Bool) : Bits :=
  n.repeat (fun b => b.push bit) b

/-- Adds so many bits of a number, the lowest first. -/
def number (b : Bits) : Nat → Nat → Bits
  | 0, _ => b
  | n + 1, value => (b.push (value % 2 = 1)).number n (value / 2)

/-- Adds the eight bits of a byte, the highest first. -/
def symbol (b : Bits) (value : UInt8) : Bits :=
  [7, 6, 5, 4, 3, 2, 1, 0].foldl
    (fun b place => b.push ((value >>> place) &&& 1 = 1)) b

/-- All bytes, the last one filled up with zeros. -/
def finish (b : Bits) : ByteArray :=
  if b.count = 0 then b.bytes else b.bytes.push b.pending

end Bits

/-- The lengths of the codes by which the lengths of other codes are told, in the order of the
format: none but those for the lengths zero, if needed, and eight. -/
def lengthCodes (zero : Bool) : List Nat :=
  [0, 0, if zero then 1 else 0, 0, 0, 0, 0, 0, 0, 0, 0, 1]

/-- Begins a code that is told symbol by symbol, all symbols included. -/
def beginCode (b : Bits) (zero : Bool) : Bits :=
  let b := (b.push false).number 4 (12 - 4)
  ((lengthCodes zero).foldl (fun b n => b.number 3 n) b).push false

/-- The code of a channel: all bytes in eight bits, so that no symbol needs to be told. -/
def channelCode (b : Bits) : Bits :=
  beginCode b false

/-- The code of the green channel, which has further symbols that are never used. -/
def greenCode (b : Bits) : Bits :=
  ((beginCode b true).repeated 256 true).repeated 24 false

/-- A code with a single symbol, which takes no bits. -/
def singleCode (b : Bits) : Bits :=
  b.number 4 1

/-- The pixel data behind the size and the five codes. -/
def content (img : Image) : ByteArray :=
  let size := ((Bits.empty.number 8 0x2f).number 14 (img.width - 1)).number 14 (img.height - 1)
  -- The alpha channel is used; then version zero, and no transforms, color cache or code groups.
  let head := ((size.push true).number 3 0).repeated 3 false
  let codes := singleCode (channelCode (channelCode (channelCode (greenCode head))))
  let pixels := img.pixels.foldl
    (fun b c => (((b.symbol c.green).symbol c.red).symbol c.blue).symbol c.alpha) codes
  pixels.finish

def word (n : UInt32) : List UInt8 :=
  [n.toUInt8, (n >>> 8).toUInt8, (n >>> 16).toUInt8, (n >>> 24).toUInt8]

def encode (img : Image) : ByteArray :=
  let data := content img
  let padding : List UInt8 := if data.size % 2 = 0 then [] else [0]
  let size := data.size + padding.length + 12
  let head := "RIFF".toUTF8.toList ++ word size.toUInt32 ++ "WEBPVP8L".toUTF8.toList
    ++ word data.size.toUInt32
  ⟨head.toArray⟩ ++ data ++ ⟨padding.toArray⟩

end BlockPainting.WebP
