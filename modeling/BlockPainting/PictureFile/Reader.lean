import BlockPainting.Bitmap.Runs
import BlockPainting.Raster
import BlockPainting.SolveError

/-!
# Reading picture files

The first bytes of a file tell its format. Of the known formats only bitmaps are read.

Unless a bitmap is stored in runs, the number of a pixel stands in as many bits of its row as the
header tells. Pixels that share a byte begin at its highest bit. Rows go from the bottom up, or from
the top down if the header says so, and must be there in full length.
-/

namespace BlockPainting.Bitmap

/-- The number of the pixel in column `x` of the row that begins at a place. -/
def pixelNumber (bytes : ByteArray) (bits row x : Nat) : Nat :=
  if bits < 8 then
    let first := bits * x
    ((byte bytes (row + first / 8)).toNat >>> (8 - bits - first % 8)) % Nat.pow 2 bits
  else number bytes (row + bits / 8 * x) (bits / 8)

/-- The pixel in column `x` of row `y`, counted from the top. -/
def pixel (bytes : ByteArray) (h : Header) (x y : Nat) : Color :=
  let row := if h.topDown then y else h.height - 1 - y
  h.meaning.color (pixelNumber bytes h.bits (h.offset + row * stride h.bits h.width) x)

/-- The picture in the rows of a bitmap file. -/
def rows (bytes : ByteArray) (h : Header) : Except PictureError Image :=
  if bytes.size < h.offset + h.height * stride h.bits h.width then .error .cutShort
  else .ok (Image.ofFn h.width h.height (pixel bytes h))

def decode (bytes : ByteArray) : Except PictureError Image := do
  let h ← header bytes
  if h.coding = .plain ∨ h.coding = .masked then rows bytes h
  else
    let pixels ← runs bytes h
    return Image.ofFn h.width h.height fun x y =>
      pixels.getD ((h.height - 1 - y) * h.width + x) Color.black

end BlockPainting.Bitmap

namespace BlockPainting.PictureFile

/-- The chunks that a WebP file may begin with, and how many bytes each has at least. -/
def webPChunks : List (String × Nat) :=
  [("VP8 ", 10), ("VP8L", 5), ("VP8X", 10)]

/-- Why a WebP file is not read. The head of its first chunk is checked before. -/
def webPError (bytes : ByteArray) : PictureError :=
  if bytes.size < 20 then .cutShort
  else
    let name := (bytes.extract 12 16).toList
    match webPChunks.find? fun chunk => chunk.1.toUTF8.toList = name with
    | none => .webPChunk name
    | some (_, size) => if bytes.size < 20 + size then .cutShort else .unsupported .webP

def decodeBytes (bytes : ByteArray) : Except PictureError Image :=
  match PictureFormat.ofBytes? bytes with
  | none => .error .unknownFormat
  | some .bmp => Bitmap.decode bytes
  | some .webP => .error (webPError bytes)
  | some format => .error (.unsupported format)

def decode (bytes : ByteArray) : Except SolveError Image :=
  if bytes.size = 0 then .error .emptyInput
  else (decodeBytes bytes).mapError .imageDecode

end BlockPainting.PictureFile
