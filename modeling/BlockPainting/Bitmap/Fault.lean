/-!
# Faults of bitmap files
-/

namespace BlockPainting.Bitmap

inductive Coding where
  /-- One number for each pixel, of a color in the palette or of the channels. -/
  | plain
  | byteRuns
  | halfRuns
  /-- One number for each pixel, in which masks tell the channels. -/
  | masked
  deriving DecidableEq

def Coding.name : Coding → String
  | plain => "RGB"
  | byteRuns => "RLE8"
  | halfRuns => "RLE4"
  | masked => "bitfields"

inductive Fault where
  | shortHeader (size : Nat)
  | unknownHeader (size : Nat)
  | negativeWidth (width : Int)
  | longSide (width height : Int)
  /-- The lowest number, which has no counterpart above zero, as the height. -/
  | lowestHeight
  | noPixels (width height : Nat)
  | severalPlanes
  | depth (coding : Coding) (bits : Nat)
  | topDownCoding (number : Nat)
  | unknownCoding (number : Nat)
  | unsupported (feature : String)
  | longPalette (colors bits : Nat)
  | maskWithGaps
  | longMask
  | missingMask (bits : Nat)
  | strayRun
  deriving DecidableEq

namespace Fault

/-- What a bitmap has that is not read. -/
def feature? : Fault → Option String
  | unknownHeader size => some s!"Unknown bitmap header type (size={size})"
  | noPixels width height =>
    some s!"Image dimensions ({width}x{height} w/3 channels) are too large"
  | unsupported feature => some feature
  | _ => none

def words : Fault → String
  | shortHeader size => s!"Bitmap header too small ({size} bytes)"
  | negativeWidth width => s!"Negative width ({width})"
  | longSide width height =>
    s!"Image too large (one of ({width}, {height}) > soft limit of 65535)"
  | lowestHeight => "Invalid height"
  | severalPlanes => "More than one plane"
  | depth coding bits => s!"Invalid channel bit count for {coding.name}: {bits}"
  | topDownCoding number => s!"Invalid image type {number} for top-down image."
  | unknownCoding number => s!"Unknown image compression type {number}"
  | longPalette colors bits =>
    s!"Palette size {colors} exceeds maximum size for BMP with bit count of {bits}"
  | maskWithGaps => "Non-contiguous bitfield mask"
  | longMask => "Invalid bitfield mask"
  | missingMask bits => s!"Missing {bits}-bit bitfield mask"
  | strayRun => "Corrupt RLE data"
  | fault => fault.feature?.getD ""

def message (fault : Fault) : String :=
  match fault.feature? with
  | some feature => s!"The decoder for Bmp does not support the format features {feature}"
  | none => s!"Format error decoding Bmp: {fault.words}"

end Fault

end BlockPainting.Bitmap
