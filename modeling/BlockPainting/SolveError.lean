import BlockPainting.Bitmap.Fault
import BlockPainting.Board
import BlockPainting.Layout.Basic
import BlockPainting.PictureFormat
import BlockPainting.Settings

/-!
# Errors of a solve

A picture cannot be painted if there is none in its file, or for what the settings, the geometry,
the layout or a replay refuse.
-/

namespace BlockPainting

inductive PictureError where
  | unknownFormat
  | unsupported (format : PictureFormat)
  | cutShort
  | tooLarge
  | bitmap (fault : Bitmap.Fault)
  /-- A WebP file begins with a chunk of another name. -/
  | webPChunk (name : List UInt8)

namespace PictureError

/-- Bytes in hexadecimal digits, as few for each as possible. -/
def hexText (bytes : List UInt8) : String :=
  ", ".intercalate (bytes.map fun b => String.ofList (Nat.toDigits 16 b.toNat))

def message : PictureError → String
  | unknownFormat => "The image format could not be determined"
  | unsupported format => s!"The image format {format.name} is not supported"
  | cutShort => "failed to fill whole buffer"
  | tooLarge => "Memory limit exceeded"
  | bitmap fault => fault.message
  | webPChunk name => s!"Format error decoding WebP: Invalid Chunk header: [{hexText name}]"

end PictureError

inductive SolveError where
  | imageDecode (cause : PictureError)
  | emptyInput
  | settings (cause : SettingsError)
  | offRaster (cause : OffRaster)
  | geometry (cause : GeometryError)
  | layout (cause : LayoutError)
  | replay (cause : ReplayError)

/-- The message for a picture that cannot be painted. -/
def SolveError.message : SolveError → String
  | imageDecode cause => s!"failed to decode image: {cause.message}"
  | emptyInput => "input image data is empty"
  | settings cause => s!"invalid solver configuration: {cause.message}"
  | offRaster cause => cause.message
  | geometry cause => cause.message
  | layout cause => cause.message
  | replay cause => cause.message

end BlockPainting
