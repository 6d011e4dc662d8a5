import BlockPainting.Text.Quoted

/-!
# Formats of picture files

The extension of a file tells the format it is written in, the first bytes of a file tell the format
it is read in. Pictures are written in three of the known formats.
-/

namespace BlockPainting

inductive PictureFormat where
  | png
  | jpeg
  | gif
  | webP
  | pnm
  | tiff
  | tga
  | dds
  | bmp
  | ico
  | hdr
  | openExr
  | farbfeld
  | avif
  | qoi
  deriving DecidableEq

namespace PictureFormat

def name : PictureFormat → String
  | png => "Png"
  | jpeg => "Jpeg"
  | gif => "Gif"
  | webP => "WebP"
  | pnm => "Pnm"
  | tiff => "Tiff"
  | tga => "Tga"
  | dds => "Dds"
  | bmp => "Bmp"
  | ico => "Ico"
  | hdr => "Hdr"
  | openExr => "OpenExr"
  | farbfeld => "Farbfeld"
  | avif => "Avif"
  | qoi => "Qoi"

def extensions : List (String × PictureFormat) :=
  [("png", png), ("apng", png), ("jpg", jpeg), ("jpeg", jpeg), ("jfif", jpeg), ("gif", gif),
    ("webp", webP), ("pbm", pnm), ("pam", pnm), ("ppm", pnm), ("pgm", pnm), ("pnm", pnm),
    ("tif", tiff), ("tiff", tiff), ("tga", tga), ("dds", dds), ("bmp", bmp), ("ico", ico),
    ("hdr", hdr), ("exr", openExr), ("ff", farbfeld), ("avif", avif), ("qoi", qoi)]

/-- The format that an extension stands for, in capital or small letters. -/
def ofExtension? (e : String) : Option PictureFormat :=
  extensions.lookup (String.ofList (e.toList.map Char.toLower))

/-- The format of a file with an extension or with none, or why it is not known. -/
def ofExtension : Option String → Except String PictureFormat
  | none => .error "The image format could not be determined"
  | some e =>
    match ofExtension? e with
    | some format => .ok format
    | none =>
      .error s!"The file extension `.{Text.quote e}` was not recognized as an image format"

def longestWebP : Nat := 16384

/-- Why a picture with these sides is not written in a format, if it is not. -/
def refusal (width height : Nat) : PictureFormat → Option String
  | png => none
  | bmp => none
  | webP =>
    if max width height ≤ longestWebP then none
    else some "Format error encoding WebP:\nInvalid dimensions"
  | jpeg => some "The encoder or decoder for Jpeg does not support the color type `Rgba8`"
  | format => some s!"The image format `{format.name}` is not supported"

/-- How a file begins: bytes, some of which may be any. -/
abbrev Signature := List (Option UInt8)

namespace Signature

def free (n : Nat) : Signature :=
  List.replicate n none

def exactly (bytes : List UInt8) : Signature :=
  bytes.map some

def text (s : String) : Signature :=
  exactly s.toUTF8.toList

def begins : Signature → List UInt8 → Bool
  | [], _ => true
  | _ :: _, [] => false
  | b :: rest, c :: cs => b.all (· = c) && begins rest cs

end Signature

/-- How the files of the formats begin. The first signature that fits counts. -/
def signatures : List (Signature × PictureFormat) :=
  [(.exactly [0x89] ++ .text "PNG\r\n\x1a\n", png),
    (.exactly [0xff, 0xd8, 0xff], jpeg),
    (.text "GIF89a", gif),
    (.text "GIF87a", gif),
    (.text "RIFF" ++ .free 4 ++ .text "WEBP", webP),
    (.text "MM\x00*", tiff),
    (.text "II*\x00", tiff),
    (.text "DDS ", dds),
    (.text "BM", bmp),
    (.exactly [0, 0, 1, 0], ico),
    (.text "#?RADIANCE", hdr),
    (.exactly [0, 0] ++ .free 2 ++ .text "ftypavif", avif),
    (.exactly [0x76, 0x2f, 0x31, 0x01], openExr),
    (.text "qoif", qoi)]
    ++ ["P1", "P2", "P3", "P4", "P5", "P6", "P7"].map (fun s => (.text s, pnm))
    ++ [(.text "farbfeld", farbfeld)]

/-- The format that the first bytes of a file tell. -/
def ofBytes? (bytes : ByteArray) : Option PictureFormat :=
  let first := (bytes.extract 0 16).toList
  (signatures.find? fun (signature, _) => signature.begins first).map Prod.snd

end PictureFormat

end BlockPainting
