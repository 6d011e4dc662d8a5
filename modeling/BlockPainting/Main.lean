import BlockPainting.CommandLine.Run
import BlockPainting.PictureFile.Reader
import BlockPainting.PictureFile.Writer

/-!
# The program

Gives requests the file system, the standard streams and the clock of the machine.
-/

open BlockPainting CommandLine

namespace BlockPainting.Program

/-- The number of a file error. Some come with a negative sign. -/
def errorNumber : IO.Error → Nat
  | .noFileOrDirectory _ n _ => magnitude n
  | .inappropriateType _ n _ => magnitude n
  | .invalidArgument _ n _ => magnitude n
  | .resourceExhausted _ n _ => magnitude n
  | _ => 0
where
  magnitude (n : UInt32) : Nat := min n.toNat (-n).toNat

def reason (e : IO.Error) : String :=
  match FileError.ofNumber? (errorNumber e), e with
  | some p, _ => p.message
  | none, .permissionDenied .. => "Permission denied (os error 13)"
  | none, e => toString e

def attempt {α : Type} (action : IO α) : IO (Except String α) := do
  match ← action.toBaseIO with
  | .ok a => return .ok a
  | .error e => return .error (reason e)

def readText (path : String) : IO (Except String String) := do
  let bytes ← attempt (IO.FS.readBinFile path)
  return bytes.bind fun bytes =>
    match String.fromUTF8? bytes with
    | some text => .ok text
    | none => .error "stream did not contain valid UTF-8"

def readPicture (path : String) : IO (Except PictureFailure (Raster × Nat)) := do
  match ← attempt (IO.FS.readBinFile path) with
  | .error reason => return .error (.unreadable reason)
  | .ok bytes =>
    match PictureFile.decode bytes with
    | .error cause => return .error (.undecodable cause)
    | .ok img => return .ok (.ofImage img, bytes.size)

/-- The bytes of a picture in a format in which pictures are written. -/
def encode (img : Image) : PictureFormat → ByteArray
  | .bmp => Bitmap.encode img
  | .webP => WebP.encode img
  | _ => Png.encode img

def surroundings : Surroundings IO where
  readText := readText
  readPicture := readPicture
  writeText path text := attempt (IO.FS.writeFile path text)
  writePicture format path r := attempt (IO.FS.writeBinFile path (encode r.toImage format))
  say line := IO.println line
  warn line := IO.eprintln line
  timed f := do
    let before ← IO.monoNanosNow
    let a ← IO.lazyPure f
    let after ← IO.monoNanosNow
    return (a, ⟨after - before⟩)

end BlockPainting.Program

/-- Runs the program on the arguments of the command line. -/
def main (arguments : List String) : IO UInt32 :=
  runArguments BlockPainting.Program.surroundings arguments
