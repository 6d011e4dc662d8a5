import BlockPainting.CommandLine.Run
import BlockPainting.PictureFile.Reader

/-!
# Requests in memory

The surroundings of a request as a plain value: the files of one folder, the lines written so far,
and a clock that stands still. Around the folder lie others, of which only some devices are known.
-/

namespace BlockPainting.CommandLine

inductive File where
  | text (content : String)
  | picture (content : Raster)

/-- The files of a folder and the lines written to the two streams. -/
structure Memory where
  files : List (String × File)
  output : List String := []
  errors : List String := []

/-- A place among all folders: the names that lead there from the root. -/
abbrev Location := List String

/-- A device, which reads as an empty file. -/
inductive Device where
  | null
  | full
  | output
  | errors

namespace Device

def ofName? : String → Option Device
  | "null" => some null
  | "zero" => some null
  | "full" => some full
  | "stdin" => some null
  | "stdout" => some output
  | "stderr" => some errors
  | _ => none

end Device

inductive Entry where
  | folder
  | device (d : Device)
  | file (f : File)

namespace Memory

def find? (m : Memory) (name : String) : Option File :=
  m.files.lookup name

def home : Location := ["tmp", "request"]

def devices : Location := ["dev"]

def folders : List Location :=
  [[], home, devices] ++ ["fd", "pts", "shm"].map (devices ++ [·])
    ++ ["bin", "boot", "etc", "home", "lib", "media", "mnt", "opt", "proc", "root", "run", "sbin",
      "srv", "sys", "tmp", "usr", "var"].map ([·])

def entry? (m : Memory) (l : Location) : Option Entry :=
  if l ∈ folders then some .folder
  else if l.dropLast = home then (l.getLast?.bind m.find?).map .file
  else if l.dropLast = devices then (l.getLast?.bind Device.ofName?).map .device
  else none

/-- Follows the steps of a path from a folder. Nothing needs to lie where the last step leads. -/
def follow (m : Memory) (here : Location) : List String → Except FileError Location
  | [] => .ok here
  | step :: rest =>
    if step = "." then m.follow here rest
    else if step = ".." then m.follow here.dropLast rest
    else
      let there := here ++ [step]
      if rest = [] then .ok there
      else if maxName < step.utf8ByteSize then .error .longName
      else
        match m.entry? there with
        | some .folder => m.follow there rest
        | some _ => .error .notFolder
        | none => .error .missing

def locate (m : Memory) (path : String) : Except FileError Location :=
  if maxPath < path.utf8ByteSize then .error .longName
  else m.follow (if isAbsolute path then [] else home) (pathSteps path)

/-- Refuses a location whose last name is too long. -/
def checkName (l : Location) : Except FileError Unit :=
  if l.getLast?.any fun name => maxName < name.utf8ByteSize then .error .longName else .ok ()

def read (m : Memory) (path : String) : Except FileError File := do
  let l ← m.locate path
  checkName l
  match m.entry? l with
  | none => throw .missing
  | some .folder => throw .isFolder
  | some (.device _) => if asksForFolder path then throw .notFolder else return .text ""
  | some (.file f) => if asksForFolder path then throw .notFolder else return f

def text (m : Memory) (path : String) : Except String String :=
  match m.read path with
  | .error e => .error e.message
  | .ok (.text s) => .ok s
  | .ok (.picture _) => .error "stream did not contain valid UTF-8"

/-- The picture in a file and its size in bytes, four to a pixel. -/
def picture (m : Memory) (path : String) : Except PictureFailure (Raster × Nat) :=
  match m.read path with
  | .error e => .error (.unreadable e.message)
  | .ok (.picture r) => .ok (r, 4 * r.pixels.size)
  | .ok (.text s) =>
    match PictureFile.decode s.toUTF8 with
    | .error cause => .error (.undecodable cause)
    | .ok img => .ok (.ofImage img, s.utf8ByteSize)

/-- The folder with a file under a name, in place of one with the same name. -/
def put (m : Memory) (name : String) (f : File) : Memory :=
  { m with files := (name, f) :: m.files.filter fun entry => entry.1 ≠ name }

/-- Memory after a file was sent to a device. -/
def sent (m : Memory) : Device → File → Except FileError Memory
  | .full, _ => .error .noSpace
  | .output, .text s => .ok { m with output := m.output ++ linesOf s }
  | .errors, .text s => .ok { m with errors := m.errors ++ linesOf s }
  | _, _ => .ok m
where
  linesOf (s : String) : List String := (Text.lines s.toList).map String.ofList

/-- Memory after a file was written under a path. What is written elsewhere is not kept. -/
def written (m : Memory) (path : String) (f : File) : Except FileError Memory := do
  let l ← m.locate path
  if asksForFolder path then throw .isFolder
  checkName l
  match m.entry? l with
  | some .folder => throw .isFolder
  | some (.device d) => m.sent d f
  | _ => return if l.dropLast = home then m.put (l.getLast?.getD "") f else m

def write (path : String) (f : File) : StateM Memory (Except String Unit) := do
  match (← get).written path f with
  | .error e => return .error e.message
  | .ok next => do
    set next
    return .ok ()

def surroundings : Surroundings (StateM Memory) where
  readText path := do return (← get).text path
  readPicture path := do return (← get).picture path
  writeText path s := write path (.text s)
  writePicture _ path r := write path (.picture r)
  say line := modify fun m => { m with output := m.output ++ [line] }
  warn line := modify fun m => { m with errors := m.errors ++ [line] }
  timed f := return (f (), .zero)

/-- The exit code of a command line on these files, and what is in memory afterwards. -/
def run (files : List (String × File)) (arguments : List String) : UInt32 × Memory :=
  (runArguments surroundings arguments).run { files }

end Memory

end BlockPainting.CommandLine
