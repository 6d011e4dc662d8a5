import BlockPainting.CommandLine.Arguments
import BlockPainting.Document.Report
import BlockPainting.Document.Request
import BlockPainting.Instruction
import BlockPainting.Json.Printer
import BlockPainting.Listing
import BlockPainting.PictureFormat
import BlockPainting.Report
import BlockPainting.Solve

/-!
# Running requests

Whatever a request needs from outside, files, two streams of text and a clock, it gets through its
surroundings. A failed request writes one line to the error stream and ends with code 1.
-/

namespace BlockPainting.CommandLine

inductive PictureFailure where
  | unreadable (reason : String)
  | undecodable (cause : SolveError)

/-- What a request needs from outside. -/
structure Surroundings (m : Type → Type) where
  /-- The text of a file, or the reason why there is none. -/
  readText : String → m (Except String String)
  /-- The picture in a file and the size of the file in bytes. -/
  readPicture : String → m (Except PictureFailure (Raster × Nat))
  writeText : String → String → m (Except String Unit)
  /-- Writes a picture to a file, in a format in which pictures are written. -/
  writePicture : PictureFormat → String → Raster → m (Except String Unit)
  say : String → m Unit
  warn : String → m Unit
  /-- Computes a value and tells how long that took. -/
  timed : {α : Type} → (Unit → α) → m (α × Duration)

section

variable {m : Type → Type} [Monad m]

abbrev Part (m : Type → Type) := ExceptT String m

/-- Goes on with a result or fails with the message of the error. -/
def orFail {ε α : Type} (message : ε → String) : Except ε α → Part m α
  | .ok a => pure a
  | .error e => throw (message e)

def settingsOf (r : Request) : Part m Settings :=
  match r.document with
  | none => pure r.settings
  | some text =>
    match Settings.read? text with
    | some s => pure s
    | none => throw "Error parsing --config-json: not settings"

def textOf (s : Surroundings m) (path : String) : Part m String := do
  let found ← ExceptT.lift (s.readText path)
  orFail (fun reason => s!"Error reading {path}: {reason}") found

/-- The picture of a request and the size of its file. -/
def pictureOf (s : Surroundings m) (path : String) : Part m (Raster × Nat) := do
  let failure : PictureFailure → String
    | .unreadable reason => s!"Error reading {path}: {reason}"
    | .undecodable cause => s!"Error decoding {path}: {cause.message}"
  let found ← ExceptT.lift (s.readPicture path)
  orFail failure found

def layoutOf (s : Surroundings m) (path : Option String) (target : Raster) : Part m Layout :=
  match path with
  | none => pure (.single target.width target.height)
  | some path => do
    let text ← textOf s path
    orFail (fun e => s!"Error in layout {path}: {e.message}") (Layout.read text)

def programOf (s : Surroundings m) (path : String) : Part m (List Instruction) := do
  let text ← textOf s path
  orFail (fun e => s!"Error in program {path}: {e.message}") (readProgram text)

def writeOutput (s : Surroundings m) (path : String) (program : List Instruction)
    (metadata : Metadata) : m Unit := do
  match ← s.writeText path (writeProgram program metadata) with
  | .ok () => s.warn s!"Program written to {path} ({program.length} instructions)"
  | .error reason => s.warn s!"Error writing program to {path}: {reason}"

/-- The picture that a program paints, or why there is none. -/
def paintedBy (target : Raster) (layout : Layout) (program : List Instruction) :
    Except String Raster := do
  let initial ← (layout.validate target).mapError LayoutError.message
  let outcome ← (replay target initial program).mapError ReplayError.message
  return outcome.painted

/-- Writes a picture to a file in the format of its extension. The file is made even where the
format is then refused. -/
def savePicture (s : Surroundings m) (path : String) (r : Raster) : m (Except String Unit) := do
  match PictureFormat.ofExtension (extension path) with
  | .error reason => return .error reason
  | .ok format =>
    match format.refusal r.width r.height with
    | none => s.writePicture format path r
    | some reason => return (← s.writeText path "").bind fun _ => .error reason

def writePreview (s : Surroundings m) (path : String) (target : Raster) (layout : Layout)
    (program : List Instruction) : m Unit := do
  match paintedBy target layout program with
  | .error reason => s.warn s!"Error rendering preview: {reason}"
  | .ok painted =>
    match ← savePicture s path painted with
    | .ok () => s.warn s!"Preview written to {path}"
    | .error reason => s.warn s!"Error writing preview to {path}: {reason}"

/-- Writes a program and its preview to the files that a request names. -/
def deliver (s : Surroundings m) (r : Request) (target : Raster) (layout : Layout)
    (program : List Instruction) (metadata : Metadata) : Part m Unit := do
  if let some path := r.output then
    ExceptT.lift (writeOutput s path program metadata)
  if let some path := r.preview then
    ExceptT.lift (writePreview s path target layout program)

/-- Cost, similarity and score in words. -/
def scoreText (cost : Nat) (similarity : Float) (score : Nat) : String :=
  s!"cost={cost} similarity={fixedText 1 similarity} total={score}"

def runRefine (s : Surroundings m) (r : Request) (target : Raster) (layout : Layout)
    (path : String) (radius : Nat) : Part m Unit := do
  let program ← programOf s path
  let initial ← orFail LayoutError.message (layout.validate target)
  let given ← orFail (fun e => s!"Error replaying {path}: {e.message}")
    (replay target initial program)
  let refined ← orFail ReplayError.message (refine target initial program radius)
  let before := given.score
  let after := refined.outcome.score
  let counters := refined.counters
  s.say (s!"Refined {path}: {before} -> {after} ({counters.accepted} of {counters.tried} "
    ++ s!"nudges kept, {counters.invalid} invalid)")
  deliver s r target layout refined.instructions {
    title := some r.title
    score := some
      s!"refined {scoreText refined.outcome.cost refined.outcome.similarity after} (was {before})" }

/-- The number of the block that a board was left with, one below the next. -/
def workingBlock (board : Board) : Option Nat :=
  if board.ids.next - 1 ≤ maxRoot then some (board.ids.next - 1) else none

/-- Runs the program in one file after the program in another. -/
def runSplice (s : Surroundings m) (r : Request) (target : Raster) (layout : Layout)
    (openingPath bodyPath : String) (bodyStart : Nat) : Part m Unit := do
  let opening ← programOf s openingPath
  let body ← programOf s bodyPath
  let initial ← orFail LayoutError.message (layout.validate target)
  let board ← orFail ReplayError.message (Board.start target.width target.height initial)
  let board ← orFail (fun e => s!"Error replaying {openingPath}: {e.message}")
    (board.applyAll opening)
  let start ← orFail id ((workingBlock board).elim
    (.error s!"{openingPath} leaves no valid working block id") .ok)
  let program ← orFail RenumberError.message (splice opening body bodyStart start)
  let outcome ← orFail (fun e => s!"Spliced program does not replay: {e.message}")
    (replay target initial program)
  s.say (s!"Spliced {bodyPath} after {openingPath}: body block {bodyStart} -> {start}, "
    ++ s!"score {outcome.score}")
  deliver s r target layout program {
    title := some r.title
    description := some s!"body {bodyPath} renumbered from {bodyStart} to {start}"
    score := some (scoreText outcome.cost outcome.similarity outcome.score) }

/-- Solves once and reports. The results are delivered in the first run only. -/
def solveOnce (s : Surroundings m) (r : Request) (settings : Settings) (target : Raster)
    (layout : Layout) (index : Nat) : Part m SolveReport := do
  if 1 < r.runs then
    s.warn s!"--- Run {index + 1}/{r.runs} ---"
  let (result, duration) ← s.timed fun _ => solveWithReport target layout settings .stopped
  let (solution, report) ← orFail (fun e => s!"Solver error: {e.message}") result
  let report := { report with totalDuration := duration }
  s.say (if r.json then report.toJson.renderIndented else report.text)
  if index = 0 then
    deliver s r target layout solution.instructions {
      title := some r.title
      score := some
        s!"{solution.strategy} {scoreText solution.cost solution.similarity solution.score}"
      settings := some settings.toJson.render }
  if 1 < r.runs then
    s.warn ""
  return report

def solveTimes (s : Surroundings m) (r : Request) (settings : Settings) (target : Raster)
    (layout : Layout) : Nat → Part m (List SolveReport)
  | 0 => return []
  | left + 1 => do
    let report ← solveOnce s r settings target layout (r.runs - (left + 1))
    let later ← solveTimes s r settings target layout left
    return report :: later

/-- Solves as often as asked and sums several runs up. -/
def runSolve (s : Surroundings m) (r : Request) (settings : Settings) (target : Raster)
    (bytes : Nat) (layout : Layout) : Part m Unit := do
  s.warn s!"Image: {r.image} ({bytes} bytes, {target.width}x{target.height})"
  s.warn s!"Initial blocks: {layout.blocks.length}"
  s.warn s!"Config: {settings.toJson.renderIndented}"
  s.warn s!"Runs: {r.runs}"
  s.warn ""
  let reports ← solveTimes s r settings target layout r.runs
  if 1 < r.runs then
    (SolveReport.summary reports).forM fun line => s.say line

def Request.run (s : Surroundings m) (r : Request) : Part m Unit := do
  let settings ← settingsOf r
  let (target, bytes) ← pictureOf s r.image
  let layout ← layoutOf s r.layout target
  match r.task with
  | .refine program => runRefine s r target layout program settings.refineRadius
  | .splice opening body bodyStart => runSplice s r target layout opening body bodyStart
  | .solve => runSolve s r settings target bytes layout

/-- Carries out what the arguments ask for and gives the exit code: 0 for success, 1 for a failed
request, 2 for arguments that are not allowed. -/
def runArguments (s : Surroundings m) (arguments : List String) : m UInt32 := do
  match Request.ofArguments arguments with
  | .error (.help form) =>
    (helpLines form).forM s.say
    return 0
  | .error .version =>
    s.say "robopaint-bench 0.1.0"
    return 0
  | .error (.misuse reason) =>
    s.warn s!"error: {reason}"
    s.warn usage
    return 2
  | .ok r =>
    match ← (r.run s).run with
    | .ok () => return 0
    | .error line =>
      s.warn line
      return 1

end

end BlockPainting.CommandLine
