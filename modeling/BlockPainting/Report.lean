import BlockPainting.Number.Decimal
import BlockPainting.Number.ExactDouble
import BlockPainting.Refinement
import BlockPainting.Search.Subdivision

/-!
# Reports on a solve

Which programs were tried, how long they took, how they scored and what the search counted, as data
and as a table. A duration is a whole number of nanoseconds; documents hold seconds. The summary of
several runs has the least, mean and largest total duration, and for every program of the first run
its mean duration.
-/

namespace BlockPainting

/-- A whole number of nanoseconds. -/
structure Duration where
  nanoseconds : Nat
  deriving DecidableEq

namespace Duration

def zero : Duration := ⟨0⟩

def perSecond : Nat := 1000000000

def secondLimit : Nat := maxLong + 1

/-- The nearest duration to a number of seconds, a tie going to the even nanosecond. Negative
numbers and numbers above the limit are no durations. -/
def ofSeconds? (x : Float) : Option Duration :=
  match DoubleValue.ofFloat x with
  | .notANumber => none
  | .infinite _ => none
  | .finite v =>
    if v.negative ∧ v.mantissa ≠ 0 then none
    else
      let (n, d) := v.ratio
      let ns := roundDivEven (n * perSecond) d
      if ns < secondLimit * perSecond then some ⟨ns⟩ else none

/-- The duration in seconds: whole seconds and the rest are converted apart and added. -/
def toSeconds (d : Duration) : Float :=
  countToFloat (d.nanoseconds / perSecond)
    + countToFloat (d.nanoseconds % perSecond) / countToFloat perSecond

def toMilliseconds (d : Duration) : Float :=
  d.toSeconds * 1000.0

end Duration

structure ReportEntry where
  name : String
  duration : Duration
  instructions : Nat
  cost : Nat
  similarity : Float
  score : Nat
  deriving DecidableEq

structure SolveReport where
  width : Nat
  height : Nat
  initialBlocks : Nat
  entries : List ReportEntry
  /-- The counters of the recursive subdivision, if it ran. -/
  subdivision : Option Subdivision.Counters
  refinement : Option Refinement.Counters
  winner : String
  totalDuration : Duration
  deriving DecidableEq

namespace SolveReport

def winning (r : SolveReport) : Option ReportEntry :=
  r.entries.find? fun e => e.name = r.winner

def padRight (width : Nat) (s : String) : String :=
  s ++ String.ofList (List.replicate (width - s.length) ' ')

def padLeft (width : Nat) (s : String) : String :=
  String.ofList (List.replicate (width - s.length) ' ') ++ s

def rule (c : Char) (width : Nat) : String :=
  String.ofList (List.replicate width c)

def milliseconds (d : Duration) : String :=
  fixedText 3 d.toMilliseconds

def tableHead : String :=
  " ".intercalate [padRight 28 "Strategy", padLeft 10 "Duration", padLeft 6 "Ops",
    padLeft 8 "Cost", padLeft 12 "Similarity", padLeft 8 "Score"]

/-- One line of the table; the winner is marked. -/
def tableLine (winner : String) (e : ReportEntry) : String :=
  " ".intercalate [padRight 28 e.name, padLeft 8 (milliseconds e.duration) ++ "ms",
    padLeft 6 (toString e.instructions), padLeft 8 (toString e.cost),
    padLeft 12 (fixedText 1 e.similarity), padLeft 8 (toString e.score)]
    ++ (if e.name = winner then " *" else "")

def subdivisionLines : Option Subdivision.Counters → List String
  | none => []
  | some c =>
    ["", s!"Optimizer: memo {c.memoHits} hits / {c.memoMisses} misses  |  pruned {c.pruned}  |  "
      ++ s!"candidates {c.candidates}  |  colors {c.colorsEstimated}"]

def refinementLines : Option Refinement.Counters → List String
  | none => []
  | some c => [s!"Refine: {c.accepted} of {c.tried} nudges kept  |  {c.invalid} invalid"]

def lines (r : SolveReport) : List String :=
  ["Solve Diagnostics Report", rule '=' 60,
    s!"Canvas: {r.width}x{r.height} ({r.initialBlocks} initial blocks)",
    s!"Total duration: {milliseconds r.totalDuration}ms", "", tableHead, rule '-' 80]
    ++ r.entries.map (tableLine r.winner)
    ++ subdivisionLines r.subdivision
    ++ refinementLines r.refinement
    ++ ["", s!"Winner: {r.winner}"]

def text (r : SolveReport) : String :=
  "\n".intercalate r.lines

def meanOf (times : List Float) : Float :=
  times.foldl (· + ·) (-0.0) / countToFloat times.length

/-- The least of several numbers, or zero. -/
def leastOf : List Float → Float
  | [] => 0.0
  | t :: rest => rest.foldl (fun least t => if t < least then t else least) t

/-- The largest of several numbers, or zero. -/
def largestOf : List Float → Float
  | [] => 0.0
  | t :: rest => rest.foldl (fun largest t => if largest < t then t else largest) t

/-- How long the program with a name took in each run that has it. -/
def timesOf (name : String) (reports : List SolveReport) : List Float :=
  reports.filterMap fun r =>
    (r.entries.find? fun e => e.name = name).map fun e => e.duration.toMilliseconds

/-- The line of one program of the first run. -/
def summaryLine (reports : List SolveReport) (e : ReportEntry) : String :=
  " ".intercalate [padRight 28 e.name,
    padLeft 10 (fixedText 3 (meanOf (timesOf e.name reports))) ++ "ms",
    padLeft 10 (toString e.score)]

def summary (reports : List SolveReport) : List String :=
  let totals := reports.map fun r => r.totalDuration.toMilliseconds
  ["", s!"Summary ({reports.length} runs)", rule '=' 60,
    s!"Total duration: min={fixedText 3 (leastOf totals)}ms  "
      ++ s!"mean={fixedText 3 (meanOf totals)}ms  max={fixedText 3 (largestOf totals)}ms",
    "", " ".intercalate [padRight 28 "Strategy", padLeft 12 "Mean (ms)", padLeft 10 "Score"],
    rule '-' 52]
    ++ ((reports.head?.map SolveReport.entries).getD []).map (summaryLine reports)

end SolveReport

end BlockPainting
