import BlockPainting.Document.Instruction
import BlockPainting.Report

/-!
# Reports in JSON documents

Durations are in seconds.
-/

namespace BlockPainting

namespace Duration

def toJson (d : Duration) : Json := .float d.toSeconds

def ofJson? (j : Json) : Option Duration := do
  let x ← j.float?
  ofSeconds? x

end Duration

namespace ReportEntry

def toJson (e : ReportEntry) : Json :=
  .record [("name", .text e.name), ("duration", e.duration.toJson),
    ("instructions", .nat e.instructions), ("cost", .nat e.cost),
    ("similarity", .float e.similarity), ("score", .nat e.score)]

def ofJson? (j : Json) : Option ReportEntry := do
  let r ← j.record? ["name", "duration", "instructions", "cost", "similarity", "score"]
  let name ← r.required 0 Json.text?
  let duration ← r.required 1 Duration.ofJson?
  let instructions ← r.required 2 (Json.nat? maxLong)
  let cost ← r.required 3 (Json.nat? maxLong)
  let similarity ← r.required 4 Json.float?
  let score ← r.required 5 (Json.nat? maxLong)
  return ⟨name, duration, instructions, cost, similarity, score⟩

end ReportEntry

namespace Subdivision.Counters

def toJson (c : Counters) : Json :=
  .record [("memo_hits", .nat c.memoHits), ("memo_misses", .nat c.memoMisses),
    ("pruned", .nat c.pruned), ("candidates", .nat c.candidates),
    ("colors_estimated", .nat c.colorsEstimated)]

def ofJson? (j : Json) : Option Counters := do
  let r ← j.record? ["memo_hits", "memo_misses", "pruned", "candidates", "colors_estimated"]
  let memoHits ← r.required 0 (Json.nat? maxLong)
  let memoMisses ← r.required 1 (Json.nat? maxLong)
  let pruned ← r.required 2 (Json.nat? maxLong)
  let candidates ← r.required 3 (Json.nat? maxLong)
  let colorsEstimated ← r.required 4 (Json.nat? maxLong)
  return ⟨memoHits, memoMisses, pruned, candidates, colorsEstimated⟩

end Subdivision.Counters

namespace Refinement.Counters

def toJson (c : Counters) : Json :=
  .record [("tried", .nat c.tried), ("accepted", .nat c.accepted), ("invalid", .nat c.invalid)]

def ofJson? (j : Json) : Option Counters := do
  let r ← j.record? ["tried", "accepted", "invalid"]
  let tried ← r.required 0 (Json.nat? maxLong)
  let accepted ← r.required 1 (Json.nat? maxLong)
  let invalid ← r.required 2 (Json.nat? maxLong)
  return ⟨tried, accepted, invalid⟩

end Refinement.Counters

namespace SolveReport

/-- What may be missing is written as `null`. -/
def nullableJson {α : Type} (f : α → Json) : Option α → Json
  | none => .null
  | some a => f a

def toJson (r : SolveReport) : Json :=
  .record [("width", .nat r.width), ("height", .nat r.height),
    ("initial_blocks", .nat r.initialBlocks),
    ("strategies", .array (r.entries.map ReportEntry.toJson)),
    ("optimizer", nullableJson Subdivision.Counters.toJson r.subdivision),
    ("refine", nullableJson Refinement.Counters.toJson r.refinement),
    ("winner", .text r.winner), ("total_duration", r.totalDuration.toJson)]

def ofJson? (j : Json) : Option SolveReport := do
  let r ← j.record? ["width", "height", "initial_blocks", "strategies", "optimizer", "refine",
    "winner", "total_duration"]
  let width ← r.required 0 (Json.nat? maxWord)
  let height ← r.required 1 (Json.nat? maxWord)
  let initialBlocks ← r.required 2 (Json.nat? maxLong)
  let entries ← r.required 3 (Json.list? ReportEntry.ofJson?)
  let subdivision ← r.optional 4 Subdivision.Counters.ofJson?
  let refinement ← r.optional 5 Refinement.Counters.ofJson?
  let winner ← r.required 6 Json.text?
  let totalDuration ← r.required 7 Duration.ofJson?
  return ⟨width, height, initialBlocks, entries, subdivision, refinement, winner, totalDuration⟩

def read? (text : String) : Option SolveReport :=
  (Json.parse text).bind ofJson?

end SolveReport

end BlockPainting
