import BlockPainting.Json.Decode
import BlockPainting.Pricing

/-!
# Operations and weights in JSON documents

An operation is one of five names, and a set of weights is a record with one of them for each.
-/

namespace BlockPainting

def Operation.ofJson? (j : Json) : Option Operation := do
  match ← j.name? with
  | "LineCut" => return .lineCut
  | "PointCut" => return .pointCut
  | "Color" => return .color
  | "Swap" => return .swap
  | "Merge" => return .merge
  | _ => none

namespace Weights

def toJson (w : Weights) : Json :=
  .record [("line_cut", .nat w.lineCut), ("point_cut", .nat w.pointCut), ("color", .nat w.color),
    ("swap", .nat w.swap), ("merge", .nat w.merge)]

/-- Reads weights, all of which must be given. -/
def ofJson? (j : Json) : Option Weights := do
  let r ← j.record? ["line_cut", "point_cut", "color", "swap", "merge"]
  let weight (i : Nat) : Option Nat := r.required i (Json.nat? maxWord)
  return ⟨← weight 0, ← weight 1, ← weight 2, ← weight 3, ← weight 4⟩

end Weights

end BlockPainting
