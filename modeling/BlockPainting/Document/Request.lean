import BlockPainting.Document.Instruction
import BlockPainting.Layout.Basic
import BlockPainting.Settings

/-!
# Layouts and settings in JSON documents

All fields of a layout must be given. Fields of the settings that are not given have their default.
-/

namespace BlockPainting

def pointJson (x y : Nat) : Json := .array [.nat x, .nat y]

def point? : Json → Option (Nat × Nat) :=
  Json.pair? (Json.nat? maxWord)

namespace LayoutBlock

def toJson (b : LayoutBlock) : Json :=
  .record [("blockId", b.id.toJson), ("bottomLeft", pointJson b.left b.bottom),
    ("topRight", pointJson b.right b.top), ("color", b.paint.toJson)]

def ofJson? (j : Json) : Option LayoutBlock := do
  let r ← j.record? ["blockId", "bottomLeft", "topRight", "color"]
  let id ← r.required 0 BlockId.ofJson?
  let bottomLeft ← r.required 1 point?
  let topRight ← r.required 2 point?
  let paint ← r.required 3 Color.ofJson?
  return ⟨id, bottomLeft.1, bottomLeft.2, topRight.1, topRight.2, paint⟩

end LayoutBlock

namespace Layout

def toJson (l : Layout) : Json :=
  .record [("width", .nat l.width), ("height", .nat l.height),
    ("blocks", .array (l.blocks.map LayoutBlock.toJson))]

def ofJson? (j : Json) : Option Layout := do
  let r ← j.record? ["width", "height", "blocks"]
  let width ← r.required 0 (Json.nat? maxWord)
  let height ← r.required 1 (Json.nat? maxWord)
  let blocks ← r.required 2 (Json.list? LayoutBlock.ofJson?)
  return ⟨width, height, blocks⟩

def read (text : String) : Except LayoutError Layout :=
  match (Json.parse text).bind ofJson? with
  | some l => .ok l
  | none => .error .document

end Layout

namespace Strategy

def toJson (s : Strategy) : Json := .text s.text

def ofJson? (j : Json) : Option Strategy := do
  match ← j.name? with
  | "Blocks" => return blocks
  | "PixelGrid" => return pixelGrid
  | "Stripes" => return stripes
  | "Best" => return best
  | _ => none

end Strategy

namespace EstimatorKind

def toJson : EstimatorKind → Json
  | exact => .text "Exact"
  | quadtree => .text "QuadTree"

def ofJson? (j : Json) : Option EstimatorKind := do
  match ← j.name? with
  | "Exact" => return exact
  | "QuadTree" => return quadtree
  | _ => none

end EstimatorKind

namespace LayoutPlan

def toJson (p : LayoutPlan) : Json := .text p.text

def ofJson? (j : Json) : Option LayoutPlan := do
  match ← j.name? with
  | "Shuffle" => return shuffle
  | "Merge" => return merge
  | "Best" => return best
  | _ => none

end LayoutPlan

namespace Direction

def toJson : Direction → Json
  | upRight => .text "UpRight"
  | upLeft => .text "UpLeft"
  | downLeft => .text "DownLeft"
  | downRight => .text "DownRight"

def ofJson? (j : Json) : Option Direction := do
  match ← j.name? with
  | "UpRight" => return upRight
  | "UpLeft" => return upLeft
  | "DownLeft" => return downLeft
  | "DownRight" => return downRight
  | _ => none

end Direction

namespace Settings

def fieldNames : List String :=
  ["strategy", "max_depth", "median_epsilon", "estimator", "quad_tree_levels",
    "quad_tree_min_area", "grid_cell_sizes", "grid_directions", "stripe_step", "layout_plan",
    "refine_radius", "refine_max_cuts"]

/-- The values of the settings, in the order of their names. -/
def fieldValues (s : Settings) : List Json :=
  [s.strategy.toJson, .nat s.maxDepth, .float s.medianEpsilon, s.estimator.toJson,
    .nat s.quadTreeLevels, .nat s.quadTreeMinArea, .array (s.gridCellSizes.map .nat),
    .array (s.gridDirections.map Direction.toJson), .nat s.stripeStep, s.layoutPlan.toJson,
    .nat s.refineRadius, .nat s.refineMaxCuts]

def toJson (s : Settings) : Json :=
  .record (fieldNames.zip s.fieldValues)

def ofJson? (j : Json) : Option Settings := do
  let d : Settings := {}
  let r ← j.record? fieldNames
  let strategy ← r.withDefault 0 d.strategy Strategy.ofJson?
  let maxDepth ← r.withDefault 1 d.maxDepth (Json.nat? maxWord)
  let medianEpsilon ← r.withDefault 2 d.medianEpsilon Json.float?
  let estimator ← r.withDefault 3 d.estimator EstimatorKind.ofJson?
  let quadTreeLevels ← r.withDefault 4 d.quadTreeLevels (Json.nat? maxWord)
  let quadTreeMinArea ← r.withDefault 5 d.quadTreeMinArea (Json.nat? maxLong)
  let gridCellSizes ← r.withDefault 6 d.gridCellSizes (Json.list? (Json.nat? maxWord))
  let gridDirections ← r.withDefault 7 d.gridDirections (Json.list? Direction.ofJson?)
  let stripeStep ← r.withDefault 8 d.stripeStep (Json.nat? maxWord)
  let layoutPlan ← r.withDefault 9 d.layoutPlan LayoutPlan.ofJson?
  let refineRadius ← r.withDefault 10 d.refineRadius (Json.nat? maxWord)
  let refineMaxCuts ← r.withDefault 11 d.refineMaxCuts (Json.nat? maxLong)
  return {
    strategy, maxDepth, medianEpsilon, estimator, quadTreeLevels, quadTreeMinArea,
    gridCellSizes, gridDirections, stripeStep, layoutPlan, refineRadius, refineMaxCuts }

def read? (text : String) : Option Settings :=
  (Json.parse text).bind ofJson?

end Settings

end BlockPainting
