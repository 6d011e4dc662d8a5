import BlockPainting.Number.ExactDouble

/-!
# Prices of operations

An operation costs its base weight scaled by how small the block is beside the whole raster. Prices
are rounded to integers here, once per operation.
-/

namespace BlockPainting

/-- The five kinds of instruction that are priced. -/
inductive Operation where
  | lineCut
  | pointCut
  | color
  | swap
  | merge
  deriving DecidableEq

def Operation.text : Operation → String
  | .lineCut => "line-cut"
  | .pointCut => "point-cut"
  | .color => "color"
  | .swap => "swap"
  | .merge => "merge"

structure Weights where
  lineCut : Nat
  pointCut : Nat
  color : Nat
  swap : Nat
  merge : Nat
  deriving DecidableEq

namespace Weights

def contest : Weights := ⟨7, 10, 5, 3, 1⟩

def weight (w : Weights) : Operation → Nat
  | .lineCut => w.lineCut
  | .pointCut => w.pointCut
  | .color => w.color
  | .swap => w.swap
  | .merge => w.merge

end Weights

structure Pricing where
  weights : Weights
  rasterArea : Nat

namespace Pricing

/-- Contest prices on a raster of `width * height` pixels. -/
def contest (width height : Nat) : Pricing :=
  ⟨.contest, width * height⟩

/-- Costs and scores stay below this. -/
def maxCost : Nat := maxLong

/-- `weight * raster area / block area`, rounded. -/
def cost (p : Pricing) (op : Operation) (area : Nat) : Nat :=
  roundClamped maxCost
    (countToFloat (p.weights.weight op) * countToFloat p.rasterArea / countToFloat area)

/-- A merge is priced by the larger of its two blocks. -/
def mergeCost (p : Pricing) (areaA areaB : Nat) : Nat :=
  p.cost .merge (max areaA areaB)

end Pricing

end BlockPainting
