import BlockPainting.ColorEstimate
import BlockPainting.Layout.Basic

/-!
# Shuffling

A start of several blocks can be kept: a block whose paint is far from the color it should have is
swapped with a block of equal size that has about this color, or recolored. Each block is used once,
so every decision is about the paint the block started with.
-/

namespace BlockPainting.Layout

/-- Colors in one bucket of this size count as about equal. -/
def colorBucket : UInt8 := 16

def startPaint (b : Block) : Color :=
  b.paint.getD .white

def sameBucket (a b : Color) : Bool :=
  a.bucketed colorBucket = b.bucketed colorBucket

/-- How a swap of two blocks changes the score. -/
def swapDelta (target : Raster) (swapCost old : Float) (block other : Block) : Float :=
  let current := startPaint block
  let paint := startPaint other
  swapCost + (target.similarity block.rect paint - old)
    + (target.similarity other.rect current - target.similarity other.rect paint)

inductive Decision where
  | keep
  /-- It is swapped with the block at another index. -/
  | swap (other : Nat) (partner : Block)
  | recolor (paint : Color)
  /-- It stays for now, and may still be a partner. -/
  | defer

def decideBlock (target : Raster) (blocks : List (Block × Nat)) (fixed : List Nat)
    (block : Block) (index : Nat) (ideal : Color) : Decision :=
  let prices := target.pricing
  let current := startPaint block
  let old := target.similarity block.rect current
  let idealSimilarity := target.similarity block.rect ideal
  let swapCost := countToFloat (prices.cost .swap block.rect.area)
  let colorCost := countToFloat (prices.cost .color block.rect.area)
  let recolorDelta := colorCost + idealSimilarity - old
  if sameBucket current ideal ∨ old < swapCost then .keep
  else
    let partner := blocks.find? fun (other, i) =>
      sameBucket (startPaint other) ideal && i != index && !fixed.contains i
        && other.rect.sameSize block.rect
        && (let delta := swapDelta target swapCost old block other
            delta < 0.0 && delta < recolorDelta)
    match partner with
    | some (other, i) => .swap i other
    | none => if recolorDelta < 0.0 then .recolor ideal else .defer

structure Shuffle where
  cache : ColorCache
  fixed : List Nat
  instructions : List Instruction

def visit (target : Raster) (estimate : Rect → Color) (blocks : List (Block × Nat))
    (s : Shuffle) (entry : Block × Nat) : Shuffle :=
  let (block, index) := entry
  if s.fixed.contains index then s
  else
    let (ideal, cache) := s.cache.color estimate block.rect
    match decideBlock target blocks s.fixed block index ideal with
    | .keep => { s with cache, fixed := index :: s.fixed }
    | .swap other partner =>
      { cache
        fixed := other :: index :: s.fixed
        instructions := .swap block.id partner.id :: s.instructions }
    | .recolor paint =>
      { cache
        fixed := index :: s.fixed
        instructions := .color block.id paint :: s.instructions }
    | .defer => { s with cache }

/-- The swaps and recolorings for a start of several blocks, which are visited from the last to the
first. -/
def shuffle (target : Raster) (estimator : Estimator) (blocks : List Block) (cache : ColorCache) :
    List Instruction × ColorCache :=
  let indexed := blocks.zipIdx
  let s := indexed.reverse.foldl (visit target (estimator.estimate target) indexed) ⟨cache, [], []⟩
  (s.instructions.reverse, s.cache)

end BlockPainting.Layout
