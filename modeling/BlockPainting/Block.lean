import BlockPainting.Instruction

/-!
# Blocks

A block is a named rectangle of the painting. Each operation checks that it is allowed and tells
what it leaves, which instruction performs it and what it costs.
-/

namespace BlockPainting

/-- A named part of the painting. -/
structure Block where
  id : BlockId
  rect : Rect
  /-- The paint of the whole block; there is none once differently painted blocks were joined. -/
  paint : Option Color
  deriving DecidableEq

/-- An operation carried out: the blocks it leaves, its instruction and its price. -/
structure Move (α : Type) where
  blocks : α
  instruction : Instruction
  cost : Nat

namespace Block

def recolor (b : Block) (c : Color) (prices : Pricing) : Move Block where
  blocks := { b with paint := some c }
  instruction := .color b.id c
  cost := prices.cost .color b.rect.area

/-- The child with an index, which keeps the paint. -/
def part (b : Block) (index : Nat) (rect : Rect) : Block :=
  ⟨b.id.child index, rect, b.paint⟩

/-- Cuts in two. The child nearer the origin is `.0`. -/
def lineCut (b : Block) (axis : Axis) (position : Nat) (prices : Pricing) :
    Except GeometryError (Move (Block × Block)) := do
  let (low, high) ← b.rect.cut axis position
  return {
    blocks := (b.part 0 low, b.part 1 high)
    instruction := .lineCut b.id axis position
    cost := prices.cost .lineCut b.rect.area }

/-- Cuts in four. The children are `.0` to `.3` in the order of the quarters. -/
def pointCut (b : Block) (x y : Nat) (prices : Pricing) :
    Except GeometryError (Move (Quarters Block)) := do
  let quarters ← b.rect.cutPoint x y
  return {
    blocks := quarters.mapIdx b.part
    instruction := .pointCut b.id x y
    cost := prices.cost .pointCut b.rect.area }

def commonPaint (a b : Block) : Option Color :=
  match a.paint, b.paint with
  | some c, some d => if c = d then some c else none
  | _, _ => none

/-- Joins two blocks that share a whole edge into one with a fresh top-level id. -/
def merge (a b : Block) (ids : IdSupply) (prices : Pricing) :
    Except GeometryError (Move Block × IdSupply) := do
  let rect ← a.rect.join b.rect
  match ids.take with
  | none => throw .idsExhausted
  | some (id, ids) =>
    return ({
      blocks := ⟨id, rect, commonPaint a b⟩
      instruction := .merge a.id b.id
      cost := prices.mergeCost a.rect.area b.rect.area }, ids)

/-- Exchanges the places of two blocks of equal size; `a` in the place of `b` comes first. -/
def swap (a b : Block) (prices : Pricing) : Except GeometryError (Move (Block × Block)) :=
  if a.id = b.id then .error (.selfSwap a.rect)
  else if a.rect.sameSize b.rect then
    .ok {
      blocks := ({ a with rect := b.rect }, { b with rect := a.rect })
      instruction := .swap a.id b.id
      cost := prices.cost .swap a.rect.area }
  else .error (.sizeMismatch a.rect b.rect)

/-- The largest top-level number in use, or zero. -/
def largestRoot (blocks : List Block) : Nat :=
  blocks.foldl (fun n b => max n b.id.root) 0

end Block

end BlockPainting
