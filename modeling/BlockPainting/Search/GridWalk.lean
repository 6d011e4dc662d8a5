import BlockPainting.ColorEstimate
import BlockPainting.SolveError

/-!
# Grid walks

A walk starts in one corner of a block and looks at the cells of the first row and the first column.
Where a cell would gain from its own color, everything from that cell on is cut off, painted and
merged back, so that there is one live block again and later cells overwrite what was painted too
far. Then the block is cut one cell in from the corner, and the walk goes on in the part diagonally
opposite. Of every walk the cheapest beginning is kept.
-/

namespace BlockPainting

structure GridRun where
  cellSize : Nat
  direction : Direction
  instructions : List Instruction
  cost : Nat
  similarity : Float

def GridRun.score (r : GridRun) : Float :=
  exactScore r.cost r.similarity

namespace GridWalk

/-- The quarter of a point cut in which the walk goes on. -/
def continuation {α : Type} (q : Quarters α) : Direction → α
  | .downLeft => q.bottomLeft
  | .downRight => q.bottomRight
  | .upRight => q.topRight
  | .upLeft => q.topLeft

/-- The quarters of a point cut that the walk leaves behind, in order. -/
def leftBehind {α : Type} (q : Quarters α) : Direction → List α
  | .downLeft => [q.bottomRight, q.topRight, q.topLeft]
  | .downRight => [q.bottomLeft, q.topRight, q.topLeft]
  | .upRight => [q.bottomLeft, q.bottomRight, q.topLeft]
  | .upLeft => [q.bottomLeft, q.bottomRight, q.topRight]

/-- The cell that begins `alongX` and `alongY` pixels from the start corner, as far as it lies in
the rectangle. -/
def cell (rect : Rect) (direction : Direction) (alongX alongY size : Nat) :
    Except GeometryError Rect :=
  let w := min size (rect.width - alongX)
  let h := min size (rect.height - alongY)
  let x := if direction.rightward then rect.x + alongX else rect.right - alongX - w
  let y := if direction.upward then rect.y + alongY else rect.top - alongY - h
  Rect.ofSize x y w h

/-- The coordinate `along` pixels from the start corner in the direction of `x`. -/
def columnLine (rect : Rect) (direction : Direction) (along : Nat) : Nat :=
  if direction.rightward then rect.x + along else rect.right - along

/-- The coordinate `along` pixels from the start corner in the direction of `y`. -/
def rowLine (rect : Rect) (direction : Direction) (along : Nat) : Nat :=
  if direction.upward then rect.y + along else rect.top - along

/-- The distances of the later cells from the start corner. -/
def offsets (size length : Nat) : List Nat :=
  (List.range ((length - 1) / size)).map fun k => (k + 1) * size

structure Walk where
  painted : Raster
  ids : IdSupply
  block : Block
  instructions : Array Instruction
  cost : Nat
  frozen : Float

/-- What a walk came to after some pass. -/
structure Milestone where
  length : Nat
  cost : Nat
  similarity : Float

namespace Walk

def push (w : Walk) (i : Instruction) (cost : Nat) : Walk :=
  { w with instructions := w.instructions.push i, cost := w.cost + cost }

def similarity (w : Walk) (target : Raster) : Float :=
  w.frozen + w.painted.similarityTo target w.block.rect

def paintAll (w : Walk) (c : Color) (prices : Pricing) : Walk :=
  let move := w.block.recolor c prices
  let w := w.push move.instruction move.cost
  { w with painted := w.painted.fill w.block.rect c, block := move.blocks }

/-- Cuts the live block, paints the part away from the start corner and merges the two again. -/
def paintBeyond (w : Walk) (axis : Axis) (position : Nat) (farIsHigh : Bool) (c : Color)
    (prices : Pricing) : Except GeometryError Walk := do
  let cut ← w.block.lineCut axis position prices
  let (low, high) := cut.blocks
  let far := if farIsHigh then high else low
  let paint := far.recolor c prices
  let (low, high) := if farIsHigh then (low, paint.blocks) else (paint.blocks, high)
  let (merge, ids) ← low.merge high w.ids prices
  let w := (w.push cut.instruction cut.cost).push paint.instruction paint.cost
  let w := w.push merge.instruction merge.cost
  return { w with painted := w.painted.fill far.rect c, ids, block := merge.blocks }

/-- Cuts the live block one cell in from the start corner and goes on in the part opposite. -/
def advance (w : Walk) (target : Raster) (direction : Direction) (size : Nat) (prices : Pricing) :
    Except GeometryError Walk := do
  let rect := w.block.rect
  let cut ← w.block.pointCut (columnLine rect direction size) (rowLine rect direction size) prices
  let w := w.push cut.instruction cut.cost
  return { w with
    frozen := (leftBehind cut.blocks direction).foldl
      (fun sum b => sum + w.painted.similarityTo target b.rect) w.frozen
    block := continuation cut.blocks direction }

def milestone (w : Walk) (target : Raster) : Milestone :=
  ⟨w.instructions.size, w.cost, w.similarity target⟩

end Walk

/-- Colors are cached, also those of a walk that fails. -/
abbrev GridM := ExceptT GeometryError (StateM ColorCache)

/-- The color of a cell, if painting `area` pixels with it pays within the cell. -/
def pick (target : Raster) (epsilon : Float) (painted : Raster) (cell : Rect) (area : Nat) :
    StateM ColorCache (Option Color) := do
  let c ← modifyGet fun cache => cache.color (target.medianColor · epsilon) cell
  let old := painted.similarityTo target cell
  let new := target.similarity cell c
  let price := countToFloat (target.pricing.cost .color area)
  return if old > new + price then some c else none

def cornerCell (target : Raster) (epsilon : Float) (direction : Direction) (size : Nat)
    (w : Walk) : GridM Walk := do
  let corner ← ExceptT.mk (pure (cell w.block.rect direction 0 0 size))
  match ← pick target epsilon w.painted corner w.block.rect.area with
  | none => return w
  | some c => return w.paintAll c target.pricing

def rowCell (target : Raster) (epsilon : Float) (direction : Direction) (size : Nat)
    (w : Walk) (along : Nat) : GridM Walk := do
  let rect := w.block.rect
  let c ← ExceptT.mk (pure (cell rect direction along 0 size))
  match ← pick target epsilon w.painted c ((rect.width - along) * rect.height) with
  | none => return w
  | some paint =>
    ExceptT.mk (pure (w.paintBeyond .x (columnLine rect direction along) direction.rightward paint
      target.pricing))

def columnCell (target : Raster) (epsilon : Float) (direction : Direction) (size : Nat)
    (w : Walk) (along : Nat) : GridM Walk := do
  let rect := w.block.rect
  let c ← ExceptT.mk (pure (cell rect direction 0 along size))
  match ← pick target epsilon w.painted c (rect.width * (rect.height - along)) with
  | none => return w
  | some paint =>
    ExceptT.mk (pure (w.paintBeyond .y (rowLine rect direction along) direction.upward paint
      target.pricing))

/-- Looks at all cells of the first row and the first column. -/
def pass (target : Raster) (epsilon : Float) (direction : Direction) (size : Nat) (w : Walk) :
    GridM Walk := do
  let rect := w.block.rect
  let w ← cornerCell target epsilon direction size w
  let w ← (offsets size rect.width).foldlM (rowCell target epsilon direction size) w
  (offsets size rect.height).foldlM (columnCell target epsilon direction size) w

/-- The cheaper of two milestones, the earlier one if they are equal. -/
def Milestone.better (best later : Milestone) : Milestone :=
  if exactScore later.cost later.similarity < exactScore best.cost best.similarity then later
  else best

/-- Passes over the block and the parts opposite, at most so many of them. -/
def passes (target : Raster) (epsilon : Float) (direction : Direction) (size : Nat) :
    Nat → Walk → Milestone → GridM (Walk × Milestone)
  | 0, w, best => return (w, best)
  | n + 1, w, best => do
    let w ← pass target epsilon direction size w
    let best := best.better (w.milestone target)
    if w.block.rect.width ≤ size ∨ w.block.rect.height ≤ size then
      return (w, best)
    else
      let w ← ExceptT.mk (pure (w.advance target direction size target.pricing))
      passes target epsilon direction size n w best

/-- The walk that has not begun. -/
def Walk.start (block : Block) (painted : Raster) (ids : IdSupply) : Walk :=
  ⟨painted, ids, block, #[], 0, 0.0⟩

/-- Walks from a live block and keeps the cheapest beginning. Every pass takes at least one column
off the block, so its width bounds their number. -/
def run (target : Raster) (epsilon : Float) (start : Block) (painted : Raster) (ids : IdSupply)
    (size : Nat) (direction : Direction) : ExceptT SolveError (StateM ColorCache) GridRun := do
  match target.check start.rect with
  | .error e => throw (.offRaster e)
  | .ok () =>
    if size = 0 then
      throw (.settings .zeroWalkCell)
    let walk := Walk.start start painted ids
    let (walk, best) ← ExceptT.adapt SolveError.geometry
      (passes target epsilon direction size start.rect.width walk (walk.milestone target))
    return {
      cellSize := size
      direction
      instructions := (walk.instructions.extract 0 best.length).toList
      cost := best.cost
      similarity := best.similarity }

/-- The cheaper of two walks, the earlier one if they are equal. -/
def cheaper (best : Option GridRun) (later : GridRun) : GridRun :=
  match best with
  | none => later
  | some b => if later.score < b.score then later else b

/-- Walks with every cell size in every direction and keeps the cheapest walk. -/
def sweep (target : Raster) (epsilon : Float) (start : Block) (painted : Raster) (ids : IdSupply)
    (sizes : List Nat) (directions : List Direction) :
    ExceptT SolveError (StateM ColorCache) (Option GridRun) :=
  (sizes.flatMap fun size => directions.map fun direction => (size, direction)).foldlM
    (fun best (size, direction) => do
      let walk ← run target epsilon start painted ids size direction
      return some (cheaper best walk))
    none

end GridWalk

end BlockPainting
