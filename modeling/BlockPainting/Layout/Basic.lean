import BlockPainting.Block
import BlockPainting.Raster

/-!
# Initial layouts

Painting starts from blocks that tile the raster. A layout lists them by corners; it is accepted if
the blocks are distinct, lie on the raster, do not overlap and leave no gap.
-/

namespace BlockPainting

/-- One block of a layout, from its bottom-left to its top-right corner. -/
structure LayoutBlock where
  id : BlockId
  left : Nat
  bottom : Nat
  right : Nat
  top : Nat
  paint : Color
  deriving DecidableEq

/-- The blocks a painting starts from and the size they are meant for. -/
structure Layout where
  width : Nat
  height : Nat
  blocks : List LayoutBlock
  deriving DecidableEq

inductive LayoutError where
  | document
  | otherSize (layoutWidth layoutHeight width height : Nat)
  | empty
  | corners (id : BlockId) (cause : GeometryError)
  | outside (id : BlockId) (rect : Rect)
  | overlap (a b : BlockId)
  | duplicateId (id : BlockId)
  | gaps (covered total : Nat)
  | notGrid (cause : GeometryError)

/-- The message for a layout that cannot be used. -/
def LayoutError.message : LayoutError → String
  | document => "invalid layout JSON: not a layout"
  | otherSize lw lh w h => s!"layout is {lw}x{lh} but the canvas is {w}x{h}"
  | empty => "layout has no blocks"
  | corners id cause => s!"block {id.text}: {cause.message}"
  | outside id rect => s!"block {id.text} at {rect.text} lies outside the canvas"
  | overlap a b => s!"blocks {a.text} and {b.text} overlap"
  | duplicateId id => s!"block id {id.text} is used twice"
  | gaps covered total => s!"blocks cover {covered} of {total} pixels"
  | notGrid cause => s!"layout is not a mergeable grid: {cause.message}"

namespace Layout

/-- One white block `0` over everything. -/
def single (width height : Nat) : Layout where
  width := width
  height := height
  blocks := [⟨.top 0, 0, 0, width, height, .white⟩]

/-- The first conflict of a block with the blocks placed before it. -/
def conflict (id : BlockId) (rect : Rect) : List Block → Option LayoutError
  | [] => none
  | other :: rest =>
    if other.id = id then some (.duplicateId id)
    else if other.rect.overlaps rect then some (.overlap other.id id)
    else conflict id rect rest

def place (r : Raster) (placed : List Block) (b : LayoutBlock) :
    Except LayoutError (List Block) :=
  match Rect.ofCorners b.left b.bottom b.right b.top with
  | .error cause => .error (.corners b.id cause)
  | .ok rect =>
    match r.check rect with
    | .error _ => .error (.outside b.id rect)
    | .ok () =>
      match conflict b.id rect placed with
      | some e => .error e
      | none => .ok (placed ++ [⟨b.id, rect, some b.paint⟩])

def covered (blocks : List Block) : Nat :=
  blocks.foldl (fun sum b => sum + b.rect.area) 0

/-- The blocks of a layout that tiles the raster. -/
def validate (l : Layout) (r : Raster) : Except LayoutError (List Block) := do
  if l.width ≠ r.width ∨ l.height ≠ r.height then
    throw (.otherSize l.width l.height r.width r.height)
  if l.blocks = [] then throw .empty
  let blocks ← l.blocks.foldlM (place r) []
  if covered blocks ≠ r.width * r.height then
    throw (.gaps (covered blocks) (r.width * r.height))
  return blocks

end Layout

end BlockPainting
