import BlockPainting.Layout.Basic

/-!
# Merging a grid

The blocks of each column are joined from the bottom up, then the columns from left to right.
-/

namespace BlockPainting.Layout

/-- Joining blocks uses up ids, also when a later join fails. -/
abbrev Merging := ExceptT LayoutError (StateM IdSupply)

def joinTwo (prices : Pricing) (a b : Block) : Merging (Move Block) := do
  match a.merge b (← get) prices with
  | .error cause => throw (.notGrid cause)
  | .ok (move, ids) =>
    set ids
    return move

/-- Joins blocks to the first, one after the other. -/
def joinAll (prices : Pricing) (first : Block) : List Block → Merging (List Instruction × Block)
  | [] => return ([], first)
  | next :: rest => do
    let move ← joinTwo prices first next
    let (instructions, merged) ← joinAll prices move.blocks rest
    return (move.instruction :: instructions, merged)

def joinColumns (prices : Pricing) : List (List Block) → Merging (List Instruction × List Block)
  | [] => return ([], [])
  | [] :: rest => joinColumns prices rest
  | (first :: above) :: rest => do
    let (instructions, column) ← joinAll prices first above
    let (more, columns) ← joinColumns prices rest
    return (instructions ++ more, column :: columns)

/-- The order of merging: by left edge, then by bottom edge. -/
def leftBelow (a b : Block) : Bool :=
  a.rect.x < b.rect.x || (a.rect.x == b.rect.x && a.rect.y ≤ b.rect.y)

/-- The blocks with one left edge, in the order of merging. -/
def columns (blocks : List Block) : List (List Block) :=
  (blocks.mergeSort leftBelow).splitBy fun a b => a.rect.x == b.rect.x

def joinGrid (prices : Pricing) (blocks : List Block) : Merging (List Instruction × Block) := do
  let (instructions, joined) ← joinColumns prices (columns blocks)
  match joined with
  | [] => throw .empty
  | first :: rest =>
    let (more, merged) ← joinAll prices first rest
    return (instructions ++ more, merged)

/-- The merges that join all blocks, the block they leave, and the ids that remain. -/
def mergeGrid (blocks : List Block) (ids : IdSupply) (prices : Pricing) :
    Except LayoutError (List Instruction × Block) × IdSupply :=
  (joinGrid prices blocks).run.run ids

end BlockPainting.Layout
