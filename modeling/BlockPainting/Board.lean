import BlockPainting.Block
import BlockPainting.Raster
import Std.Data.HashMap

/-!
# Replay

A board holds the live blocks and the painted raster. An instruction is first planned against the
board, which changes nothing and may fail, and then carried out, which cannot fail. So a refused
instruction leaves the board as it was.
-/

namespace BlockPainting

inductive ReplayError where
  /-- The instruction names a block that is not live. -/
  | unknownBlock (index : Nat) (id : BlockId)
  | geometry (index : Nat) (cause : GeometryError)
  | duplicateBlock (id : BlockId)

/-- The message for a program that cannot be replayed. -/
def ReplayError.message : ReplayError → String
  | unknownBlock index id => s!"instruction {index}: unknown block {id.text}"
  | geometry index cause => s!"instruction {index}: {cause.message}"
  | duplicateBlock id => s!"initial block {id.text} appears twice"

structure Outcome where
  cost : Nat
  similarity : Float
  painted : Raster

def totalScore (cost : Nat) (similarity : Float) : Nat :=
  cost + roundClamped Pricing.maxCost similarity

def Outcome.score (o : Outcome) : Nat :=
  totalScore o.cost o.similarity

/-- The state of a replay. -/
structure Board where
  prices : Pricing
  live : Std.HashMap BlockId Block
  painted : Raster
  ids : IdSupply
  cost : Nat
  applied : Nat

/-- What an instruction does to the raster. -/
inductive Stroke where
  | keep
  | fill (rect : Rect) (paint : Color)
  | exchange (a b : Rect)

def Raster.stroke (r : Raster) : Stroke → Raster
  | .keep => r
  | .fill rect paint => r.fill rect paint
  | .exchange a b => r.exchange a b

/-- What an instruction does to a board. -/
structure Change where
  removed : List BlockId
  added : List Block
  stroke : Stroke
  ids : IdSupply
  cost : Nat

namespace Board

/-- Puts a block on the board, in place of a live one with the same id. -/
def put (live : Std.HashMap BlockId Block) (b : Block) : Std.HashMap BlockId Block :=
  live.insert b.id b

def drop (live : Std.HashMap BlockId Block) (id : BlockId) : Std.HashMap BlockId Block :=
  live.erase id

/-- Lays down one more initial block; a block without uniform paint is painted white. -/
def place (b : Board) (block : Block) : Except ReplayError Board :=
  if b.live.contains block.id then .error (.duplicateBlock block.id)
  else
    .ok { b with
      live := put b.live block
      painted := b.painted.fill block.rect (block.paint.getD .white) }

/-- A board with the initial blocks on a white raster. -/
def start (width height : Nat) (initial : List Block) : Except ReplayError Board :=
  initial.foldlM place {
    prices := .contest width height
    live := ∅
    painted := .filled width height .white
    ids := .after (Block.largestRoot initial)
    cost := 0
    applied := 0 }

def find (b : Board) (id : BlockId) : Except ReplayError Block :=
  match b.live[id]? with
  | some block => .ok block
  | none => .error (.unknownBlock b.applied id)

def refuse {α : Type} (b : Board) : Except GeometryError α → Except ReplayError α
  | .ok a => .ok a
  | .error cause => .error (.geometry b.applied cause)

def plan (b : Board) : Instruction → Except ReplayError Change
  | .color block paint => do
    let block ← b.find block
    let move := block.recolor paint b.prices
    return ⟨[], [move.blocks], .fill block.rect paint, b.ids, move.cost⟩
  | .lineCut block axis position => do
    let block ← b.find block
    let move ← b.refuse (block.lineCut axis position b.prices)
    return ⟨[block.id], [move.blocks.1, move.blocks.2], .keep, b.ids, move.cost⟩
  | .pointCut block x y => do
    let block ← b.find block
    let move ← b.refuse (block.pointCut x y b.prices)
    return ⟨[block.id], move.blocks.toList, .keep, b.ids, move.cost⟩
  | .merge first second => do
    let first ← b.find first
    let second ← b.find second
    let (move, ids) ← b.refuse (first.merge second b.ids b.prices)
    return ⟨[first.id, second.id], [move.blocks], .keep, ids, move.cost⟩
  | .swap first second => do
    let first ← b.find first
    let second ← b.find second
    let move ← b.refuse (first.swap second b.prices)
    return ⟨[], [move.blocks.1, move.blocks.2], .exchange second.rect first.rect, b.ids, move.cost⟩

def commit (b : Board) (c : Change) : Board :=
  { b with
    live := c.added.foldl put (c.removed.foldl drop b.live)
    painted := b.painted.stroke c.stroke
    ids := c.ids
    cost := b.cost + c.cost
    applied := b.applied + 1 }

/-- Carries out an instruction, if it is allowed. -/
def apply (b : Board) (i : Instruction) : Except ReplayError Board :=
  (b.plan i).map b.commit

/-- Carries out a program up to the first refused instruction. -/
def applyAll (b : Board) (program : List Instruction) : Except ReplayError Board :=
  program.foldlM apply b

/-- Compares the painting with the target. An empty raster has nothing to compare. -/
def finish (b : Board) (target : Raster) : Outcome where
  cost := b.cost
  similarity :=
    match target.bounds with
    | .ok bounds => b.painted.similarityTo target bounds
    | .error _ => 0.0
  painted := b.painted

end Board

/-- Replays a program from its initial blocks and compares the painting with the target. -/
def replay (target : Raster) (initial : List Block) (program : List Instruction) :
    Except ReplayError Outcome := do
  let board ← Board.start target.width target.height initial
  let board ← board.applyAll program
  return board.finish target

end BlockPainting
