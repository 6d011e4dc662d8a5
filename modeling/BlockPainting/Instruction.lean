import BlockPainting.BlockId
import BlockPainting.Color
import BlockPainting.Pricing
import BlockPainting.Rect

/-!
# Instructions

A painting program is a list of instructions, each addressed to live blocks by id. A program written
for a working block with one top-level number is moved to another by renumbering; numbers below the
old start belong to the part before and stay as they are.
-/

namespace BlockPainting

inductive Instruction where
  | color (block : BlockId) (paint : Color)
  | lineCut (block : BlockId) (axis : Axis) (position : Nat)
  | pointCut (block : BlockId) (x y : Nat)
  /-- Joins two adjacent blocks into a new top-level block. -/
  | merge (a b : BlockId)
  /-- Exchanges the places of two blocks of equal size. -/
  | swap (a b : BlockId)
  deriving DecidableEq

namespace Instruction

def operation : Instruction → Operation
  | color .. => .color
  | lineCut .. => .lineCut
  | pointCut .. => .pointCut
  | merge .. => .merge
  | swap .. => .swap

def isCut : Instruction → Bool
  | lineCut .. => true
  | pointCut .. => true
  | _ => false

/-- Replaces every id, from left to right, until one is refused. -/
def mapIds {ε : Type} (f : BlockId → Except ε BlockId) : Instruction → Except ε Instruction
  | color block paint => do return color (← f block) paint
  | lineCut block axis position => do return lineCut (← f block) axis position
  | pointCut block x y => do return pointCut (← f block) x y
  | merge a b => do
    let a ← f a
    let b ← f b
    return merge a b
  | swap a b => do
    let a ← f a
    let b ← f b
    return swap a b

end Instruction

structure RenumberError where
  id : BlockId
  oldStart : Nat
  newStart : Nat
  deriving DecidableEq

/-- The message for a number that cannot be moved. -/
def RenumberError.message (e : RenumberError) : String :=
  s!"block {e.id.text} cannot move from start {e.oldStart} to {e.newStart}: top-level id overflows"

/-- Moves an id by the distance between the two starts, if it is not below the old one. -/
def BlockId.renumber (oldStart newStart : Nat) (id : BlockId) : Except RenumberError BlockId :=
  if id.root < oldStart then .ok id
  else if id.root - oldStart + newStart ≤ maxRoot then
    .ok (id.withRoot (id.root - oldStart + newStart))
  else .error ⟨id, oldStart, newStart⟩

/-- Moves every id of a program; the first that cannot be moved is reported. -/
def renumber (program : List Instruction) (oldStart newStart : Nat) :
    Except RenumberError (List Instruction) :=
  program.mapM (Instruction.mapIds (BlockId.renumber oldStart newStart))

/-- Runs `body`, written for a working block numbered `oldStart`, after an opening part that leaves
the working block at `newStart`. -/
def splice (opening body : List Instruction) (oldStart newStart : Nat) :
    Except RenumberError (List Instruction) := do
  let body ← renumber body oldStart newStart
  return opening ++ body

end BlockPainting
