import BlockPainting.Board

/-!
# Refinement

Every cut of a finished program is moved a few pixels each way, and a moved cut is kept if the whole
program then scores strictly lower. Cuts are visited in order, each seeing what was kept before it.
Variants that can no longer be replayed are skipped.
-/

namespace BlockPainting

namespace Refinement

structure Counters where
  tried : Nat
  accepted : Nat
  invalid : Nat
  deriving DecidableEq

/-- The whole numbers from `-radius` to `radius`. -/
def offsets (radius : Nat) : List Int :=
  (List.range (2 * radius + 1)).map fun i : Nat => (i : Int) - (radius : Int)

/-- A coordinate moved by an offset, if the result is a coordinate. -/
def shifted (value : Nat) (offset : Int) : Option Nat :=
  let moved := (value : Int) + offset
  if 0 ≤ moved ∧ moved ≤ maxCoordinate then some moved.toNat else none

def shiftedPoint (x y : Nat) (offset : Int × Int) : Option (Nat × Nat) := do
  let x ← shifted x offset.1
  let y ← shifted y offset.2
  return (x, y)

/-- The moved copies of a cut, by increasing offset. Nothing else can be moved. -/
def nudges (radius : Nat) : Instruction → List Instruction
  | .lineCut block axis position =>
    (((offsets radius).filter (· ≠ 0)).filterMap (shifted position)).map (.lineCut block axis)
  | .pointCut block x y =>
    let moves := (offsets radius).flatMap fun dx => (offsets radius).map fun dy => (dx, dy)
    ((moves.filter (· ≠ (0, 0))).filterMap (shiftedPoint x y)).map fun (x, y) =>
      .pointCut block x y
  | _ => []

/-- The choice for one instruction: the variant kept so far and the score it reaches. -/
structure Choice where
  instruction : Instruction
  score : Nat
  counters : Counters

/-- The score of a board after an instruction and the rest of the program. -/
def scoreWith (target : Raster) (board : Board) (i : Instruction) (rest : List Instruction) :
    Except ReplayError Nat := do
  let board ← board.applyAll (i :: rest)
  return (board.finish target).score

def tryVariant (target : Raster) (board : Board) (rest : List Instruction) (c : Choice)
    (variant : Instruction) : Choice :=
  let tried := { c.counters with tried := c.counters.tried + 1 }
  match scoreWith target board variant rest with
  | .error _ => { c with counters := { tried with invalid := tried.invalid + 1 } }
  | .ok score =>
    if score < c.score then
      ⟨variant, score, { tried with accepted := tried.accepted + 1 }⟩
    else
      { c with counters := tried }

/-- Visits the instructions in order; `board` has replayed what was kept before them. -/
def visit (target : Raster) (radius : Nat) :
    Board → Nat → Counters → List Instruction →
      Except ReplayError (List Instruction × Board × Counters)
  | board, _, counters, [] => return ([], board, counters)
  | board, score, counters, i :: rest => do
    let choice := (nudges radius i).foldl (tryVariant target board rest) ⟨i, score, counters⟩
    let board ← board.apply choice.instruction
    let (kept, board, counters) ←
      visit target radius board choice.score choice.counters rest
    return (choice.instruction :: kept, board, counters)

end Refinement

structure Refined where
  instructions : List Instruction
  outcome : Outcome
  counters : Refinement.Counters

/-- Moves the cuts of a program by up to `radius` pixels as long as the score falls. The program
must replay as it is. -/
def refine (target : Raster) (initial : List Block) (program : List Instruction) (radius : Nat) :
    Except ReplayError Refined := do
  let given ← replay target initial program
  let board ← Board.start target.width target.height initial
  let (kept, board, counters) ←
    Refinement.visit target radius board given.score ⟨0, 0, 0⟩ program
  return ⟨kept, board.finish target, counters⟩

end BlockPainting
