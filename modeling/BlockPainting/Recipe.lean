import BlockPainting.Color
import BlockPainting.Instruction

/-!
# Recipes

A recipe is a program for one block, whatever its id: its steps name their blocks by the child
indices on the way down from that block. Cost and similarity are kept apart, so that the similarity
is rounded only in a final score.
-/

namespace BlockPainting

inductive Action where
  | color (paint : Color)
  | lineCut (axis : Axis) (position : Nat)
  | pointCut (x y : Nat)
  deriving DecidableEq

/-- An action on the block reached by the child indices of `target`. -/
structure Step where
  target : List Nat
  action : Action
  deriving DecidableEq

/-- The instruction of a step, given the id of the recipe's block. -/
def Step.instruction (origin : BlockId) (s : Step) : Instruction :=
  let block := origin.descend s.target
  match s.action with
  | .color paint => .color block paint
  | .lineCut axis position => .lineCut block axis position
  | .pointCut x y => .pointCut block x y

/-- Steps for one block, what they cost and what they leave wrong. -/
structure Recipe where
  steps : List Step
  cost : Nat
  similarity : Float
  deriving DecidableEq

namespace Recipe

/-- The recipe that leaves the block as it is. -/
def leave (similarity : Float) : Recipe := ⟨[], 0, similarity⟩

def begin (action : Action) (cost : Nat) : Recipe := ⟨[⟨[], action⟩], cost, 0.0⟩

/-- Goes on with a recipe for the same block. -/
def append (r next : Recipe) : Recipe :=
  ⟨r.steps ++ next.steps, r.cost + next.cost, r.similarity + next.similarity⟩

/-- Goes on with a recipe for the child with an index. -/
def appendChild (r : Recipe) (index : Nat) (next : Recipe) : Recipe :=
  ⟨r.steps ++ next.steps.map fun s => { s with target := index :: s.target },
    r.cost + next.cost, r.similarity + next.similarity⟩

def score (r : Recipe) : Float :=
  exactScore r.cost r.similarity

/-- The program for the block with a given id. -/
def bind (r : Recipe) (origin : BlockId) : List Instruction :=
  r.steps.map (Step.instruction origin)

end Recipe

end BlockPainting
