import BlockPainting.Number.Decimal

/-!
# Settings

What a solve is told: which strategies to run and how far each may go.
-/

namespace BlockPainting

/-- Which strategies paint a single block. -/
inductive Strategy where
  | blocks
  | pixelGrid
  | stripes
  | best
  deriving DecidableEq

def Strategy.text : Strategy → String
  | blocks => "Blocks"
  | pixelGrid => "PixelGrid"
  | stripes => "Stripes"
  | best => "Best"

/-- Whether a strategy is run when this one is asked for. -/
def Strategy.runs (asked s : Strategy) : Bool :=
  asked = s || asked = .best

inductive EstimatorKind where
  | exact
  | quadtree
  deriving DecidableEq

/-- What is done with a start of several blocks. -/
inductive LayoutPlan where
  | shuffle
  | merge
  | best
  deriving DecidableEq

def LayoutPlan.text : LayoutPlan → String
  | shuffle => "Shuffle"
  | merge => "Merge"
  | best => "Best"

def LayoutPlan.shuffles (p : LayoutPlan) : Bool :=
  p = .shuffle || p = .best

def LayoutPlan.merges (p : LayoutPlan) : Bool :=
  p = .merge || p = .best

/-- Where a grid walk heads from the corner it starts in. -/
inductive Direction where
  | upRight
  | upLeft
  | downLeft
  | downRight
  deriving DecidableEq

namespace Direction

def all : List Direction := [upRight, upLeft, downLeft, downRight]

/-- Whether the walk goes toward larger `x`. -/
def rightward : Direction → Bool
  | upRight => true
  | downRight => true
  | _ => false

/-- Whether the walk goes toward larger `y`. -/
def upward : Direction → Bool
  | upRight => true
  | upLeft => true
  | _ => false

def text : Direction → String
  | upRight => "up-right"
  | upLeft => "up-left"
  | downLeft => "down-left"
  | downRight => "down-right"

end Direction

structure Settings where
  strategy : Strategy := .best
  maxDepth : Nat := 5
  /-- Medians are iterated until they move by less than this. -/
  medianEpsilon : Float := 0.5
  estimator : EstimatorKind := .exact
  quadTreeLevels : Nat := 6
  quadTreeMinArea : Nat := 10000
  gridCellSizes : List Nat := [10, 20, 25, 40]
  gridDirections : List Direction := Direction.all
  stripeStep : Nat := 10
  layoutPlan : LayoutPlan := .best
  /-- How far cuts are moved in refinement; zero leaves it out. -/
  refineRadius : Nat := 4
  refineMaxCuts : Nat := 200

inductive SettingsError where
  | epsilon (value : Float)
  | noLevels
  | zeroCell
  | zeroStep
  /-- A grid walk was asked for cells of no size. -/
  | zeroWalkCell
  | zeroStripe

def SettingsError.message : SettingsError → String
  | epsilon value => s!"median_epsilon must be positive and finite, got {plainText value}"
  | noLevels => "quad_tree_levels must be at least 1"
  | zeroCell => "grid_cell_sizes must not contain 0"
  | zeroStep => "stripe_step must be at least 1"
  | zeroWalkCell => "grid cell size must be at least 1"
  | zeroStripe => "stripe step must be at least 1"

namespace Settings

/-- Looks for the first setting that cannot be worked with. -/
def validate (s : Settings) : Except SettingsError Unit :=
  if ¬ (s.medianEpsilon.isFinite ∧ s.medianEpsilon > 0.0) then .error (.epsilon s.medianEpsilon)
  else if s.quadTreeLevels = 0 then .error .noLevels
  else if 0 ∈ s.gridCellSizes then .error .zeroCell
  else if s.stripeStep = 0 then .error .zeroStep
  else .ok ()

end Settings

end BlockPainting
