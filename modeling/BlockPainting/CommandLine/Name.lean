import BlockPainting.Settings

/-!
# Options

The options of the command line, how they are written and which values they take.
-/

namespace BlockPainting.CommandLine

inductive Name where
  | layout
  | strategy
  | maxDepth
  | medianEpsilon
  | estimator
  | quadTreeLevels
  | gridSizes
  | stripeStep
  | layoutPlan
  | refineRadius
  | refineMaxCuts
  | refine
  | splice
  | bodyStart
  | output
  | preview
  | runs
  | json
  | settings
  | verbose
  | help
  | version
  deriving DecidableEq

namespace Name

def all : List (Name × String) :=
  [(layout, "layout"), (strategy, "strategy"), (maxDepth, "max-depth"),
    (medianEpsilon, "median-epsilon"), (estimator, "estimator"),
    (quadTreeLevels, "quad-tree-levels"), (gridSizes, "grid-sizes"), (stripeStep, "stripe-step"),
    (layoutPlan, "layout-plan"), (refineRadius, "refine-radius"),
    (refineMaxCuts, "refine-max-cuts"), (refine, "refine"), (splice, "splice"),
    (bodyStart, "body-start"), (output, "output"), (preview, "preview"), (runs, "runs"),
    (json, "json"), (settings, "config-json"), (verbose, "verbose"), (help, "help"),
    (version, "version")]

def read? (text : String) : Option Name :=
  (all.find? fun entry => entry.2 = text).map Prod.fst

def text (name : Name) : String :=
  (all.lookup name).getD ""

def letter? : Name → Option Char
  | verbose => some 'v'
  | help => some 'h'
  | version => some 'V'
  | _ => none

def ofLetter? (c : Char) : Option Name :=
  (all.find? fun entry => entry.1.letter? = some c).map Prod.fst

def valueNames (name : Name) : List String :=
  match name with
  | json => []
  | verbose => []
  | help => []
  | version => []
  | refine => ["PROGRAM"]
  | splice => ["PREFIX", "BODY"]
  | _ => [String.ofList (name.text.toList.map fun c => if c = '-' then '_' else c.toUpper)]

def arity (name : Name) : Nat :=
  name.valueNames.length

/-- Whether an option may be given more than once. -/
def repeatable : Name → Bool
  | gridSizes => true
  | splice => true
  | verbose => true
  | _ => false

end Name

/-- One of the words that an option may have as its value. -/
structure Choice (α : Type) where
  text : String
  value : α
  about : String

def readChoice {α : Type} (choices : List (Choice α)) (v : String) : Option α :=
  (choices.find? fun c => c.text = v).map Choice.value

def choiceText {α : Type} [DecidableEq α] (choices : List (Choice α)) (a : α) : String :=
  ((choices.find? fun c => c.value = a).map Choice.text).getD ""

def strategyChoices : List (Choice Strategy) :=
  [⟨"blocks", .blocks, "Recursive split / recolor search"⟩,
    ⟨"pixel-grid", .pixelGrid, "Greedy scanline recoloring"⟩,
    ⟨"stripes", .stripes, "Horizontal band dynamic programming"⟩,
    ⟨"best", .best, "Every strategy, cheapest wins"⟩]

def estimatorChoices : List (Choice EstimatorKind) :=
  [⟨"exact", .exact, "Geometric median over every pixel"⟩,
    ⟨"quad-tree", .quadtree, "Geometric median of precomputed quad-tree nodes"⟩]

def planChoices : List (Choice LayoutPlan) :=
  [⟨"shuffle", .shuffle, "Swap or recolor blocks in place"⟩,
    ⟨"merge", .merge, "Merge the grid into one block first"⟩,
    ⟨"best", .best, "Try both"⟩]

end BlockPainting.CommandLine
