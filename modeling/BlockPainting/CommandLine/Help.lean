import BlockPainting.CommandLine.Name

/-!
# Help

Help comes in a brief form, with one line of text for each option, and in a full form, with further
paragraphs and a list of the words that an option may have as its value.
-/

namespace BlockPainting.CommandLine

inductive HelpForm where
  | brief
  | full
  deriving DecidableEq

def usage : String := "Usage: robopaint-bench [OPTIONS] <IMAGE_PATH>"

def purpose : String := "Painting program search and diagnostics for robopaint"

def description : String :=
  "Solves a target image with configurable parameters and prints per-strategy timing, cost and "
    ++ "score diagnostics."

def pictureHeading : String := "  <IMAGE_PATH>"

def pictureAbout : String := "Path to the target image (PNG, JPEG, BMP, WebP)"

namespace Name

/-- What an option is for. The last point is left out. -/
def about (form : HelpForm) : Name → String
  | layout => "Initial block layout JSON. Defaults to one white block"
  | strategy => "Strategy to run"
  | maxDepth => "Block optimizer recursion depth"
  | medianEpsilon => "Geometric median convergence threshold"
  | estimator => "Region color estimator"
  | quadTreeLevels => "Quad-tree levels for the quad-tree estimator"
  | gridSizes => "Pixel-grid cell sizes to sweep (comma separated)"
  | stripeStep => "Stripe optimizer band granularity in pixels"
  | layoutPlan => "Multi-block layout handling"
  | refineRadius => "How far the winning program's cuts are nudged (0 disables)"
  | refineMaxCuts => "Skip refinement for programs with more cuts than this"
  | refine => "Refine the cuts of an existing program instead of solving"
  | splice =>
    "Run BODY, written for a single starting block, after PREFIX, which merges the layout into "
      ++ "one block. Ids of BODY are renumbered"
  | bodyStart => "Top-level id BODY's working block has before renumbering"
  | output => "Write the winning program to this file"
  | preview => "Render the winning program to this PNG file"
  | runs => "Number of runs for averaging"
  | json => "Output diagnostics as JSON instead of human-readable report"
  | settings => "Full solver config as a JSON string"
  | verbose =>
    "Increase log verbosity (-v info, -vv debug, -vvv trace). `RUST_LOG` takes precedence when set"
  | help =>
    match form with
    | .brief => "Print help (see more with '--help')"
    | .full => "Print help (see a summary with '-h')"
  | version => "Print version"

def details : Name → List String
  | settings =>
    ["When provided, all other solver parameter flags are ignored. The JSON must be a valid "
      ++ "`SolverConfig` serialization."]
  | _ => []

/-- The values that an option has where it is not given. -/
def defaults (name : Name) : List String :=
  let s : Settings := {}
  match name with
  | strategy => [choiceText strategyChoices s.strategy]
  | maxDepth => [toString s.maxDepth]
  | medianEpsilon => [plainText s.medianEpsilon]
  | estimator => [choiceText estimatorChoices s.estimator]
  | quadTreeLevels => [toString s.quadTreeLevels]
  | gridSizes => s.gridCellSizes.map toString
  | stripeStep => [toString s.stripeStep]
  | layoutPlan => [choiceText planChoices s.layoutPlan]
  | refineRadius => [toString s.refineRadius]
  | refineMaxCuts => [toString s.refineMaxCuts]
  | bodyStart => ["0"]
  | runs => ["1"]
  | _ => []

/-- The words that an option may have as its value, with what they do. -/
def choices : Name → List (String × String)
  | strategy => strategyChoices.map fun c => (c.text, c.about)
  | estimator => estimatorChoices.map fun c => (c.text, c.about)
  | layoutPlan => planChoices.map fun c => (c.text, c.about)
  | _ => []

def heading (name : Name) : String :=
  let start := (name.letter?.map fun c => s!"  -{c}, ").getD "      "
  let dots := if name = verbose then "..." else ""
  s!"{start}--{name.text}{dots}" ++ String.join (name.valueNames.map fun v => s!" <{v}>")

/-- The note on the values that an option has where it is not given. -/
def defaultNote (name : Name) : List String :=
  if name.defaults = [] then [] else ["[default: " ++ " ".intercalate name.defaults ++ "]"]

end Name

/-- The space before a text that stands below a heading. -/
def margin : String := "          "

/-- Some text below its heading, with a line between two paragraphs. -/
def paragraphs (texts : List String) : List String :=
  (texts.map (margin ++ ·)).intersperse margin

/-- The paragraphs of a text. Its first one ends with a point only if there are others. -/
def withDetails (about : String) (details : List String) : List String :=
  if details = [] then [about] else s!"{about}." :: details

def Name.briefHelp (name : Name) : List String :=
  let words := ", ".intercalate (name.choices.map Prod.fst)
  let choiceNote := if name.choices = [] then [] else [s!"[possible values: {words}]"]
  [name.heading,
    margin ++ " ".intercalate (name.about .brief :: (name.defaultNote ++ choiceNote))]

/-- The list of the words that an option may have as its value. -/
def choiceLines (choices : List (String × String)) : List String :=
  let longest := (choices.map fun c => c.1.length).foldl max 0
  let line := fun (word, about) =>
    s!"{margin}- {word}: " ++ "".pushn ' ' (longest - word.length) ++ about
  if choices = [] then [] else ["", s!"{margin}Possible values:"] ++ choices.map line

def Name.fullHelp (name : Name) : List String :=
  name.heading :: paragraphs (withDetails (name.about .full) name.details)
    ++ choiceLines name.choices ++ name.defaultNote.flatMap fun note => [margin, margin ++ note]

def helpLines : HelpForm → List String
  | .brief =>
    [purpose, "", usage, "", "Arguments:", s!"{pictureHeading}  {pictureAbout}", "", "Options:"]
      ++ Name.all.flatMap fun (name, _) => name.briefHelp
  | .full =>
    (withDetails purpose [description]).intersperse ""
      ++ ["", usage, "", "Arguments:", pictureHeading, margin ++ pictureAbout, "", "Options:"]
      ++ ((Name.all.map fun (name, _) => name.fullHelp).intersperse [""]).flatten

end BlockPainting.CommandLine
