import BlockPainting.Layout.Merging
import BlockPainting.Layout.Shuffling
import BlockPainting.Report
import BlockPainting.Search.GridWalk
import BlockPainting.Search.Stripes

/-!
# Solving

Every strategy that the settings ask for contributes a program. All programs, the empty one among
them, are replayed from the initial blocks; the least score wins, the earlier program if two are
equal. The cuts of the winner are then refined.
-/

namespace BlockPainting

inductive Stage where
  | shuffling
  | subdivision
  | gridWalks
  | stripes
  | refinement
  | total
  deriving DecidableEq

/-- How long each part of a solve took. -/
abbrev Clock := Stage → Duration

def Clock.stopped : Clock := fun _ => .zero

structure Solution where
  instructions : List Instruction
  cost : Nat
  similarity : Float
  strategy : String
  deriving DecidableEq

def Solution.score (s : Solution) : Nat :=
  totalScore s.cost s.similarity

namespace Solve

/-- A program of one strategy. -/
structure Candidate where
  name : String
  instructions : List Instruction
  duration : Duration

/-- The one block that the strategies start from, after the instructions that join it. -/
structure Base where
  label : String
  opening : List Instruction
  block : Block

/-- The program that does nothing. -/
def noop : Candidate := ⟨"Noop", [], .zero⟩

def shuffleCandidate (target : Raster) (initial : List Block) (settings : Settings)
    (clock : Clock) : Except SolveError Candidate :=
  match Estimator.ofSettings target settings with
  | .error e => .error (.geometry e)
  | .ok estimator =>
    .ok ⟨"Shuffle", (Layout.shuffle target estimator initial .empty).1, clock .shuffling⟩

/-- The block that joining the initial blocks leaves. If they cannot be joined, the plan to merge
fails, and the plan to try everything goes on without. -/
def mergedBase (target : Raster) (initial : List Block) (plan : LayoutPlan) :
    Except SolveError (Option Base) :=
  match (Layout.mergeGrid initial (.after (Block.largestRoot initial)) target.pricing).1 with
  | .ok (opening, block) => .ok (some ⟨"Merge+", opening, block⟩)
  | .error e => if plan = .best then .ok none else .error (.layout e)

/-- The shuffled program, if there is one, and the block that the strategies start from. -/
def begin (target : Raster) (initial : List Block) (settings : Settings) (clock : Clock) :
    Except SolveError (List Candidate × Option Base) :=
  match initial with
  | [only] => .ok ([], some ⟨"", [], only⟩)
  | _ => do
    let shuffled ←
      if settings.layoutPlan.shuffles then
        (shuffleCandidate target initial settings clock).map fun c => [c]
      else .ok []
    let base ←
      if settings.layoutPlan.merges then mergedBase target initial settings.layoutPlan
      else .ok none
    return (shuffled, base)

/-- The program of the recursive subdivision. A block without uniform paint is painted first. -/
def subdivide (target : Raster) (settings : Settings) (base : Base) (clock : Clock) :
    Except SolveError (Candidate × Subdivision.Counters) := do
  match Estimator.ofSettings target settings with
  | .error e => throw (.geometry e)
  | .ok estimator =>
    let rect := base.block.rect
    let (opening, current, session) :=
      match base.block.paint with
      | some c => (base.opening, c, Subdivision.Session.empty)
      | none =>
        let (c, colors) := ColorCache.empty.color (estimator.estimate target) rect
        (base.opening ++ [.color base.block.id c], c, { Subdivision.Session.empty with colors })
    let (recipe, session) ←
      Subdivision.improve target estimator settings.maxDepth rect current 0 session
    return (⟨base.label ++ "Blocks", opening ++ recipe.bind base.block.id, clock .subdivision⟩,
      session.counters)

/-- The program of the cheapest grid walk, if any walk was asked for. -/
def walkGrid (target painted : Raster) (ids : IdSupply) (settings : Settings) (base : Base)
    (clock : Clock) : Except SolveError (List Candidate) := do
  let best ← ((GridWalk.sweep target settings.medianEpsilon base.block painted ids
    settings.gridCellSizes settings.gridDirections).run.run .empty).1
  match best with
  | none => return []
  | some walk =>
    let name := s!"{base.label}PixelGrid {walk.cellSize} {walk.direction.text}"
    return [⟨name, base.opening ++ walk.instructions, clock .gridWalks⟩]

def stripe (target painted : Raster) (settings : Settings) (base : Base) (clock : Clock) :
    Except SolveError Candidate := do
  let bands ← stripes target painted base.block settings.stripeStep
  return ⟨base.label ++ "Stripes", base.opening ++ bands.instructions, clock .stripes⟩

def replayed {α : Type} : Except ReplayError α → Except SolveError α
  | .ok a => .ok a
  | .error e => .error (.replay e)

/-- The programs of the strategies that start from one block. -/
def paintBase (target : Raster) (initial : List Block) (settings : Settings) (base : Base)
    (clock : Clock) : Except SolveError (List Candidate × Option Subdivision.Counters) := do
  let board ← replayed (Board.start target.width target.height initial)
  let board ← replayed (board.applyAll base.opening)
  let (subdivided, counters) ←
    if settings.strategy.runs .blocks then do
      let (c, counters) ← subdivide target settings base clock
      pure ([c], some counters)
    else pure ([], none)
  let walked ←
    if settings.strategy.runs .pixelGrid then
      walkGrid target board.painted board.ids settings base clock
    else pure []
  let striped ←
    if settings.strategy.runs .stripes then do
      let c ← stripe target board.painted settings base clock
      pure [c]
    else pure []
  return (subdivided ++ walked ++ striped, counters)

structure Scored where
  candidate : Candidate
  cost : Nat
  similarity : Float

namespace Scored

def score (s : Scored) : Nat :=
  totalScore s.cost s.similarity

def entry (s : Scored) : ReportEntry where
  name := s.candidate.name
  duration := s.candidate.duration
  instructions := s.candidate.instructions.length
  cost := s.cost
  similarity := s.similarity
  score := s.score

def solution (s : Scored) : Solution :=
  ⟨s.candidate.instructions, s.cost, s.similarity, s.candidate.name⟩

/-- The better of two, the earlier one if they are equal. -/
def better (best later : Scored) : Scored :=
  if later.score < best.score then later else best

end Scored

def scoreCandidate (target : Raster) (initial : List Block) (c : Candidate) :
    Except SolveError Scored := do
  let outcome ← replayed (replay target initial c.instructions)
  return ⟨c, outcome.cost, outcome.similarity⟩

def cutCount (program : List Instruction) : Nat :=
  program.countP Instruction.isCut

/-- Refines the winner, unless the settings or the number of its cuts leave that out. -/
def refineWinner (target : Raster) (initial : List Block) (settings : Settings) (clock : Clock)
    (winner : Scored) : Except SolveError (Option (Scored × Refinement.Counters)) := do
  let cuts := cutCount winner.candidate.instructions
  if settings.refineRadius = 0 ∨ cuts = 0 ∨ cuts > settings.refineMaxCuts then
    return none
  let refined ← replayed
    (refine target initial winner.candidate.instructions settings.refineRadius)
  let name := winner.candidate.name ++ "+Refine"
  return some (⟨⟨name, refined.instructions, clock .refinement⟩, refined.outcome.cost,
    refined.outcome.similarity⟩, refined.counters)

/-- All candidates but the empty program, and the counters of the subdivision. -/
def candidates (target : Raster) (initial : List Block) (settings : Settings) (clock : Clock) :
    Except SolveError (List Candidate × Option Subdivision.Counters) := do
  let (shuffled, base) ← begin target initial settings clock
  match base with
  | none => return (shuffled, none)
  | some base =>
    let (painted, counters) ← paintBase target initial settings base clock
    return (shuffled ++ painted, counters)

def checkSettings (settings : Settings) : Except SolveError Unit :=
  match settings.validate with
  | .ok () => .ok ()
  | .error e => .error (.settings e)

def initialBlocks (target : Raster) (layout : Layout) : Except SolveError (List Block) :=
  match layout.validate target with
  | .ok blocks => .ok blocks
  | .error e => .error (.layout e)

end Solve

open Solve in
/-- The cheapest program that paints the target from a layout, and a report on how it was found. -/
def solveWithReport (target : Raster) (layout : Layout) (settings : Settings) (clock : Clock) :
    Except SolveError (Solution × SolveReport) := do
  checkSettings settings
  let initial ← initialBlocks target layout
  let (others, subdivision) ← candidates target initial settings clock
  let first ← scoreCandidate target initial noop
  let scored ← others.mapM (scoreCandidate target initial)
  let best := scored.foldl Scored.better first
  let refined ← refineWinner target initial settings clock best
  let winner :=
    match refined with
    | none => best
    | some (r, _) => best.better r
  let all := first :: scored ++ (refined.map Prod.fst).toList
  return (winner.solution, {
    width := target.width
    height := target.height
    initialBlocks := initial.length
    entries := all.map Scored.entry
    subdivision
    refinement := refined.map Prod.snd
    winner := winner.candidate.name
    totalDuration := clock .total })

/-- The cheapest program that paints the target from a layout. -/
def solve (target : Raster) (layout : Layout) (settings : Settings) : Except SolveError Solution :=
  (solveWithReport target layout settings .stopped).map Prod.fst

end BlockPainting
