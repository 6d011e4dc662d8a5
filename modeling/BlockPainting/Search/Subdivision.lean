import BlockPainting.ColorEstimate
import BlockPainting.Recipe
import BlockPainting.SolveError

/-!
# Recursive subdivision

A block is left as it is, recolored, or cut in two or four whose parts are searched in turn. The
search of one block is written for any way to look up a color and to search a part; the session then
remembers colors and recipes. A recipe depends only on the rectangle, the paint, the number of
subdivisions left and whether recoloring is tried, so it can be used again wherever these agree.
-/

namespace BlockPainting

namespace Subdivision

/-- A side longer than this is cut at three places. -/
def wideSide : Nat := 100

/-- A side longer than this is cut in the middle. -/
def narrowSide : Nat := 10

/-- Where along a side of some length cuts are tried. -/
def cutRatios (length : Nat) : List Float :=
  if length > wideSide then [0.25, 0.5, 0.75]
  else if length > narrowSide then [0.5]
  else []

/-- The coordinate at a ratio of the way along a side. -/
def cutPosition (start length : Nat) (ratio : Float) : Nat :=
  roundClamped maxCoordinate (countToFloat start + countToFloat length * ratio)

/-- The line cuts tried on a rectangle, those along `x` first. -/
def lineCuts (rect : Rect) : List (Axis × Nat) :=
  (cutRatios rect.width).map (fun ratio => (.x, cutPosition rect.x rect.width ratio))
    ++ (cutRatios rect.height).map fun ratio => (.y, cutPosition rect.y rect.height ratio)

/-- A computation that carries a state and may refuse a cut. -/
abbrev SearchM (σ : Type) := StateT σ (Except GeometryError)

/-- What the search of one block asks for. -/
structure Surroundings (σ : Type) where
  color : Rect → SearchM σ Color
  /-- The recipe for a part with some paint, with or without recoloring; none is asked for where no
  subdivision is left. -/
  deeper : Option (Rect → Color → Bool → SearchM σ Recipe)

/-- What the search of one block finds. -/
inductive Finding where
  | pruned (leave : Recipe)
  | compared (leave : Recipe) (others : List Recipe)

section Search

variable {σ : Type}

def lift {α : Type} : Except GeometryError α → SearchM σ α
  | .ok a => pure a
  | .error e => throw e

/-- The recipes that recolor the block first, and the least similarity that leaving or recoloring
reaches. -/
def recolorings (target : Raster) (s : Surroundings σ) (rect : Rect) (current : Color)
    (colorCost : Nat) (similarity : Float) : SearchM σ (List Recipe × Float) := do
  let estimate ← s.color rect
  if estimate = current then
    return ([], similarity)
  let reached := target.similarity rect estimate
  let start := Recipe.begin (.color estimate) colorCost
  let least := if reached < similarity then reached else similarity
  match s.deeper with
  | none => return ([start.append (.leave reached)], least)
  | some deeper =>
    let nested ← deeper rect estimate false
    return ([start.append (.leave reached), start.append nested], least)

/-- Goes on with the recipes for the parts of a cut, which keep the paint. -/
def searchParts (deeper : Rect → Color → Bool → SearchM σ Recipe) (current : Color) :
    Recipe → Nat → List Rect → SearchM σ Recipe
  | r, _, [] => return r
  | r, index, part :: rest => do
    let sub ← deeper part current true
    searchParts deeper current (r.appendChild index sub) (index + 1) rest

/-- The recipe that cuts the block along a line first. -/
def lineCutRecipe (deeper : Rect → Color → Bool → SearchM σ Recipe) (rect : Rect)
    (current : Color) (cost : Nat) (cut : Axis × Nat) : SearchM σ Recipe := do
  let (low, high) ← lift (rect.cut cut.1 cut.2)
  searchParts deeper current (.begin (.lineCut cut.1 cut.2) cost) 0 [low, high]

/-- The recipe that cuts the block at its middle first. -/
def pointCutRecipe (deeper : Rect → Color → Bool → SearchM σ Recipe) (rect : Rect)
    (current : Color) (cost : Nat) : SearchM σ Recipe := do
  let x := cutPosition rect.x rect.width 0.5
  let y := cutPosition rect.y rect.height 0.5
  let quarters ← lift (rect.cutPoint x y)
  searchParts deeper current (.begin (.pointCut x y) cost) 0 quarters.toList

/-- The recipes that cut the block first. A cut is tried only if what is left to gain exceeds its
price and that of painting the parts. -/
def cuttings (prices : Pricing) (deeper : Rect → Color → Bool → SearchM σ Recipe) (rect : Rect)
    (current : Color) (colorCost : Nat) (least : Float) : SearchM σ (List Recipe) := do
  let lineCost := prices.cost .lineCut rect.area
  let pointCost := prices.cost .pointCut rect.area
  let lines ←
    if least > countToFloat (2 * colorCost + lineCost) then
      (lineCuts rect).mapM (lineCutRecipe deeper rect current lineCost)
    else
      pure []
  if least > countToFloat (4 * colorCost + pointCost) ∧ rect.width > wideSide
      ∧ rect.height > wideSide then
    let point ← pointCutRecipe deeper rect current pointCost
    return lines ++ [point]
  else
    return lines

def searchBlock (target : Raster) (s : Surroundings σ) (rect : Rect) (current : Color)
    (tryRecolor : Bool) : SearchM σ Finding := do
  let prices := target.pricing
  let similarity := target.similarity rect current
  let colorCost := prices.cost .color rect.area
  if similarity < countToFloat colorCost then
    return .pruned (.leave similarity)
  let (recolored, least) ←
    if tryRecolor then recolorings target s rect current colorCost similarity
    else pure ([], similarity)
  match s.deeper with
  | none => return .compared (.leave similarity) recolored
  | some deeper =>
    let cut ← cuttings prices deeper rect current colorCost least
    return .compared (.leave similarity) (recolored ++ cut)

end Search

/-- The first of the recipes with the least score. -/
def cheapest (first : Recipe) (others : List Recipe) : Recipe :=
  others.foldl (fun best r => if r.score < best.score then r else best) first

structure Key where
  rect : Rect
  current : Color
  remaining : Nat
  tryRecolor : Bool
  deriving DecidableEq, Hashable

/-- What one session remembers and counts. -/
structure Session where
  colors : ColorCache
  memo : Std.HashMap Key Recipe
  memoHits : Nat
  memoMisses : Nat
  pruned : Nat
  candidates : Nat

def Session.empty : Session := ⟨.empty, ∅, 0, 0, 0, 0⟩

structure Counters where
  memoHits : Nat
  memoMisses : Nat
  pruned : Nat
  candidates : Nat
  colorsEstimated : Nat
  deriving DecidableEq

def Session.counters (s : Session) : Counters :=
  ⟨s.memoHits, s.memoMisses, s.pruned, s.candidates, s.colors.computed⟩

/-- The color of a rectangle, from the session's cache. -/
def cachedColor (target : Raster) (estimator : Estimator) (rect : Rect) : SearchM Session Color :=
  fun s =>
    let (c, colors) := s.colors.color (estimator.estimate target) rect
    .ok (c, { s with colors })

/-- Remembers the best recipe of a finished search. A pruned search is cheap and is not
remembered. -/
def conclude (key : Key) : Finding → SearchM Session Recipe
  | .pruned leave => do
    modify fun s => { s with pruned := s.pruned + 1 }
    return leave
  | .compared leave others => do
    let best := cheapest leave others
    modify fun s => { s with
      memo := s.memo.insert key best
      candidates := s.candidates + (others.length + 1) }
    return best

/-- Looks a block up, or searches it and remembers the outcome. -/
def remember (key : Key) (search : SearchM Session Finding) : SearchM Session Recipe := do
  match (← get).memo[key]? with
  | some recipe =>
    modify fun s => { s with memoHits := s.memoHits + 1 }
    return recipe
  | none =>
    modify fun s => { s with memoMisses := s.memoMisses + 1 }
    conclude key (← search)

/-- The best recipe for a block with so many subdivisions left. -/
def search (target : Raster) (estimator : Estimator) :
    Nat → Rect → Color → Bool → SearchM Session Recipe
  | 0, rect, current, tryRecolor =>
    remember ⟨rect, current, 0, tryRecolor⟩ <|
      searchBlock target ⟨cachedColor target estimator, none⟩ rect current tryRecolor
  | remaining + 1, rect, current, tryRecolor =>
    remember ⟨rect, current, remaining + 1, tryRecolor⟩ <|
      searchBlock target
        ⟨cachedColor target estimator, some (search target estimator remaining)⟩
        rect current tryRecolor

/-- The best recipe for a block on the raster that has been subdivided `depth` times already. -/
def improve (target : Raster) (estimator : Estimator) (maxDepth : Nat) (rect : Rect)
    (current : Color) (depth : Nat) (s : Session) : Except SolveError (Recipe × Session) :=
  match target.check rect with
  | .error e => .error (.offRaster e)
  | .ok () =>
    match (search target estimator (maxDepth - depth) rect current true).run s with
    | .error e => .error (.geometry e)
    | .ok result => .ok result

end Subdivision

def Estimator.ofSettings (target : Raster) (s : Settings) : Except GeometryError Estimator :=
  match s.estimator with
  | .exact => .ok (.exact s.medianEpsilon)
  | .quadtree => do
    let tree ← Quadtree.build target s.quadTreeLevels s.medianEpsilon
    return .quadtree tree s.quadTreeLevels s.medianEpsilon s.quadTreeMinArea

end BlockPainting
