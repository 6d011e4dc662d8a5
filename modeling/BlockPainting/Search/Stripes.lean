import BlockPainting.SolveError

/-!
# Stripes

The block is peeled from the bottom: each step cuts off one horizontal band, which is painted with
its mean color or left alone, and goes on above. The best plan from each boundary on is found from
the plans of the boundaries above it.
-/

namespace BlockPainting

/-- A program for one block, what it costs and what it leaves wrong. -/
structure StripeRun where
  instructions : List Instruction
  cost : Nat
  similarity : Float

def StripeRun.score (r : StripeRun) : Float :=
  exactScore r.cost r.similarity

namespace Stripes

/-- One band of a plan. -/
structure Band where
  top : Nat
  paint : Option Color
  /-- The price of the paint and of cutting the band off. -/
  cost : Nat
  similarity : Float

def Band.score (b : Band) : Float :=
  exactScore b.cost b.similarity

/-- The best bands from a boundary on. -/
structure Plan where
  start : Nat
  bands : List Band
  /-- The scores of the bands, added up from the top. -/
  total : Float

/-- The boundaries of bands: every `step` rows from the bottom, and the top. -/
def boundaries (rect : Rect) (step : Nat) : List Nat :=
  (List.range ((rect.height + step - 1) / step)).map (fun k => rect.y + k * step) ++ [rect.top]

/-- The band from `bottom` to `top`, painted with its mean color if that pays. The last band needs
no cut. -/
def band (target painted : Raster) (rect : Rect) (bottom top : Nat) :
    Except GeometryError Band := do
  let prices := target.pricing
  let region ← Rect.ofCorners rect.x bottom rect.right top
  let color := Color.nearest (target.mean region)
  let leave := painted.similarityTo target region
  let paint := target.similarity region color
  let paintCost := prices.cost .color region.area
  let cutCost := if top = rect.top then 0
    else prices.cost .lineCut (rect.width * (rect.top - bottom))
  if paint + countToFloat paintCost < leave then
    return ⟨top, some color, paintCost + cutCost, paint⟩
  else
    return ⟨top, none, cutCost, leave⟩

/-- The plan that begins with a band and goes on with the plan above it. -/
def Plan.extend (start : Nat) (b : Band) (above : Plan) : Plan :=
  ⟨start, b :: above.bands, b.score + above.total⟩

/-- The first of the plans with the least total, among those that begin with a band up to one of the
later boundaries. -/
def choose (target painted : Raster) (rect : Rect) (bottom : Nat) (best : Option Plan) :
    List Plan → Except GeometryError (Option Plan)
  | [] => return best
  | above :: rest => do
    let candidate := Plan.extend bottom (← band target painted rect bottom above.start) above
    let better :=
      match best with
      | none => candidate
      | some b => if candidate.total < b.total then candidate else b
    choose target painted rect bottom (some better) rest

/-- The best plans from each boundary on, given the boundaries from the bottom up. -/
def plans (target painted : Raster) (rect : Rect) : List Nat → Except GeometryError (List Plan)
  | [] => return []
  | bottom :: rest => do
    let later ← plans target painted rect rest
    let best ← choose target painted rect bottom none later
    return best.getD ⟨bottom, [], 0.0⟩ :: later

/-- The instructions that carry out the bands on the block with a given id. -/
def program (block : BlockId) : List Band → List Instruction
  | [] => []
  | [b] => b.paint.toList.map (.color block)
  | b :: rest =>
    .lineCut block .y b.top :: b.paint.toList.map (.color (block.child 0))
      ++ program (block.child 1) rest

end Stripes

/-- Paints a live block in horizontal bands whose boundaries lie `step` rows apart. -/
def stripes (target painted : Raster) (start : Block) (step : Nat) :
    Except SolveError StripeRun := do
  match target.check start.rect with
  | .error e => throw (.offRaster e)
  | .ok () =>
    if step = 0 then
      throw (.settings .zeroStripe)
    match Stripes.plans target painted start.rect (Stripes.boundaries start.rect step) with
    | .error e => throw (.geometry e)
    | .ok plans =>
      let bands := (plans.head?.map Stripes.Plan.bands).getD []
      return {
        instructions := Stripes.program start.id bands
        cost := bands.foldl (fun sum b => sum + b.cost) 0
        similarity := bands.foldl (fun sum b => sum + b.similarity) 0.0 }

end BlockPainting
