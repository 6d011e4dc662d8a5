import BlockPainting.Color

/-!
# Geometric medians of colors

The geometric median is the point with the least weighted sum of distances to the samples. It is
approached by Weiszfeld's iteration in the form of Vardi and Zhang, which stays defined where the
estimate meets a sample. Floating-point sums depend on their order, so the order of the samples is
part of the input.
-/

namespace BlockPainting

structure Sample where
  point : ColorPoint
  weight : Float

def ColorPoint.distance (p q : ColorPoint) : Float :=
  let dr := p.red - q.red
  let dg := p.green - q.green
  let db := p.blue - q.blue
  let da := p.alpha - q.alpha
  (dr * dr + dg * dg + db * db + da * da).sqrt

namespace GeometricMedian

def maxSteps : Nat := 1000

def totalWeight (samples : List Sample) : Float :=
  samples.foldl (fun total s => total + s.weight) (-0.0)

/-- The weighted sum of the samples, one coordinate at a time. -/
def weightedSum (coordinate : ColorPoint → Float) (samples : List Sample) : Float :=
  samples.foldl (fun sum s => sum + coordinate s.point * s.weight) 0.0

/-- The weighted mean, if there is any weight. -/
def mean (samples : List Sample) : Option ColorPoint :=
  let total := totalWeight samples
  if total ≤ 0.0 then none
  else
    some {
      red := weightedSum ColorPoint.red samples / total
      green := weightedSum ColorPoint.green samples / total
      blue := weightedSum ColorPoint.blue samples / total
      alpha := weightedSum ColorPoint.alpha samples / total }

/-- How the samples draw an estimate. -/
structure Pull where
  /-- The weight of the samples at the estimate itself. -/
  coincident : Float
  /-- The sum of weight over distance of all other samples. -/
  inverseSum : Float
  /-- The sum of these samples, each by its weight over its distance. -/
  toward : ColorPoint

/-- Adds up the pull of the samples on the estimate `y`. -/
def pull (y : ColorPoint) (coincident inverseSum red green blue alpha : Float) :
    List Sample → Pull
  | [] => ⟨coincident, inverseSum, ⟨red, green, blue, alpha⟩⟩
  | s :: rest =>
    let d := s.point.distance y
    if d == 0.0 then
      pull y (coincident + s.weight) inverseSum red green blue alpha rest
    else
      let w := s.weight / d
      pull y coincident (inverseSum + w) (red + s.point.red * w) (green + s.point.green * w)
        (blue + s.point.blue * w) (alpha + s.point.alpha * w) rest

/-- The next estimate after `y`, unless every sample lies on `y`. -/
def next (samples : List Sample) (y : ColorPoint) : Option ColorPoint :=
  let p := pull y 0.0 0.0 0.0 0.0 0.0 0.0 samples
  if p.inverseSum == 0.0 then none
  else
    let s := p.inverseSum
    let t : ColorPoint :=
      ⟨p.toward.red / s, p.toward.green / s, p.toward.blue / s, p.toward.alpha / s⟩
    if p.coincident == 0.0 then some t
    else
      let r := (t.red - y.red) * s
      let g := (t.green - y.green) * s
      let b := (t.blue - y.blue) * s
      let a := (t.alpha - y.alpha) * s
      let norm := (r * r + g * g + b * b + a * a).sqrt
      let inv := if norm == 0.0 then 0.0 else p.coincident / norm
      let keep := if 1.0 - inv > 0.0 then 1.0 - inv else 0.0
      let stay := if inv < 1.0 then inv else 1.0
      some {
        red := keep * t.red + stay * y.red
        green := keep * t.green + stay * y.green
        blue := keep * t.blue + stay * y.blue
        alpha := keep * t.alpha + stay * y.alpha }

/-- Moves the estimate until it moves by less than `epsilon`. -/
def iterate (samples : List Sample) (epsilon : Float) : Nat → ColorPoint → ColorPoint
  | 0, y => y
  | n + 1, y =>
    match next samples y with
    | none => y
    | some z => if y.distance z < epsilon then z else iterate samples epsilon n z

end GeometricMedian

/-- The geometric median of the samples with positive weight, if there are any. -/
def geometricMedian (samples : List Sample) (epsilon : Float) : Option ColorPoint :=
  let weighty := samples.filter fun s => s.weight > 0.0
  match GeometricMedian.mean weighty with
  | none => none
  | some y =>
    if weighty.length = 1 then some y
    else some (GeometricMedian.iterate weighty epsilon GeometricMedian.maxSteps y)

/-- The color nearest to the geometric median of a histogram, each color weighted by its count. -/
def medianColor (histogram : List (Color × Nat)) (epsilon : Float) : Option Color :=
  (geometricMedian (histogram.map fun (c, n) => ⟨c.toPoint, countToFloat n⟩) epsilon).map
    Color.nearest

end BlockPainting
