import BlockPainting.GeometricMedian
import BlockPainting.Raster
import Std.Data.HashMap

/-!
# Color estimates

Which color a region gets is answered by the exact median of its pixels or, for large regions, from
a quadtree. Every node of a quadtree holds the median color of its own region. The color of any
rectangle is estimated from the nodes that cover it, each weighted by how much of it lies inside,
without another look at the pixels. A cache remembers the answer for every rectangle.
-/

namespace BlockPainting

/-- The median color of a region, or its mean where there is no median. -/
def Raster.medianColor (r : Raster) (rect : Rect) (epsilon : Float) : Color :=
  (BlockPainting.medianColor (r.histogram rect) epsilon).getD (.nearest (r.mean rect))

/-- A region with its color, and its quarters unless it is a leaf. -/
inductive Quadtree where
  | leaf (depth : Nat) (rect : Rect) (color : Color)
  | node (depth : Nat) (rect : Rect) (color : Color)
      (bottomLeft bottomRight topRight topLeft : Quadtree)

namespace Quadtree

def depth : Quadtree → Nat
  | leaf depth .. => depth
  | node depth .. => depth

def rect : Quadtree → Rect
  | leaf _ rect _ => rect
  | node _ rect .. => rect

def color : Quadtree → Color
  | leaf _ _ color => color
  | node _ _ color .. => color

/-- The quarters in the order of point cuts; a leaf has none. -/
def children : Quadtree → List Quadtree
  | leaf .. => []
  | node _ _ _ bottomLeft bottomRight topRight topLeft =>
    [bottomLeft, bottomRight, topRight, topLeft]

/-- The tree over a region with at most so many levels below it. Regions are halved, the left and
the bottom half getting the odd pixel. -/
def grow (r : Raster) (epsilon : Float) (depth : Nat) : Nat → Rect → Quadtree
  | 0, rect => .leaf depth rect (r.medianColor rect epsilon)
  | below + 1, rect =>
    let color := r.medianColor rect epsilon
    if 2 ≤ rect.width ∧ 2 ≤ rect.height then
      match rect.cutPoint (rect.x + (rect.width + 1) / 2) (rect.y + (rect.height + 1) / 2) with
      | .error _ => .leaf depth rect color
      | .ok q =>
        .node depth rect color
          (grow r epsilon (depth + 1) below q.bottomLeft)
          (grow r epsilon (depth + 1) below q.bottomRight)
          (grow r epsilon (depth + 1) below q.topRight)
          (grow r epsilon (depth + 1) below q.topLeft)
    else .leaf depth rect color

/-- The tree over a whole raster. There is at least one level, the root. -/
def build (r : Raster) (levels : Nat) (epsilon : Float) : Except GeometryError Quadtree := do
  let bounds ← r.bounds
  return grow r epsilon 0 (max levels 1 - 1) bounds

/-- The nodes that cover a query: on the way down the walk stops at nodes inside the query, at
leaves and at depth `zoom`. -/
def cover (query : Rect) (zoom : Nat) : Quadtree → List Quadtree
  | t@(leaf _ rect _) => if rect.overlaps query then [t] else []
  | t@(node depth rect _ bottomLeft bottomRight topRight topLeft) =>
    if rect.overlaps query then
      if query.contains rect ∨ zoom ≤ depth then [t]
      else
        cover query zoom bottomLeft ++ cover query zoom bottomRight ++ cover query zoom topRight
          ++ cover query zoom topLeft
    else []

/-- A node's color weighted by the part of the node that lies inside the query. -/
def sample (query : Rect) (t : Quadtree) : Option Sample :=
  (t.rect.intersection query).map fun common => ⟨t.color.toPoint, countToFloat common.area⟩

/-- The color of a query as the nodes of a tree with so many levels tell it. -/
def estimate (t : Quadtree) (levels : Nat) (epsilon : Float) (query : Rect) : Option Color :=
  (geometricMedian ((t.cover query (max levels 1 - 1)).filterMap (sample query)) epsilon).map
    Color.nearest

end Quadtree

/-- A way to choose the color of a region. -/
inductive Estimator where
  | exact (epsilon : Float)
  /-- The quadtree from `minArea` pixels on, the exact median below. -/
  | quadtree (tree : Quadtree) (levels : Nat) (epsilon : Float) (minArea : Nat)

def Estimator.estimate (e : Estimator) (r : Raster) (rect : Rect) : Color :=
  match e with
  | exact epsilon => r.medianColor rect epsilon
  | quadtree tree levels epsilon minArea =>
    if rect.area < minArea then r.medianColor rect epsilon
    else (tree.estimate levels epsilon rect).getD (r.medianColor rect epsilon)

/-- The estimates made so far. -/
structure ColorCache where
  colors : Std.HashMap Rect Color
  hits : Nat

namespace ColorCache

def empty : ColorCache := ⟨∅, 0⟩

/-- The color of a rectangle, estimated if it is asked for the first time. -/
def color (cache : ColorCache) (estimate : Rect → Color) (rect : Rect) : Color × ColorCache :=
  match cache.colors[rect]? with
  | some c => (c, { cache with hits := cache.hits + 1 })
  | none =>
    let c := estimate rect
    (c, { cache with colors := cache.colors.insert rect c })

def computed (cache : ColorCache) : Nat := cache.colors.size

end ColorCache

end BlockPainting
