import BlockPainting.Number.ExactDouble

/-!
# Colors

An RGBA color has one byte per channel. Distances are Euclidean in the four-dimensional color
space; between two colors the sum under the root is an integer.

The similarity of two pictures is the penalty for what a painting leaves wrong: the distances of all
pixels, summed in order and scaled to the axis of operation costs. Sums start at `-0.0`, the neutral
element of addition on doubles, so that an empty sum is `-0.0`.
-/

namespace BlockPainting

structure ColorPoint where
  red : Float
  green : Float
  blue : Float
  alpha : Float

/-- An RGBA paint color, one byte per channel. -/
structure Color where
  red : UInt8
  green : UInt8
  blue : UInt8
  alpha : UInt8
  deriving DecidableEq, Hashable, Inhabited

namespace Color

/-- Opaque white, the paint of a fresh raster. -/
def white : Color := ⟨255, 255, 255, 255⟩

def black : Color := ⟨0, 0, 0, 255⟩

/-- The channels as one number, red first. -/
def code (c : Color) : Nat :=
  ((c.red.toNat * 256 + c.green.toNat) * 256 + c.blue.toNat) * 256 + c.alpha.toNat

/-- Colors are ordered by red, then green, then blue, then alpha. -/
instance : Ord Color := ⟨fun a b => compare a.code b.code⟩

/-- The color as a point of the color space. -/
def toPoint (c : Color) : ColorPoint :=
  ⟨c.red.toFloat, c.green.toFloat, c.blue.toFloat, c.alpha.toFloat⟩

/-- The byte nearest to a coordinate, clamped to `0..255`. -/
def nearestChannel (v : Float) : UInt8 :=
  (roundClamped 255 v).toUInt8

/-- The color nearest to a point, channel by channel. -/
def nearest (p : ColorPoint) : Color :=
  ⟨nearestChannel p.red, nearestChannel p.green, nearestChannel p.blue, nearestChannel p.alpha⟩

/-- Euclidean distance to a point of the color space. -/
def distanceTo (c : Color) (p : ColorPoint) : Float :=
  let dr := c.red.toFloat - p.red
  let dg := c.green.toFloat - p.green
  let db := c.blue.toFloat - p.blue
  let da := c.alpha.toFloat - p.alpha
  (dr * dr + dg * dg + db * db + da * da).sqrt

/-- The squared difference of two channel values. -/
@[inline] def channelGap (a b : UInt8) : UInt32 :=
  let d := (if a < b then b - a else a - b).toUInt32
  d * d

/-- Euclidean distance between two colors. The sum of squares is at most `4 * 255 ^ 2`, so it is
exact and only the root rounds. -/
def distance (a b : Color) : Float :=
  (channelGap a.red b.red + channelGap a.green b.green + channelGap a.blue b.blue
    + channelGap a.alpha b.alpha).toFloat.sqrt

/-- Every channel lowered to a multiple of `bucket`; a zero bucket counts as one. Colors with one
bucketed value are interchangeable when swap partners are sought. -/
def bucketed (c : Color) (bucket : UInt8) : Color :=
  let b := max bucket 1
  ⟨c.red / b * b, c.green / b * b, c.blue / b * b, c.alpha / b * b⟩

/-- The color as `[r, g, b, a]`. -/
def text (c : Color) : String :=
  s!"[{c.red}, {c.green}, {c.blue}, {c.alpha}]"

end Color

namespace Similarity

/-- Puts summed distances on one axis with operation costs. -/
def scale : Float := 0.005

/-- What a sum of distances starts with. -/
def emptySum : Float := -0.0

/-- The penalty of painting every listed pixel with one color. -/
def toColor (pixels : List Color) (c : Color) : Float :=
  pixels.foldl (fun sum p => sum + p.distance c) emptySum * scale

/-- The penalty between two lists of pixels, compared as far as both reach. -/
def pairwise (ps qs : List Color) : Float :=
  (ps.zip qs).foldl (fun sum pq => sum + pq.1.distance pq.2) emptySum * scale

end Similarity

/-- What a cost and a similarity together are worth when programs are compared. -/
def exactScore (cost : Nat) (similarity : Float) : Float :=
  countToFloat cost + similarity

end BlockPainting
