import BlockPainting.Color
import BlockPainting.Pricing
import BlockPainting.Rect
import Std.Data.TreeMap

/-!
# Rasters

A raster is read at `(x, y)` from the bottom-left corner. Images list their rows from the top, so
the rows are turned over once on the way in and once on the way out. Regions are visited in the
order of `Rect.foldCells`.
-/

namespace BlockPainting

/-- A picture as image formats list it: the top row first. -/
structure Image where
  width : Nat
  height : Nat
  pixels : Array Color
  size_eq : pixels.size = width * height

/-- A picture with the origin at the bottom-left corner: the bottom row first. -/
structure Raster where
  width : Nat
  height : Nat
  pixels : Array Color
  size_eq : pixels.size = width * height

structure OffRaster where
  rect : Rect
  width : Nat
  height : Nat

/-- The message for a rectangle that leaves the raster. -/
def OffRaster.message (e : OffRaster) : String :=
  s!"{e.rect.text} lies outside the {e.width}x{e.height} canvas"

namespace Image

/-- The pixel in column `x` of row `y`, counted from the top. -/
def pixel (img : Image) (x y : Nat) : Color :=
  img.pixels.getD (y * img.width + x) Color.white

/-- The image with a given pixel in every place. -/
def ofFn (width height : Nat) (f : Nat → Nat → Color) : Image where
  width := width
  height := height
  pixels := Array.ofFn (n := width * height) fun i => f (i % width) (i / width)
  size_eq := by simp

end Image

namespace Raster

/-- The pixel at `(x, y)`, which must lie on the raster. -/
@[inline] def pixel (r : Raster) (x y : Nat) : Color :=
  r.pixels.getD (y * r.width + x) Color.white

/-- The raster with a given pixel in every place. -/
def ofFn (width height : Nat) (f : Nat → Nat → Color) : Raster where
  width := width
  height := height
  pixels := Array.ofFn (n := width * height) fun i => f (i % width) (i / width)
  size_eq := by simp

def filled (width height : Nat) (c : Color) : Raster where
  width := width
  height := height
  pixels := Array.replicate (width * height) c
  size_eq := by simp

def ofImage (img : Image) : Raster :=
  ofFn img.width img.height fun x y => img.pixel x (img.height - 1 - y)

def toImage (r : Raster) : Image :=
  Image.ofFn r.width r.height fun x y => r.pixel x (r.height - 1 - y)

/-- The rectangle of all pixels; there is none on an empty raster. -/
def bounds (r : Raster) : Except GeometryError Rect :=
  Rect.ofSize 0 0 r.width r.height

def pricing (r : Raster) : Pricing :=
  .contest r.width r.height

def check (r : Raster) (rect : Rect) : Except OffRaster Unit :=
  if rect.right ≤ r.width ∧ rect.top ≤ r.height then .ok ()
  else .error ⟨rect, r.width, r.height⟩

def region (r : Raster) (rect : Rect) : List Color :=
  rect.cells.map fun p => r.pixel p.1 p.2

/-- The penalty of painting a region with one color. -/
def similarity (r : Raster) (rect : Rect) (c : Color) : Float :=
  rect.foldCells (fun sum x y => sum + (r.pixel x y).distance c) Similarity.emptySum
    * Similarity.scale

/-- The penalty between one region of two rasters of equal size. -/
def similarityTo (r other : Raster) (rect : Rect) : Float :=
  rect.foldCells (fun sum x y => sum + (r.pixel x y).distance (other.pixel x y))
    Similarity.emptySum * Similarity.scale

def counts (r : Raster) (rect : Rect) : Std.TreeMap Color Nat :=
  rect.foldCells (fun m x y => m.alter (r.pixel x y) fun n => some (n.getD 0 + 1)) ∅

/-- The colors of a region in order, each with its number of pixels. -/
def histogram (r : Raster) (rect : Rect) : List (Color × Nat) :=
  (r.counts rect).toList

@[specialize] def channelSum (r : Raster) (rect : Rect) (channel : Color → UInt8) : Nat :=
  rect.foldCells (fun sum x y => sum + (channel (r.pixel x y)).toNat) 0

/-- The mean of a region, channel by channel. -/
def mean (r : Raster) (rect : Rect) : ColorPoint :=
  let n := countToFloat rect.area
  { red := countToFloat (r.channelSum rect Color.red) / n
    green := countToFloat (r.channelSum rect Color.green) / n
    blue := countToFloat (r.channelSum rect Color.blue) / n
    alpha := countToFloat (r.channelSum rect Color.alpha) / n }

def fill : Raster → Rect → Color → Raster
  | ⟨width, height, pixels, size_eq⟩, rect, c =>
    { width := width
      height := height
      pixels := rect.foldCells (fun px x y => px.setIfInBounds (y * width + x) c) pixels
      size_eq := rect.foldCells_induction (fun px : Array Color => px.size = width * height) _ _
        size_eq (fun _ _ _ h => by simpa using h) }

/-- Exchanges the pixels of two regions of the size of `a`, one pair after the other in the order of
the first region. -/
def exchange : Raster → Rect → Rect → Raster
  | ⟨width, height, pixels, size_eq⟩, a, b =>
    { width := width
      height := height
      pixels := a.foldCells (fun px x y =>
        px.swapIfInBounds (y * width + x) ((y - a.y + b.y) * width + (x - a.x + b.x))) pixels
      size_eq := a.foldCells_induction (fun px : Array Color => px.size = width * height) _ _
        size_eq (fun _ _ _ h => by simpa using h) }

/-- Exchanges two regions, which must have the same size. -/
def swapRegions (r : Raster) (a b : Rect) : Except GeometryError Raster :=
  if a.sameSize b then .ok (r.exchange a b) else .error (.sizeMismatch a b)

end Raster

end BlockPainting
