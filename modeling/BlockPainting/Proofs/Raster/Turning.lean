import BlockPainting.Proofs.Raster.Regions

/-!
# Turning the rows over

Images list their rows from the top and rasters from the bottom. Each conversion comes to reading
the rows of one array in turn, the last row first, and never reads beyond the end of the array. It
undoes the other one, whatever the size, so every raster is made from exactly one image.
-/

namespace BlockPainting

open Success

namespace Raster

variable {width height x y : Nat} {f : Nat → Nat → Color}

lemma getD_ofFn (hx : x < width) (hy : y < height) (d : Color) :
    (Array.ofFn (n := width * height) fun i => f (i % width) (i / width)).getD
      (y * width + x) d = f x y := by
  have hcolumn : (y * width + x) % width = x := Nat.mul_add_mod_of_lt hx
  have hrow : (y * width + x) / width = y := by
    rw [Nat.mul_comm, Nat.mul_add_div (Nat.zero_lt_of_lt hx), Nat.div_eq_of_lt hx, Nat.add_zero]
  rw [Array.getD_eq_getD_getElem?, Array.getElem?_ofFn, dif_pos (index_lt hx hy),
    Option.getD_some]
  simp only [hcolumn, hrow]

lemma pixel_ofFn (hx : x < width) (hy : y < height) : (ofFn width height f).pixel x y = f x y :=
  getD_ofFn hx hy Color.white

lemma ofFn_pixel (r : Raster) : ofFn r.width r.height r.pixel = r :=
  eq_of_pixel_eq rfl rfl fun _ _ hx hy => pixel_ofFn hx hy

end Raster

namespace Image

variable {width height x y : Nat} {f : Nat → Nat → Color} {img img' : Image}

lemma pixel_ofFn (hx : x < width) (hy : y < height) : (ofFn width height f).pixel x y = f x y :=
  Raster.getD_ofFn hx hy Color.white

lemma eq_of_pixel_eq (width_eq : img.width = img'.width) (height_eq : img.height = img'.height)
    (pixel_eq : ∀ x y, x < img.width → y < img.height → img.pixel x y = img'.pixel x y) :
    img = img' := by
  obtain ⟨width, height, px, size_eq⟩ := img
  obtain ⟨width', height', px', size_eq'⟩ := img'
  simp only at width_eq height_eq
  subst width_eq height_eq
  obtain rfl := Raster.eq_of_getD_eq size_eq size_eq' pixel_eq
  rfl

end Image

namespace Raster

variable {width height x y : Nat} {f : Nat → Nat → Color} {ys : List Nat} {px : Array Color}
variable {img : Image} {r : Raster}

/-- The places of some rows, one row after the other, each from the left. Unlike the cells of a
rectangle there may be none of them. -/
def rows (width : Nat) (ys : List Nat) : List (Nat × Nat) :=
  ys.flatMap fun y => (List.range width).map fun x => (x, y)

/-- Looks at the pixels of some rows, one row after the other, each from the left. -/
def InPlace.readRows (width : Nat) (ys : List Nat) : InPlace (List Color) :=
  (rows width ys).mapM fun p => read (index width p)

lemma mem_rows {p : Nat × Nat} : p ∈ rows width ys ↔ p.1 < width ∧ p.2 ∈ ys := by
  obtain ⟨x, y⟩ := p
  simp only [rows, List.mem_flatMap, List.mem_map, List.mem_range, Prod.mk.injEq]
  constructor
  · rintro ⟨_, hy, _, hx, rfl, rfl⟩
    exact ⟨hx, hy⟩
  · rintro ⟨hx, hy⟩
    exact ⟨y, hy, x, hx, rfl, rfl⟩

lemma rows_map (g : Nat → Nat) :
    rows width (ys.map g) = (rows width ys).map fun p => (p.1, g p.2) := by
  simp [rows, List.flatMap_map, List.map_flatMap, Function.comp_def]

lemma runFrom_readRows (size_eq : px.size = width * height) (inside : ∀ y ∈ ys, y < height) :
    runFrom px (InPlace.readRows width ys) =
      (.ok ((rows width ys).map fun p => px.getD (p.2 * width + p.1) Color.white), px) := by
  refine InPlace.runFrom_mapM_read fun p hp => ?_
  obtain ⟨hx, hy⟩ := mem_rows.mp hp
  exact size_eq ▸ index_lt hx (inside p.2 hy)

lemma toList_ofFn (width height : Nat) (f : Nat → Nat → Color) :
    (Array.ofFn (n := width * height) fun i => f (i % width) (i / width)).toList =
      (rows width (List.range height)).map fun p => f p.1 p.2 := by
  have hrow : ∀ y : Nat, ((List.range width).map fun x => (x, y)).length = width := by
    simp
  have hlength : (rows width (List.range height)).length = width * height :=
    (length_flatMap_rows hrow height).trans (Nat.mul_comm height width)
  have harray : (Array.ofFn (n := width * height) fun i => f (i % width) (i / width)) =
      ((rows width (List.range height)).map fun p => f p.1 p.2).toArray := by
    refine eq_of_getD_eq (d := Color.white) Array.size_ofFn (by simpa using hlength) ?_
    intro x y hx hy
    rw [getD_ofFn hx hy, Array.getD_eq_getD_getElem?, List.getElem?_toArray, List.getElem?_map,
      rows, getElem?_flatMap_rows hrow hx hy]
    simp [hx]
  rw [harray]

/-- Reading from the last row to the first turns the rows over. -/
lemma runFrom_readRows_reverse (size_eq : px.size = width * height) :
    runFrom px (InPlace.readRows width (List.range height).reverse) =
      (.ok (Array.ofFn (n := width * height) fun i =>
        px.getD ((height - 1 - i / width) * width + i % width) Color.white).toList, px) := by
  have hreverse : (List.range height).reverse =
      (List.range height).map fun y => height - 1 - y := by
    rw [List.range_eq_range', List.reverse_range', Nat.zero_add, List.range_eq_range']
  have hturned := toList_ofFn width height fun x y =>
    px.getD ((height - 1 - y) * width + x) Color.white
  rw [runFrom_readRows size_eq fun y hy => List.mem_range.mp (List.mem_reverse.mp hy), hreverse,
    rows_map, List.map_map, hturned]
  rfl

lemma turned_lt (hy : y < height) : height - 1 - y < height := by
  omega

lemma turned_turned (hy : y < height) : height - 1 - (height - 1 - y) = y := by
  omega

lemma pixel_ofImage (hx : x < img.width) (hy : y < img.height) :
    (ofImage img).pixel x y = img.pixel x (img.height - 1 - y) :=
  pixel_ofFn hx hy

lemma pixel_toImage (hx : x < r.width) (hy : y < r.height) :
    r.toImage.pixel x y = r.pixel x (r.height - 1 - y) :=
  Image.pixel_ofFn hx hy

lemma toImage_ofImage (img : Image) : (ofImage img).toImage = img := by
  refine Image.eq_of_pixel_eq rfl rfl ?_
  intro x y hx hy
  calc (ofImage img).toImage.pixel x y
      = (ofImage img).pixel x (img.height - 1 - y) := pixel_toImage hx hy
    _ = img.pixel x (img.height - 1 - (img.height - 1 - y)) := pixel_ofImage hx (turned_lt hy)
    _ = img.pixel x y := congrArg (img.pixel x) (turned_turned hy)

lemma ofImage_toImage (r : Raster) : ofImage r.toImage = r := by
  refine eq_of_pixel_eq rfl rfl ?_
  intro x y hx hy
  calc (ofImage r.toImage).pixel x y
      = r.toImage.pixel x (r.height - 1 - y) := pixel_ofImage hx hy
    _ = r.pixel x (r.height - 1 - (r.height - 1 - y)) := pixel_toImage hx (turned_lt hy)
    _ = r.pixel x y := congrArg (r.pixel x) (turned_turned hy)

lemma readRows_ofImage (img : Image) :
    runFrom img.pixels (InPlace.readRows img.width (List.range img.height).reverse) =
      (.ok (ofImage img).pixels.toList, img.pixels) :=
  runFrom_readRows_reverse img.size_eq

lemma readRows_toImage (r : Raster) :
    runFrom r.pixels (InPlace.readRows r.width (List.range r.height).reverse) =
      (.ok r.toImage.pixels.toList, r.pixels) :=
  runFrom_readRows_reverse r.size_eq

lemma readRows_ofFn (r : Raster) :
    runFrom r.pixels (InPlace.readRows r.width (List.range r.height)) =
      (.ok (ofFn r.width r.height r.pixel).pixels.toList, r.pixels) := by
  have hrows : (ofFn r.width r.height r.pixel).pixels.toList = _ :=
    toList_ofFn r.width r.height r.pixel
  rw [runFrom_readRows r.size_eq fun y => List.mem_range.mp, hrows]
  rfl

/-- A raster made from an image has the rows of the image read from the last one to the first, so
that pixel `(x, y)` is the image's pixel in column `x` of row `y` from the bottom. An image made
from a raster has the raster's rows in the same way. No read is beyond the end of the pixels. The
way back gives the picture that was converted, whatever its width and height, so every raster is
made from exactly one image. A raster given by its own pixels is itself. -/
theorem conversion_bijective (img : Image) (r : Raster) :
    ((ofImage img).width = img.width ∧ (ofImage img).height = img.height ∧
      runFrom img.pixels (InPlace.readRows img.width (List.range img.height).reverse) =
        (.ok (ofImage img).pixels.toList, img.pixels) ∧
      (∀ x y, x < img.width → y < img.height →
        (ofImage img).pixel x y = img.pixel x (img.height - 1 - y)) ∧
      (ofImage img).toImage = img) ∧
    (r.toImage.width = r.width ∧ r.toImage.height = r.height ∧
      runFrom r.pixels (InPlace.readRows r.width (List.range r.height).reverse) =
        (.ok r.toImage.pixels.toList, r.pixels) ∧
      ofImage r.toImage = r) ∧
    (runFrom r.pixels (InPlace.readRows r.width (List.range r.height)) =
        (.ok (ofFn r.width r.height r.pixel).pixels.toList, r.pixels) ∧
      ofFn r.width r.height r.pixel = r) ∧
    Function.Bijective ofImage := by
  refine ⟨⟨rfl, rfl, readRows_ofImage img, ?_, toImage_ofImage img⟩,
    ⟨rfl, rfl, readRows_toImage r, ofImage_toImage r⟩, ⟨readRows_ofFn r, ofFn_pixel r⟩, ?_⟩
  · intro x y hx hy
    exact pixel_ofImage hx hy
  · exact Function.bijective_iff_has_inverse.mpr ⟨toImage, toImage_ofImage, ofImage_toImage⟩

def sixColors : Image :=
  .ofFn 2 3 fun x y => ⟨x.toUInt8, y.toUInt8, 0, 255⟩

theorem conversion_bijective_of_sixColors :
    1 < sixColors.width ∧ 0 < sixColors.height ∧
    (ofImage sixColors).pixel 1 0 = ⟨1, 2, 0, 255⟩ ∧
    (ofImage sixColors).pixels ≠ sixColors.pixels ∧
    (ofImage sixColors).toImage = sixColors := by
  obtain ⟨⟨_, _, _, hpixel, hback⟩, _⟩ := conversion_bijective sixColors (ofImage sixColors)
  have hcolumn : 1 < sixColors.width := by decide
  have hrow : 0 < sixColors.height := by decide
  refine ⟨hcolumn, hrow, ?_, by decide, hback⟩
  rw [hpixel 1 0 hcolumn hrow]
  decide

end Raster

end BlockPainting
