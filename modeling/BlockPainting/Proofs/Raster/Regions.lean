import BlockPainting.Proofs.Raster.Strokes
import BlockPainting.Proofs.Success

/-!
# Operations on regions

Here the operations on regions work on the array of pixels itself, one place after the other, and
stop where an index is beyond its end. On rectangles that lie on the raster they never do, and they
come to what is read, painted or exchanged through single pixels. An exchange of two rectangles that
overlap still only moves pixels about.
-/

namespace BlockPainting.Raster

open Success

inductive Stop where
  | outOfRange (index : Nat)
  | refused (cause : GeometryError)

/-- Work on the pixels, row after row in one array. What is done before it stops stays done. -/
abbrev InPlace (α : Type) := ExceptT Stop (StateM (Array Color)) α

namespace InPlace

/-- The index of a place on a raster of some width. -/
def index (width : Nat) (p : Nat × Nat) : Nat :=
  p.2 * width + p.1

def read (k : Nat) : InPlace Color :=
  ExceptT.mk fun px =>
    (match px[k]? with
      | some c => .ok c
      | none => .error (.outOfRange k), px)

def write (k : Nat) (c : Color) : InPlace Unit :=
  ExceptT.mk fun px =>
    if h : k < px.size then (.ok (), px.set k c h) else (.error (.outOfRange k), px)

def swap (k l : Nat) : InPlace Unit :=
  ExceptT.mk fun px =>
    if h : k < px.size ∧ l < px.size then (.ok (), px.swap k l h.1 h.2)
    else (.error (.outOfRange (max k l)), px)

def region (width : Nat) (rect : Rect) : InPlace (List Color) :=
  rect.cells.mapM fun p => read (index width p)

def fill (width : Nat) (rect : Rect) (c : Color) : InPlace Unit :=
  rect.cells.forM fun p => write (index width p) c

def exchange (width : Nat) (a b : Rect) : InPlace Unit :=
  if a.sameSize b then
    a.cells.forM fun p => swap (index width p) (index width (moved a b p))
  else throw (.refused (.sizeMismatch a b))

variable {px : Array Color} {cells : List (Nat × Nat)} {r : Raster} {a b : Rect} {k l : Nat}

lemma runFrom_read (inside : k < px.size) : runFrom px (read k) = (.ok px[k], px) := by
  change ((match px[k]? with
    | some c => .ok c
    | none => .error (.outOfRange k), px) : Except Stop Color × Array Color) = _
  rw [Array.getElem?_eq_getElem inside]

lemma runFrom_write (inside : k < px.size) (c : Color) :
    runFrom px (write k c) = (.ok (), px.setIfInBounds k c) := by
  rw [Array.setIfInBounds, dif_pos inside]
  exact dif_pos inside

lemma runFrom_swap (inside : k < px.size) (inside' : l < px.size) :
    runFrom px (swap k l) = (.ok (), px.swapIfInBounds k l) := by
  rw [Array.swapIfInBounds, dif_pos inside, dif_pos inside']
  exact dif_pos ⟨inside, inside'⟩

lemma runFrom_mapM_read {index : Nat × Nat → Nat} (inside : ∀ p ∈ cells, index p < px.size) :
    runFrom px (cells.mapM fun p => read (index p)) =
      (.ok (cells.map fun p => px.getD (index p) Color.white), px) := by
  induction cells with
  | nil => rfl
  | cons p rest ih =>
    obtain ⟨hp, hrest⟩ := List.forall_mem_cons.mp inside
    rw [List.mapM_cons, runFrom_bind_of_ok (runFrom_read hp), runFrom_bind_of_ok (ih hrest),
      runFrom_pure, List.map_cons, Array.getD_eq_getD_getElem?, Array.getElem?_eq_getElem hp,
      Option.getD_some]

/-- Steps that keep the number of pixels and succeed on each place succeed on all of them. -/
lemma runFrom_forM {step : Nat × Nat → InPlace Unit} {f : Array Color → Nat × Nat → Array Color}
    (size_eq : ∀ px p, (f px p).size = px.size)
    (steps : ∀ px' : Array Color, px'.size = px.size → ∀ p ∈ cells,
      runFrom px' (step p) = (.ok (), f px' p)) :
    runFrom px (cells.forM step) = (.ok (), cells.foldl f px) := by
  induction cells generalizing px with
  | nil => rfl
  | cons p rest ih =>
    change runFrom px (step p >>= fun _ => rest.forM step) = _
    rw [runFrom_bind_of_ok (steps px rfl p List.mem_cons_self), List.foldl_cons]
    refine ih fun px' hpx q hq => ?_
    exact steps px' (hpx.trans (size_eq px p)) q (List.mem_cons_of_mem p hq)

lemma index_lt_size (within : a.Within r.width r.height) {p : Nat × Nat} (hp : p ∈ a) :
    index r.width p < r.pixels.size := by
  obtain ⟨hx, hy⟩ := within.lt hp
  exact r.size_eq ▸ index_lt hx hy

lemma index_eq_iff {width : Nat} {p q : Nat × Nat} (hp : p.1 < width) (hq : q.1 < width) :
    index width p = index width q ↔ p = q := by
  constructor
  · intro h
    obtain ⟨h1, h2⟩ := index_inj hp hq h
    exact Prod.ext h1 h2
  · rintro rfl
    rfl

lemma pixels_fill (r : Raster) (a : Rect) (c : Color) : (r.fill a c).pixels =
    a.cells.foldl (fun px p => px.setIfInBounds (index r.width p) c) r.pixels := by
  obtain ⟨width, height, px, size_eq⟩ := r
  exact Rect.foldCells_eq_foldl a (fun px x y => px.setIfInBounds (y * width + x) c) px

lemma pixels_exchange (r : Raster) (a b : Rect) : (r.exchange a b).pixels =
    a.cells.foldl (fun px p =>
      px.swapIfInBounds (index r.width p) (index r.width (moved a b p))) r.pixels := by
  obtain ⟨width, height, px, size_eq⟩ := r
  exact Rect.foldCells_eq_foldl a (fun px x y => px.swapIfInBounds (y * width + x)
    ((y - a.y + b.y) * width + (x - a.x + b.x))) px

lemma runFrom_region (within : a.Within r.width r.height) :
    runFrom r.pixels (region r.width a) = (.ok (r.region a), r.pixels) :=
  runFrom_mapM_read fun _ hp => index_lt_size within (Rect.mem_cells.mp hp)

lemma runFrom_fill (within : a.Within r.width r.height) (c : Color) :
    runFrom r.pixels (fill r.width a c) = (.ok (), (r.fill a c).pixels) := by
  rw [pixels_fill]
  refine runFrom_forM (fun px p => Array.size_setIfInBounds) ?_
  intro px hpx p hp
  exact runFrom_write (hpx ▸ index_lt_size within (Rect.mem_cells.mp hp)) c

lemma runFrom_exchange (within : a.Within r.width r.height) (within' : b.Within r.width r.height)
    (same : a.sameSize b) :
    runFrom r.pixels (exchange r.width a b) = (.ok (), (r.exchange a b).pixels) := by
  rw [exchange, if_pos same, pixels_exchange]
  refine runFrom_forM (fun px p => Array.size_swapIfInBounds) ?_
  intro px hpx p hp
  have hp := Rect.mem_cells.mp hp
  exact runFrom_swap (hpx ▸ index_lt_size within hp)
    (hpx ▸ index_lt_size within' (moved_mem same hp))

end InPlace

section Origin

variable {r r' : Raster} {a b : Rect} {px : Array Color} {width height : Nat}
variable {cells : List (Nat × Nat)} {f g : Nat × Nat → Nat × Nat} {q : Nat × Nat}

/-- The place a pixel comes from when places are exchanged one pair after the other. -/
def transposed (cells : List (Nat × Nat)) (f g : Nat × Nat → Nat × Nat) :
    Equiv.Perm (Nat × Nat) :=
  (cells.map fun p => Equiv.swap (f p) (g p)).prod

lemma transposed_cons (p : Nat × Nat) (rest : List (Nat × Nat)) :
    transposed (p :: rest) f g q = Equiv.swap (f p) (g p) (transposed rest f g q) := by
  rw [transposed, List.map_cons, List.prod_cons, Equiv.Perm.mul_apply, transposed]

lemma transposed_of {P : Nat × Nat → Prop} (exchanged : ∀ p ∈ cells, P (f p) ∧ P (g p))
    (own : P q) : P (transposed cells f g q) := by
  induction cells with
  | nil => exact own
  | cons p rest ih =>
    obtain ⟨hp, hrest⟩ := List.forall_mem_cons.mp exchanged
    rw [transposed_cons, Equiv.swap_apply_def]
    split
    · exact hp.2
    · split
      · exact hp.1
      · exact ih hrest

lemma transposed_of_ne (out : ∀ p ∈ cells, q ≠ f p ∧ q ≠ g p) : transposed cells f g q = q := by
  induction cells with
  | nil => rfl
  | cons p rest ih =>
    obtain ⟨hp, hrest⟩ := List.forall_mem_cons.mp out
    rw [transposed_cons, ih hrest, Equiv.swap_apply_of_ne_of_ne hp.1 hp.2]

/-- Exchanging pixels pair by pair brings to every place the pixel of the place it comes from. -/
lemma getD_foldl_transposed
    (exchanged : ∀ p ∈ cells, ((f p).1 < width ∧ (f p).2 < height) ∧
      (g p).1 < width ∧ (g p).2 < height)
    (size_eq : px.size = width * height) (hq : q.1 < width ∧ q.2 < height) (d : Color) :
    (cells.foldl (fun px p => px.swapIfInBounds (InPlace.index width (f p))
      (InPlace.index width (g p))) px).getD (InPlace.index width q) d =
      px.getD (InPlace.index width (transposed cells f g q)) d := by
  induction cells generalizing px with
  | nil => rfl
  | cons p rest ih =>
    obtain ⟨hp, hrest⟩ := List.forall_mem_cons.mp exchanged
    have hfrom : (transposed rest f g q).1 < width :=
      transposed_of (P := fun p => p.1 < width) (fun p hp => ⟨(hrest p hp).1.1, (hrest p hp).2.1⟩)
        hq.1
    have hinside : InPlace.index width (f p) < px.size := size_eq ▸ index_lt hp.1.1 hp.1.2
    have hinside' : InPlace.index width (g p) < px.size := size_eq ▸ index_lt hp.2.1 hp.2.2
    rw [List.foldl_cons, ih hrest (by simpa using size_eq), getD_swapIfInBounds hinside hinside',
      transposed_cons, Equiv.swap_apply_def]
    simp only [InPlace.index_eq_iff hfrom hp.1.1, InPlace.index_eq_iff hfrom hp.2.1]
    split
    · rfl
    · split <;> rfl

/-- The place a pixel comes from when two rectangles are exchanged. -/
def origin (a b : Rect) : Equiv.Perm (Nat × Nat) :=
  transposed a.cells id (moved a b)

lemma origin_of_not_mem (same : a.sameSize b) (ha : q ∉ a) (hb : q ∉ b) : origin a b q = q := by
  refine transposed_of_ne fun p hp => ⟨?_, ?_⟩
  · rintro rfl
    exact ha (Rect.mem_cells.mp hp)
  · rintro rfl
    exact hb (moved_mem same (Rect.mem_cells.mp hp))

lemma pixel_exchange_eq (same : a.sameSize b) (ha : a.Within r.width r.height)
    (hb : b.Within r.width r.height) (hq : q.1 < r.width ∧ q.2 < r.height) :
    (r.exchange a b).pixel q.1 q.2 = r.pixel (origin a b q).1 (origin a b q).2 := by
  have hwidth : (r.exchange a b).width = r.width := rfl
  rw [pixel, pixel, InPlace.pixels_exchange, hwidth]
  refine getD_foldl_transposed (fun p hp => ?_) r.size_eq hq Color.white
  have hp := Rect.mem_cells.mp hp
  exact ⟨ha.lt hp, hb.lt (moved_mem same hp)⟩

lemma perm_pixels_exchange (r : Raster) (a b : Rect) : (r.exchange a b).pixels.Perm r.pixels := by
  rw [InPlace.pixels_exchange]
  generalize r.pixels = px
  induction a.cells generalizing px with
  | nil => exact .refl px
  | cons p rest ih =>
    rw [List.foldl_cons]
    refine (ih _).trans ?_
    rw [Array.swapIfInBounds_def]
    split
    · split
      · exact Array.swap_perm _ _
      · exact .refl px
    · exact .refl px

end Origin

section Disjoint

variable {r r' : Raster} {a b : Rect}

lemma exchange_comm (same : a.sameSize b) (apart : a.Apart b) (ha : a.Within r.width r.height)
    (hb : b.Within r.width r.height) : r.exchange a b = r.exchange b a := by
  have same' : b.sameSize a := Rect.sameSize_comm.symm.trans same
  obtain ⟨inside, outside⟩ := pixel_exchange same apart ha hb
  obtain ⟨inside', outside'⟩ := pixel_exchange same' (Std.Symm.symm _ _ apart) hb ha
  refine eq_of_pixel_eq rfl rfl ?_
  intro x y hx hy
  by_cases hxa : (x, y) ∈ a
  · have hback := (inside' _ (moved_mem same hxa)).2
    rw [moved_moved hxa] at hback
    exact (inside _ hxa).1.trans hback.symm
  · by_cases hxb : (x, y) ∈ b
    · have hback := (inside _ (moved_mem same' hxb)).2
      rw [moved_moved hxb] at hback
      exact hback.trans (inside' _ hxb).1.symm
    · exact (outside x y hx hy hxa hxb).trans (outside' x y hx hy hxb hxa).symm

lemma exchange_exchange (same : a.sameSize b) (apart : a.Apart b)
    (ha : a.Within r.width r.height) (hb : b.Within r.width r.height) :
    (r.exchange a b).exchange a b = r := by
  have same' : b.sameSize a := Rect.sameSize_comm.symm.trans same
  obtain ⟨inside, outside⟩ := pixel_exchange same apart ha hb
  obtain ⟨inside', outside'⟩ := @pixel_exchange a b (r.exchange a b) same apart ha hb
  refine eq_of_pixel_eq rfl rfl ?_
  intro x y hx hy
  by_cases hxa : (x, y) ∈ a
  · exact (inside' _ hxa).1.trans (inside _ hxa).2
  · by_cases hxb : (x, y) ∈ b
    · have hback := inside _ (moved_mem same' hxb)
      have hback' := inside' _ (moved_mem same' hxb)
      rw [moved_moved hxb] at hback hback'
      exact hback'.2.trans hback.1
    · exact (outside' x y hx hy hxa hxb).trans (outside x y hx hy hxa hxb)

end Disjoint

section Reading

variable {α : Type} {n width i j : Nat} {row : Nat → List α}

lemma length_flatMap_rows (width_eq : ∀ j, (row j).length = width) (n : Nat) :
    ((List.range n).flatMap row).length = n * width := by
  simp [List.length_flatMap, width_eq]

lemma getElem?_flatMap_rows (width_eq : ∀ j, (row j).length = width) (hi : i < width)
    (hj : j < n) : ((List.range n).flatMap row)[j * width + i]? = (row j)[i]? := by
  induction n with
  | zero => exact absurd hj (Nat.not_lt_zero j)
  | succ n ih =>
    rw [List.range_succ, List.flatMap_append, List.flatMap_singleton]
    have hlength := length_flatMap_rows width_eq n
    rcases Nat.lt_succ_iff_lt_or_eq.mp hj with hlt | rfl
    · have hbefore : j * width + i < n * width := by
        rw [Nat.mul_comm n]
        exact index_lt hi hlt
      rw [List.getElem?_append_left (hlength ▸ hbefore), ih hlt]
    · rw [List.getElem?_append_right (by omega), hlength, Nat.add_sub_cancel_left]

variable {r : Raster} {a : Rect}

lemma length_region (r : Raster) (a : Rect) : (r.region a).length = a.area := by
  have hrow : ∀ j, ((List.range a.width).map fun i => (a.x + i, a.y + j)).length = a.width := by
    simp
  rw [region, List.length_map, Rect.cells, length_flatMap_rows hrow, Rect.area, Nat.mul_comm]

lemma getElem?_region (hi : i < a.width) (hj : j < a.height) :
    (r.region a)[j * a.width + i]? = some (r.pixel (a.x + i) (a.y + j)) := by
  rw [region, List.getElem?_map, Rect.cells, getElem?_flatMap_rows (by simp) hi hj]
  simp [hi]

end Reading

section Operations

variable {r r' : Raster} {a b : Rect}

/-- What an exchange of two rectangles of one size comes to, even where they overlap: pixels of the
two rectangles change places, and all others stay. -/
structure Exchanged (r r' : Raster) (a b : Rect) : Prop where
  width_eq : r'.width = r.width
  height_eq : r'.height = r.height
  perm : r'.pixels.Perm r.pixels
  pixel_eq : ∀ p : Nat × Nat, p.1 < r.width → p.2 < r.height →
    r'.pixel p.1 p.2 = r.pixel (origin a b p).1 (origin a b p).2
  stays : ∀ p : Nat × Nat, p ∉ a → p ∉ b → origin a b p = p

/-- What an exchange of two disjoint rectangles of one size comes to: each has the pixels of the
other at the same places, all other pixels are as they were, the order of the two does not matter,
and a second exchange undoes the first. -/
structure Traded (r r' : Raster) (a b : Rect) : Prop where
  pixel_eq : ∀ i j, i < a.width → j < a.height →
    r'.pixel (a.x + i) (a.y + j) = r.pixel (b.x + i) (b.y + j) ∧
    r'.pixel (b.x + i) (b.y + j) = r.pixel (a.x + i) (a.y + j)
  outside : ∀ x y, x < r.width → y < r.height → (x, y) ∉ a → (x, y) ∉ b →
    r'.pixel x y = r.pixel x y
  swapped : r.swapRegions b a = .ok r'
  undone : r'.swapRegions a b = .ok r

lemma exchanged (same : a.sameSize b) (ha : a.Within r.width r.height)
    (hb : b.Within r.width r.height) : Exchanged r (r.exchange a b) a b where
  width_eq := rfl
  height_eq := rfl
  perm := perm_pixels_exchange r a b
  pixel_eq _ hx hy := pixel_exchange_eq same ha hb ⟨hx, hy⟩
  stays _ hpa hpb := origin_of_not_mem same hpa hpb

lemma traded (same : a.sameSize b) (apart : a.Apart b) (ha : a.Within r.width r.height)
    (hb : b.Within r.width r.height) : Traded r (r.exchange a b) a b where
  pixel_eq i j hi hj := by
    have hmem : (a.x + i, a.y + j) ∈ a := by
      simp only [Rect.mem_iff, Rect.right, Rect.top]
      omega
    have hmoved : moved a b (a.x + i, a.y + j) = (b.x + i, b.y + j) := by
      simp only [moved, Prod.mk.injEq]
      omega
    simpa only [hmoved] using (pixel_exchange same apart ha hb).1 _ hmem
  outside := (pixel_exchange same apart ha hb).2
  swapped := by
    rw [swapRegions, if_pos (Rect.sameSize_comm.symm.trans same), exchange_comm same apart ha hb]
  undone := by
    rw [swapRegions, if_pos same, exchange_exchange same apart ha hb]

/-- On rectangles that lie on the raster no operation leaves the array of pixels. A region is read
pixel by pixel, row by row from the bottom. A fill gives its pixels the color and changes no other.
An exchange of rectangles of different sizes is refused before anything is changed. Of rectangles of
one size it only moves pixels about within the two, and if they are disjoint each gets the pixels of
the other. Sizes never change. -/
theorem operations_confined (ha : a.Within r.width r.height) (hb : b.Within r.width r.height) :
    (runFrom r.pixels (InPlace.region r.width a) = (.ok (r.region a), r.pixels) ∧
      (r.region a).length = a.area ∧
      ∀ i j, i < a.width → j < a.height →
        (r.region a)[j * a.width + i]? = some (r.pixel (a.x + i) (a.y + j))) ∧
    (∀ c, runFrom r.pixels (InPlace.fill r.width a c) = (.ok (), (r.fill a c).pixels) ∧
      (r.fill a c).width = r.width ∧ (r.fill a c).height = r.height ∧
      (r.fill a c).pixels.size = r.pixels.size ∧
      ∀ x y, x < r.width → y < r.height →
        (r.fill a c).pixel x y = if (x, y) ∈ a then c else r.pixel x y) ∧
    (¬ (a.width = b.width ∧ a.height = b.height) →
      r.swapRegions a b = .error (.sizeMismatch a b) ∧
      runFrom r.pixels (InPlace.exchange r.width a b) =
        (.error (.refused (.sizeMismatch a b)), r.pixels)) ∧
    (a.width = b.width ∧ a.height = b.height → ∃ r', r.swapRegions a b = .ok r' ∧
      runFrom r.pixels (InPlace.exchange r.width a b) = (.ok (), r'.pixels) ∧
      Exchanged r r' a b ∧ (a.Apart b → Traded r r' a b)) := by
  refine ⟨⟨InPlace.runFrom_region ha, length_region r a, fun i j => getElem?_region⟩, ?_, ?_, ?_⟩
  · intro c
    refine ⟨InPlace.runFrom_fill ha c, rfl, rfl, ?_, fun x y => pixel_fill c ha.1⟩
    exact (r.fill a c).size_eq.trans r.size_eq.symm
  · intro differ
    have hdiffer : ¬ a.sameSize b := mt Rect.sameSize_iff.mp differ
    rw [swapRegions, InPlace.exchange, if_neg hdiffer, if_neg hdiffer]
    exact ⟨rfl, rfl⟩
  · intro same
    have hsame := Rect.sameSize_iff.mpr same
    refine ⟨r.exchange a b, if_pos hsame, InPlace.runFrom_exchange ha hb hsame,
      exchanged hsame ha hb, fun apart => traded hsame apart ha hb⟩

def threePixels : Raster :=
  .ofFn 3 1 fun x _ => ⟨x.toUInt8, 0, 0, 255⟩

def pairFrom (x : Nat) : Rect :=
  ⟨x, 0, 2, 1, Nat.two_pos, Nat.one_pos⟩

theorem operations_confined_of_threePixels :
    (pairFrom 0).Within 3 1 ∧ (pairFrom 1).Within 3 1 ∧ ¬ (pairFrom 0).Apart (pairFrom 1) ∧
    ∃ r', threePixels.swapRegions (pairFrom 0) (pairFrom 1) = .ok r' ∧
      r'.pixels.Perm threePixels.pixels ∧
      ∀ x < 3, r'.pixel x 0 = threePixels.pixel ((x + 1) % 3) 0 := by
  have ha : (pairFrom 0).Within threePixels.width threePixels.height := by decide
  have hb : (pairFrom 1).Within threePixels.width threePixels.height := by decide
  obtain ⟨_, _, _, hexchange⟩ := operations_confined ha hb
  obtain ⟨r', hr', _, hexchanged, _⟩ := hexchange (by decide)
  refine ⟨ha, hb, ?_, r', hr', hexchanged.perm, ?_⟩
  · exact fun apart => apart (1, 0) (by decide) (by decide)
  · intro x hx
    rw [hexchanged.pixel_eq (x, 0) hx Nat.one_pos]
    have horigin : ∀ x < 3, origin (pairFrom 0) (pairFrom 1) (x, 0) = ((x + 1) % 3, 0) := by
      decide
    rw [horigin x hx]

end Operations

end BlockPainting.Raster
