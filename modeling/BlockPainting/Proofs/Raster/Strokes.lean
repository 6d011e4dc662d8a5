import BlockPainting.Board
import BlockPainting.Proofs.Rect.Pixels

/-!
# What strokes do to single pixels

Pixels stand in one array, row after row. On rectangles that lie on the raster a fill changes the
pixels of its rectangle and no others, and an exchange of two disjoint rectangles of one size moves
every pixel to the same place in the other rectangle.
-/

namespace BlockPainting.Raster

lemma index_lt {width height x y : Nat} (hx : x < width) (hy : y < height) :
    y * width + x < width * height := by
  have h : (y + 1) * width ≤ height * width := Nat.mul_le_mul_right width hy
  rw [Nat.add_mul, Nat.one_mul] at h
  rw [Nat.mul_comm width height]
  omega

lemma index_inj {width x y x' y' : Nat} (hx : x < width) (hx' : x' < width)
    (h : y * width + x = y' * width + x') : x = x' ∧ y = y' := by
  rw [Nat.add_comm (y * width), Nat.add_comm (y' * width)] at h
  have hx0 := congrArg (· % width) h
  simp only [Nat.add_mul_mod_self_right, Nat.mod_eq_of_lt hx, Nat.mod_eq_of_lt hx'] at hx0
  subst hx0
  exact ⟨rfl, Nat.eq_of_mul_eq_mul_right (by omega) (Nat.add_left_cancel h)⟩

lemma exists_index {width height k : Nat} (hk : k < width * height) :
    ∃ x y, x < width ∧ y < height ∧ y * width + x = k := by
  have hwidth : 0 < width := Nat.pos_of_mul_pos_right (Nat.zero_lt_of_lt hk)
  refine ⟨k % width, k / width, Nat.mod_lt k hwidth, ?_, Nat.div_add_mod' k width⟩
  rwa [Nat.div_lt_iff_lt_mul hwidth, Nat.mul_comm]

lemma eq_of_getD_eq {width height : Nat} {px px' : Array Color} {d : Color}
    (size_eq : px.size = width * height) (size_eq' : px'.size = width * height)
    (getD_eq : ∀ x y, x < width → y < height →
      px.getD (y * width + x) d = px'.getD (y * width + x) d) : px = px' := by
  refine Array.ext (size_eq.trans size_eq'.symm) ?_
  intro k hk hk'
  obtain ⟨x, y, hx, hy, rfl⟩ := exists_index (size_eq ▸ hk)
  simpa only [Array.getD_eq_getD_getElem?, Array.getElem?_eq_getElem hk,
    Array.getElem?_eq_getElem hk', Option.getD_some] using getD_eq x y hx hy

lemma eq_of_pixel_eq {r r' : Raster} (width_eq : r.width = r'.width)
    (height_eq : r.height = r'.height)
    (pixel_eq : ∀ x y, x < r.width → y < r.height → r.pixel x y = r'.pixel x y) : r = r' := by
  obtain ⟨width, height, px, size_eq⟩ := r
  obtain ⟨width', height', px', size_eq'⟩ := r'
  simp only at width_eq height_eq
  subst width_eq height_eq
  obtain rfl := eq_of_getD_eq size_eq size_eq' pixel_eq
  rfl

lemma getD_foldl_set (cells : List (Nat × Nat)) (index : Nat × Nat → Nat) (c d : Color)
    (px : Array Color) (k : Nat) (hk : k < px.size) :
    (cells.foldl (fun px p => px.setIfInBounds (index p) c) px).getD k d =
      if k ∈ cells.map index then c else px.getD k d := by
  induction cells generalizing px with
  | nil => simp
  | cons p rest ih =>
    rw [List.foldl_cons, ih _ (by simpa using hk)]
    by_cases hrest : k ∈ rest.map index
    · simp [hrest]
    · by_cases hp : index p = k
      · subst hp
        simp [hrest, hk]
      · have hne : k ≠ index p := fun h => hp h.symm
        simp [hrest, hp, hne]

theorem pixel_fill {r : Raster} {rect : Rect} (c : Color) (hw : rect.right ≤ r.width)
    {x y : Nat} (hx : x < r.width) (hy : y < r.height) :
    (r.fill rect c).pixel x y = if (x, y) ∈ rect then c else r.pixel x y := by
  obtain ⟨width, height, px, size_eq⟩ := r
  simp only [fill, pixel, Rect.foldCells_eq_foldl]
  rw [getD_foldl_set _ (fun p => p.2 * width + p.1) _ _ _ _ (size_eq ▸ index_lt hx hy)]
  have hiff : y * width + x ∈ rect.cells.map (fun p => p.2 * width + p.1) ↔ (x, y) ∈ rect := by
    rw [List.mem_map]
    constructor
    · rintro ⟨p, hp, heq⟩
      have hp' := Rect.mem_cells.mp hp
      obtain ⟨h1, h2⟩ := index_inj (Nat.lt_of_lt_of_le hp'.1.2 hw) hx heq
      exact h1 ▸ h2 ▸ hp'
    · intro h
      exact ⟨(x, y), Rect.mem_cells.mpr h, rfl⟩
  simp only [hiff]

lemma getD_swapIfInBounds {px : Array Color} {i j : Nat} (hi : i < px.size) (hj : j < px.size)
    (d : Color) (k : Nat) : (px.swapIfInBounds i j).getD k d =
      if k = i then px.getD j d else if k = j then px.getD i d else px.getD k d := by
  simp only [Array.swapIfInBounds, hi, hj, dif_pos, Array.getD_eq_getD_getElem?,
    Array.getElem?_swap]
  rcases eq_or_ne k i with rfl | hki
  · rcases eq_or_ne j k with rfl | hjk
    · simp
    · simp [hjk]
  · rcases eq_or_ne k j with rfl | hkj
    · simp [hki]
    · simp [hki, hki.symm, hkj, hkj.symm]

/-- Pairs of places are exchanged one after the other. If no place occurs twice, the order does not
matter: every place ends up with what its partner held. -/
lemma getD_foldl_swap {α : Type} (cells : List α) (f g : α → Nat) (d : Color) (px : Array Color)
    (hf : ∀ p ∈ cells, f p < px.size) (hg : ∀ p ∈ cells, g p < px.size)
    (hnodup : (cells.map f ++ cells.map g).Nodup) :
    let after := cells.foldl (fun px p => px.swapIfInBounds (f p) (g p)) px
    (∀ p ∈ cells, after.getD (f p) d = px.getD (g p) d ∧ after.getD (g p) d = px.getD (f p) d) ∧
    ∀ k, k ∉ cells.map f → k ∉ cells.map g → after.getD k d = px.getD k d := by
  induction cells generalizing px with
  | nil => simp
  | cons p rest ih =>
    have hfp := hf p List.mem_cons_self
    have hgp := hg p List.mem_cons_self
    simp only [List.map_cons, List.cons_append, List.nodup_cons, List.nodup_middle,
      List.mem_append, List.mem_cons, not_or] at hnodup
    obtain ⟨⟨hff, hfg, hfg'⟩, ⟨hgf, hgg⟩, hrest⟩ := hnodup
    -- The later exchanges leave the two cells of `p` alone.
    obtain ⟨inside, outside⟩ := ih (px.swapIfInBounds (f p) (g p))
      (fun q hq => by simpa using hf q (List.mem_cons_of_mem p hq))
      (fun q hq => by simpa using hg q (List.mem_cons_of_mem p hq)) hrest
    simp only [getD_swapIfInBounds hfp hgp] at inside outside
    refine ⟨?_, ?_⟩
    · intro q hq
      rw [List.foldl_cons]
      rcases List.mem_cons.mp hq with rfl | hq
      · rw [outside _ hff hfg', outside _ hgf hgg]
        simp [Ne.symm hfg]
      · have hqf := List.mem_map_of_mem (f := f) hq
        have hqg := List.mem_map_of_mem (f := g) hq
        have h1 : g q ≠ f p := fun h => hfg' (h ▸ hqg)
        have h2 : g q ≠ g p := fun h => hgg (h ▸ hqg)
        have h3 : f q ≠ f p := fun h => hff (h ▸ hqf)
        have h4 : f q ≠ g p := fun h => hgf (h ▸ hqf)
        simpa only [if_neg h1, if_neg h2, if_neg h3, if_neg h4] using inside q hq
    · intro k hkf hkg
      simp only [List.map_cons, List.mem_cons, not_or] at hkf hkg
      rw [List.foldl_cons, outside k hkf.2 hkg.2, if_neg hkf.1, if_neg hkg.1]

/-- The place in `b` that corresponds to a place in `a`. -/
def moved (a b : Rect) (p : Nat × Nat) : Nat × Nat :=
  (p.1 - a.x + b.x, p.2 - a.y + b.y)

section Exchange

variable {a b : Rect}

lemma moved_mem (same : a.sameSize b) {p : Nat × Nat} (hp : p ∈ a) : moved a b p ∈ b := by
  simp only [Rect.sameSize, decide_eq_true_eq, Rect.mem_iff, Rect.right, Rect.top, moved]
    at same hp ⊢
  omega

lemma moved_moved {p : Nat × Nat} (hp : p ∈ a) : moved b a (moved a b p) = p := by
  obtain ⟨x, y⟩ := p
  simp only [Rect.mem_iff, moved, Prod.mk.injEq] at hp ⊢
  omega

lemma nodup_places {width height : Nat} (same : a.sameSize b) (apart : a.Apart b)
    (ha : a.Within width height) (hb : b.Within width height) :
    (a.cells.map (fun p => p.2 * width + p.1) ++
      a.cells.map (fun p => (moved a b p).2 * width + (moved a b p).1)).Nodup := by
  have hmoved : (a.cells.map (moved a b)).Nodup := by
    refine List.Nodup.map_on ?_ a.nodup_cells
    intro p hp q hq h
    rw [← moved_moved (b := b) (Rect.mem_cells.mp hp), h, moved_moved (Rect.mem_cells.mp hq)]
  have hall : (a.cells ++ a.cells.map (moved a b)).Nodup := by
    refine List.nodup_append.mpr ⟨a.nodup_cells, hmoved, ?_⟩
    intro p hp q hq h
    obtain ⟨q', hq', rfl⟩ := List.mem_map.mp hq
    exact apart p (Rect.mem_cells.mp hp) (h ▸ moved_mem same (Rect.mem_cells.mp hq'))
  have hlt : ∀ p ∈ a.cells ++ a.cells.map (moved a b), p.1 < width := by
    intro p hp
    rcases List.mem_append.mp hp with hp | hp
    · exact (ha.lt (Rect.mem_cells.mp hp)).1
    · obtain ⟨q, hq, rfl⟩ := List.mem_map.mp hp
      exact (hb.lt (moved_mem same (Rect.mem_cells.mp hq))).1
  have hindex := List.Nodup.map_on (f := fun p : Nat × Nat => p.2 * width + p.1) ?_ hall
  · simpa only [List.map_append, List.map_map, Function.comp_def] using hindex
  · intro p hp q hq h
    obtain ⟨h1, h2⟩ := index_inj (hlt p hp) (hlt q hq) h
    exact Prod.ext h1 h2

/-- An exchange moves every pixel to the same place in the other rectangle and leaves all pixels
outside the two rectangles alone. -/
theorem pixel_exchange {r : Raster} (same : a.sameSize b) (apart : a.Apart b)
    (ha : a.Within r.width r.height) (hb : b.Within r.width r.height) :
    (∀ p ∈ a, (r.exchange a b).pixel p.1 p.2 = r.pixel (moved a b p).1 (moved a b p).2 ∧
      (r.exchange a b).pixel (moved a b p).1 (moved a b p).2 = r.pixel p.1 p.2) ∧
    ∀ x y, x < r.width → y < r.height → (x, y) ∉ a → (x, y) ∉ b →
      (r.exchange a b).pixel x y = r.pixel x y := by
  obtain ⟨width, height, px, size_eq⟩ := r
  simp only at ha hb
  have hswap := getD_foldl_swap a.cells (fun p => p.2 * width + p.1)
    (fun p => (moved a b p).2 * width + (moved a b p).1) Color.white px ?_ ?_
    (nodup_places same apart ha hb)
  · obtain ⟨inside, outside⟩ := hswap
    simp only [exchange, pixel, Rect.foldCells_eq_foldl]
    refine ⟨fun p hp => inside p (Rect.mem_cells.mpr hp), ?_⟩
    intro x y hx hy hna hnb
    refine outside _ ?_ ?_
    · intro h
      obtain ⟨p, hp, heq⟩ := List.mem_map.mp h
      have hp' := Rect.mem_cells.mp hp
      obtain ⟨h1, h2⟩ := index_inj (ha.lt hp').1 hx heq
      exact hna (h1 ▸ h2 ▸ hp')
    · intro h
      obtain ⟨p, hp, heq⟩ := List.mem_map.mp h
      have hp' := moved_mem same (Rect.mem_cells.mp hp)
      obtain ⟨h1, h2⟩ := index_inj (hb.lt hp').1 hx heq
      exact hnb (h1 ▸ h2 ▸ hp')
  · intro p hp
    have hlt := ha.lt (Rect.mem_cells.mp hp)
    exact size_eq ▸ index_lt hlt.1 hlt.2
  · intro p hp
    have hlt := hb.lt (moved_mem same (Rect.mem_cells.mp hp))
    exact size_eq ▸ index_lt hlt.1 hlt.2

end Exchange

end BlockPainting.Raster
