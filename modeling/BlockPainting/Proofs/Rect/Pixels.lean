import BlockPainting.Rect
import Mathlib

/-!
# Rectangles as sets of pixels

A rectangle is read through the pixels that lie in it. Cuts and joins only change how the same
pixels are grouped, and disjoint rectangles whose areas fill a raster leave no pixel of it out.
-/

namespace BlockPainting.Rect

lemma mem_iff {r : Rect} {p : Nat × Nat} :
    p ∈ r ↔ (r.x ≤ p.1 ∧ p.1 < r.right) ∧ (r.y ≤ p.2 ∧ p.2 < r.top) :=
  Iff.rfl

def Apart (a b : Rect) : Prop :=
  ∀ p : Nat × Nat, p ∈ a → p ∉ b

instance : Std.Symm Apart where
  symm _ _ h p hb ha := h p ha hb

/-- A rectangle that lies on a raster of the given size. -/
def Within (r : Rect) (width height : Nat) : Prop :=
  r.right ≤ width ∧ r.top ≤ height

instance (r : Rect) (width height : Nat) : Decidable (r.Within width height) :=
  inferInstanceAs (Decidable (_ ∧ _))

/-- The rectangles group the pixels of `r`, each pixel in exactly one of them. -/
structure Tiles (parts : List Rect) (r : Rect) : Prop where
  apart : parts.Pairwise Apart
  mem_iff : ∀ p : Nat × Nat, p ∈ r ↔ ∃ part ∈ parts, p ∈ part

lemma sameSize_iff {a b : Rect} : a.sameSize b ↔ a.width = b.width ∧ a.height = b.height :=
  decide_eq_true_iff

lemma sameSize_comm {a b : Rect} : a.sameSize b = b.sameSize a := by
  simp only [sameSize, eq_comm]

lemma bottomLeft_mem (r : Rect) : (r.x, r.y) ∈ r := by
  have hw := r.width_pos
  have hh := r.height_pos
  simp only [mem_iff, right, top]
  omega

lemma topRight_mem (r : Rect) : (r.right - 1, r.top - 1) ∈ r := by
  have hw := r.width_pos
  have hh := r.height_pos
  simp only [mem_iff, right, top]
  omega

lemma within_of_mem {r : Rect} {width height : Nat}
    (h : ∀ p : Nat × Nat, p ∈ r → p.1 < width ∧ p.2 < height) : r.Within width height := by
  have hcorner := h _ r.topRight_mem
  have hw := r.width_pos
  have hh := r.height_pos
  simp only [Within, right, top] at hcorner ⊢
  omega

lemma Within.lt {r : Rect} {width height : Nat} (h : r.Within width height) {p : Nat × Nat}
    (hp : p ∈ r) : p.1 < width ∧ p.2 < height :=
  ⟨Nat.lt_of_lt_of_le hp.1.2 h.1, Nat.lt_of_lt_of_le hp.2.2 h.2⟩

lemma ofCorners_eq_ok_iff {x1 y1 x2 y2 : Nat} {rect : Rect} :
    ofCorners x1 y1 x2 y2 = .ok rect ↔
      rect.x = x1 ∧ rect.y = y1 ∧ rect.right = x2 ∧ rect.top = y2 := by
  obtain ⟨x, y, width, height, hwidth, hheight⟩ := rect
  simp only [ofCorners, right, top]
  split
  · rw [Except.ok.injEq, mk.injEq]
    omega
  · simp only [reduceCtorEq, false_iff]
    omega

lemma not_overlaps_iff {a b : Rect} : a.overlaps b = false ↔ Apart a b := by
  constructor
  · intro h p hpa hpb
    simp only [overlaps, decide_eq_false_iff_not] at h
    simp only [mem_iff] at hpa hpb
    omega
  · intro h
    simp only [overlaps, decide_eq_false_iff_not]
    intro hover
    -- The later of the two bottom-left corners would be a common pixel.
    refine h (max a.x b.x, max a.y b.y) ?_ ?_
    · have hw := a.width_pos
      have hh := a.height_pos
      simp only [mem_iff, right, top] at hover ⊢
      omega
    · have hw := b.width_pos
      have hh := b.height_pos
      simp only [mem_iff, right, top] at hover ⊢
      omega

lemma cut_tiles {r low high : Rect} {axis : Axis} {position : Nat}
    (h : r.cut axis position = .ok (low, high)) : Tiles [low, high] r := by
  cases axis with
  | x =>
    simp only [cut, cutX] at h
    split at h
    · rename_i inside
      cases h
      constructor
      · simp only [List.pairwise_cons, List.mem_singleton, forall_eq, List.not_mem_nil,
          false_implies, implies_true, List.Pairwise.nil, and_true]
        intro p hlow hhigh
        simp only [mem_iff, right, top] at hlow hhigh inside
        omega
      · intro p
        simp only [List.mem_cons, List.not_mem_nil, or_false, exists_eq_or_imp, exists_eq_left,
          mem_iff, right, top] at inside ⊢
        omega
    · cases h
  | y =>
    simp only [cut, cutY] at h
    split at h
    · rename_i inside
      cases h
      constructor
      · simp only [List.pairwise_cons, List.mem_singleton, forall_eq, List.not_mem_nil,
          false_implies, implies_true, List.Pairwise.nil, and_true]
        intro p hlow hhigh
        simp only [mem_iff, right, top] at hlow hhigh inside
        omega
      · intro p
        simp only [List.mem_cons, List.not_mem_nil, or_false, exists_eq_or_imp, exists_eq_left,
          mem_iff, right, top] at inside ⊢
        omega
    · cases h

lemma cutPoint_tiles {r : Rect} {q : Quarters Rect} {x y : Nat}
    (h : r.cutPoint x y = .ok q) : Tiles q.toList r := by
  simp only [cutPoint] at h
  split at h
  · rename_i insideX
    split at h
    · rename_i insideY
      cases h
      simp only [right, top] at insideX insideY
      constructor
      · simp only [Quarters.toList, List.pairwise_cons, List.mem_cons, List.not_mem_nil, or_false,
          forall_eq_or_imp, forall_eq, false_implies, implies_true, List.Pairwise.nil, and_true]
        refine ⟨⟨?_, ?_, ?_⟩, ⟨?_, ?_⟩, ?_⟩ <;> intro p ha hb <;>
          simp only [mem_iff, right, top] at ha hb <;> omega
      · intro p
        simp only [Quarters.toList, List.mem_cons, List.not_mem_nil, or_false, exists_eq_or_imp,
          exists_eq_left, mem_iff, right, top]
        omega
    · cases h
  · cases h

lemma Tiles.singleton (r : Rect) : Tiles [r] r :=
  ⟨List.pairwise_singleton _ _, fun p => by simp⟩

lemma Tiles.perm {parts parts' : List Rect} {r : Rect} (tiles : Tiles parts r)
    (perm : parts.Perm parts') : Tiles parts' r := by
  constructor
  · exact (perm.pairwise_iff fun h => Std.Symm.symm _ _ h).mp tiles.apart
  · intro p
    rw [tiles.mem_iff]
    simp only [perm.mem_iff]

lemma Tiles.within {parts : List Rect} {r : Rect} {width height : Nat} (tiles : Tiles parts r)
    (within : r.Within width height) : ∀ part ∈ parts, part.Within width height := by
  intro part hpart
  refine within_of_mem fun p hp => ?_
  exact within.lt ((tiles.mem_iff p).mpr ⟨part, hpart, hp⟩)

lemma Tiles.replace {parts rest : List Rect} {r whole : Rect} (tiles : Tiles (r :: rest) whole)
    (finer : Tiles parts r) : Tiles (parts ++ rest) whole := by
  obtain ⟨hfirst, hrest⟩ := List.pairwise_cons.mp tiles.apart
  constructor
  · refine List.pairwise_append.mpr ⟨finer.apart, hrest, ?_⟩
    intro part hpart other hother p hp
    exact hfirst other hother p ((finer.mem_iff p).mpr ⟨part, hpart, hp⟩)
  · intro p
    rw [tiles.mem_iff, List.exists_mem_cons_iff, finer.mem_iff]
    simp only [List.mem_append, or_and_right, exists_or]

lemma join_mem_iff {a b r : Rect} (h : a.join b = .ok r) (p : Nat × Nat) :
    p ∈ r ↔ p ∈ a ∨ p ∈ b := by
  have ha := a.width_pos
  have ha' := a.height_pos
  simp only [join] at h
  split at h
  · rename_i stacked
    cases h
    simp only [mem_iff, right, top] at stacked ⊢
    omega
  · split at h
    · rename_i beside
      cases h
      simp only [mem_iff, right, top] at beside ⊢
      omega
    · cases h

lemma mem_cells {r : Rect} {p : Nat × Nat} : p ∈ r.cells ↔ p ∈ r := by
  obtain ⟨i, j⟩ := p
  simp only [cells, List.mem_flatMap, List.mem_map, List.mem_range, Prod.mk.injEq, mem_iff, right,
    top]
  constructor
  · rintro ⟨dy, hdy, dx, hdx, rfl, rfl⟩
    omega
  · rintro ⟨⟨hx, hx'⟩, hy, hy'⟩
    exact ⟨j - r.y, by omega, i - r.x, by omega, by omega, by omega⟩

lemma nodup_cells (r : Rect) : r.cells.Nodup := by
  simp only [cells, List.nodup_flatMap, List.mem_range]
  constructor
  · intro j _
    refine List.Nodup.map ?_ List.nodup_range
    intro i i' h
    simp only [Prod.mk.injEq] at h
    omega
  · refine List.Pairwise.imp ?_ List.nodup_range
    intro j j' hne p hp hp'
    simp only [List.mem_map] at hp hp'
    obtain ⟨i, _, rfl⟩ := hp
    obtain ⟨i', _, h⟩ := hp'
    simp only [Prod.mk.injEq] at h
    omega

private lemma fold_eq_foldl_range {α : Type} (n : Nat) (f : α → Nat → α) (init : α) :
    n.fold (fun i _ acc => f acc i) init = (List.range n).foldl f init := by
  induction n with
  | zero => rfl
  | succ n ih => simp [List.range_succ, ih]

lemma foldCells_eq_foldl {α : Type} (r : Rect) (f : α → Nat → Nat → α) (init : α) :
    r.foldCells f init = r.cells.foldl (fun acc p => f acc p.1 p.2) init := by
  simp only [foldCells, cells, List.foldl_flatMap, List.foldl_map, fold_eq_foldl_range]

def pixels (r : Rect) : Finset (Nat × Nat) :=
  Finset.Ico r.x r.right ×ˢ Finset.Ico r.y r.top

lemma mem_pixels {r : Rect} {p : Nat × Nat} : p ∈ r.pixels ↔ p ∈ r := by
  simp only [pixels, Finset.mem_product, Finset.mem_Ico, mem_iff]

lemma card_pixels (r : Rect) : r.pixels.card = r.area := by
  simp only [pixels, Finset.card_product, Nat.card_Ico, right, top, area]
  rw [Nat.add_sub_cancel_left, Nat.add_sub_cancel_left]

lemma area_le_of_mem {a b : Rect} (inside : ∀ p : Nat × Nat, p ∈ a → p ∈ b) : a.area ≤ b.area := by
  rw [← card_pixels, ← card_pixels]
  refine Finset.card_le_card fun p hp => ?_
  exact mem_pixels.mpr (inside p (mem_pixels.mp hp))

lemma Within.area_le {r : Rect} {width height : Nat} (h : r.Within width height) :
    r.area ≤ width * height := by
  have hright := h.1
  have htop := h.2
  unfold right at hright
  unfold top at htop
  exact Nat.mul_le_mul (by omega) (by omega)

lemma nodup_of_apart {parts : List Rect} (apart : parts.Pairwise Apart) : parts.Nodup := by
  refine List.Pairwise.imp ?_ apart
  rintro a _ h rfl
  exact h _ a.bottomLeft_mem a.bottomLeft_mem

lemma card_biUnion_pixels {parts : List Rect} (apart : parts.Pairwise Apart) :
    (parts.toFinset.biUnion pixels).card = (parts.map area).sum := by
  rw [Finset.card_biUnion, Finset.sum_congr rfl fun r _ => card_pixels r,
    List.sum_toFinset _ (nodup_of_apart apart)]
  intro a ha b hb hne
  rw [Finset.mem_coe, List.mem_toFinset] at ha hb
  refine Finset.disjoint_left.mpr ?_
  intro p hpa hpb
  exact apart.forall ha hb hne p (mem_pixels.mp hpa) (mem_pixels.mp hpb)

lemma Tiles.area_eq {parts : List Rect} {r : Rect} (tiles : Tiles parts r) :
    (parts.map area).sum = r.area := by
  have hall : parts.toFinset.biUnion pixels = r.pixels := by
    ext p
    simp only [Finset.mem_biUnion, List.mem_toFinset, mem_pixels, tiles.mem_iff p]
  rw [← card_biUnion_pixels tiles.apart, hall, card_pixels]

lemma biUnion_pixels_subset {parts : List Rect} {width height : Nat}
    (within : ∀ r ∈ parts, r.Within width height) :
    parts.toFinset.biUnion pixels ⊆ Finset.range width ×ˢ Finset.range height := by
  intro q hq
  obtain ⟨r, hr, hqr⟩ := Finset.mem_biUnion.mp hq
  have hlt := (within r (List.mem_toFinset.mp hr)).lt (mem_pixels.mp hqr)
  exact Finset.mem_product.mpr ⟨Finset.mem_range.mpr hlt.1, Finset.mem_range.mpr hlt.2⟩

/-- Disjoint rectangles on a raster whose areas add up to that of the raster leave no gap. -/
lemma covers_of_area {parts : List Rect} {width height : Nat} (apart : parts.Pairwise Apart)
    (within : ∀ r ∈ parts, r.Within width height)
    (total : (parts.map area).sum = width * height) {p : Nat × Nat} (hx : p.1 < width)
    (hy : p.2 < height) : ∃ r ∈ parts, p ∈ r := by
  have hsub := biUnion_pixels_subset within
  have hcard : (Finset.range width ×ˢ Finset.range height).card ≤
      (parts.toFinset.biUnion pixels).card := by
    rw [Finset.card_product, Finset.card_range, Finset.card_range, card_biUnion_pixels apart,
      total]
  have hall := Finset.eq_of_subset_of_card_le hsub hcard
  have hp : p ∈ parts.toFinset.biUnion pixels := by
    rw [hall]
    exact Finset.mem_product.mpr ⟨Finset.mem_range.mpr hx, Finset.mem_range.mpr hy⟩
  obtain ⟨r, hr, hpr⟩ := Finset.mem_biUnion.mp hp
  exact ⟨r, List.mem_toFinset.mp hr, mem_pixels.mp hpr⟩

lemma area_of_covers {parts : List Rect} {width height : Nat} (apart : parts.Pairwise Apart)
    (within : ∀ r ∈ parts, r.Within width height)
    (covers : ∀ p : Nat × Nat, p.1 < width → p.2 < height → ∃ r ∈ parts, p ∈ r) :
    (parts.map area).sum = width * height := by
  have hall : parts.toFinset.biUnion pixels = Finset.range width ×ˢ Finset.range height := by
    refine Finset.Subset.antisymm (biUnion_pixels_subset within) ?_
    intro p hp
    obtain ⟨hx, hy⟩ := Finset.mem_product.mp hp
    obtain ⟨r, hr, hpr⟩ := covers p (Finset.mem_range.mp hx) (Finset.mem_range.mp hy)
    exact Finset.mem_biUnion.mpr ⟨r, List.mem_toFinset.mpr hr, mem_pixels.mpr hpr⟩
  rw [← card_biUnion_pixels apart, hall, Finset.card_product, Finset.card_range,
    Finset.card_range]

end BlockPainting.Rect
