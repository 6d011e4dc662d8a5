import BlockPainting.Proofs.Rect.Predicates

/-!
# What cuts leave

A cut along a line leaves the pixels before the line and those from the line on. A cut at a point
leaves what two cuts one after the other leave: one along `x`, then one along `y` in either half. So
the parts of a cut tile the rectangle, and the halves are joined to it again in either order.
-/

namespace BlockPainting.Rect

variable {r low high : Rect} {axis : Axis} {position x y : Nat} {quarters : Quarters Rect}

/-- The pixel lies to the left of a line at some `x`, or below one at some `y`. -/
def Before : Axis → Nat → Nat × Nat → Prop
  | .x, x, p => p.1 < x
  | .y, y, p => p.2 < y

/-- What a cut along a line leaves: the part before the line and the part from it on. -/
structure Halved (r : Rect) (axis : Axis) (position : Nat) (low high : Rect) : Prop where
  mem_low : ∀ p : Nat × Nat, p ∈ low ↔ p ∈ r ∧ Before axis position p
  mem_high : ∀ p : Nat × Nat, p ∈ high ↔ p ∈ r ∧ ¬ Before axis position p
  tiles : Tiles [low, high] r
  area_eq : low.area + high.area = r.area
  join_eq : low.join high = .ok r
  join_swapped_eq : high.join low = .ok r

/-- What a cut at a point leaves: the parts around the point, counterclockwise from the bottom
left. -/
structure Quartered (r : Rect) (x y : Nat) (bottomLeft bottomRight topRight topLeft : Rect) :
    Prop where
  mem_bottomLeft : ∀ p : Nat × Nat, p ∈ bottomLeft ↔ p ∈ r ∧ Before .x x p ∧ Before .y y p
  mem_bottomRight : ∀ p : Nat × Nat, p ∈ bottomRight ↔ p ∈ r ∧ ¬ Before .x x p ∧ Before .y y p
  mem_topRight : ∀ p : Nat × Nat, p ∈ topRight ↔ p ∈ r ∧ ¬ Before .x x p ∧ ¬ Before .y y p
  mem_topLeft : ∀ p : Nat × Nat, p ∈ topLeft ↔ p ∈ r ∧ Before .x x p ∧ ¬ Before .y y p
  tiles : Tiles [bottomLeft, bottomRight, topRight, topLeft] r
  area_eq : bottomLeft.area + bottomRight.area + topRight.area + topLeft.area = r.area

lemma mem_of_cut (h : r.cut axis position = .ok (low, high)) (p : Nat × Nat) :
    (p ∈ low ↔ p ∈ r ∧ Before axis position p) ∧
      (p ∈ high ↔ p ∈ r ∧ ¬ Before axis position p) := by
  have inside := exists_cut_iff.mp ⟨low, high, h⟩
  cases axis with
  | x =>
    simp only [Inside] at inside
    simp only [cut, cutX, dif_pos inside] at h
    cases h
    simp only [Before, mem_iff, right, top] at inside ⊢
    omega
  | y =>
    simp only [Inside] at inside
    simp only [cut, cutY, dif_pos inside] at h
    cases h
    simp only [Before, mem_iff, right, top] at inside ⊢
    omega

lemma halved_of_cut (h : r.cut axis position = .ok (low, high)) :
    r.Halved axis position low high := by
  have hjoin := join_of_cut h
  have harea := (cut_tiles h).area_eq
  simp only [List.map_cons, List.map_nil, List.sum_cons, List.sum_nil, Nat.add_zero] at harea
  exact ⟨fun p => (mem_of_cut h p).1, fun p => (mem_of_cut h p).2, cut_tiles h, harea, hjoin,
    join_comm_iff.mp hjoin⟩

lemma cuts_of_cutPoint (h : r.cutPoint x y = .ok quarters) :
    ∃ left right, r.cut .x x = .ok (left, right) ∧
      left.cut .y y = .ok (quarters.bottomLeft, quarters.topLeft) ∧
      right.cut .y y = .ok (quarters.bottomRight, quarters.topRight) := by
  obtain ⟨insideX, insideY⟩ := exists_cutPoint_iff.mp ⟨quarters, h⟩
  simp only [Inside] at insideX insideY
  rw [cutPoint, dif_pos insideX, dif_pos insideY] at h
  cases h
  exact ⟨_, _, dif_pos insideX, dif_pos insideY, dif_pos insideY⟩

/-- A cut at a point is a cut along `x` followed by cuts of both halves along `y`. -/
lemma cutPoint_eq_ok_iff : r.cutPoint x y = .ok quarters ↔
    ∃ left right, r.cut .x x = .ok (left, right) ∧
      left.cut .y y = .ok (quarters.bottomLeft, quarters.topLeft) ∧
      right.cut .y y = .ok (quarters.bottomRight, quarters.topRight) := by
  constructor
  · exact cuts_of_cutPoint
  · rintro ⟨left, right, hx, hleft, hright⟩
    have insideX := exists_cut_iff.mp ⟨left, right, hx⟩
    -- The left half is as high as the rectangle.
    have insideY : r.Inside .y y := by
      have inside := exists_cut_iff.mp ⟨_, _, hleft⟩
      simp only [Inside] at insideX
      simp only [cut, cutX, dif_pos insideX] at hx
      cases hx
      exact inside
    obtain ⟨found, hfound⟩ := exists_cutPoint_iff.mpr ⟨insideX, insideY⟩
    obtain ⟨left', right', hx', hleft', hright'⟩ := cuts_of_cutPoint hfound
    obtain ⟨rfl, rfl⟩ := Prod.mk.inj (Except.ok.inj (hx.symm.trans hx'))
    obtain ⟨hbottomLeft, htopLeft⟩ := Prod.mk.inj (Except.ok.inj (hleft'.symm.trans hleft))
    obtain ⟨hbottomRight, htopRight⟩ := Prod.mk.inj (Except.ok.inj (hright'.symm.trans hright))
    cases found
    cases quarters
    rw [hfound, Except.ok.injEq, Quarters.mk.injEq]
    exact ⟨hbottomLeft, hbottomRight, htopRight, htopLeft⟩

lemma quartered_of_cutPoint (h : r.cutPoint x y = .ok quarters) :
    r.Quartered x y quarters.bottomLeft quarters.bottomRight quarters.topRight
      quarters.topLeft := by
  obtain ⟨left, right, hx, hleft, hright⟩ := cuts_of_cutPoint h
  have harea := (cutPoint_tiles h).area_eq
  simp only [Quarters.toList, List.map_cons, List.map_nil, List.sum_cons, List.sum_nil,
    Nat.add_zero, ← Nat.add_assoc] at harea
  refine ⟨?_, ?_, ?_, ?_, cutPoint_tiles h, harea⟩
  · intro p
    rw [(mem_of_cut hleft p).1, (mem_of_cut hx p).1, and_assoc]
  · intro p
    rw [(mem_of_cut hright p).1, (mem_of_cut hx p).2, and_assoc]
  · intro p
    rw [(mem_of_cut hright p).2, (mem_of_cut hx p).2, and_assoc]
  · intro p
    rw [(mem_of_cut hleft p).2, (mem_of_cut hx p).1, and_assoc]

/-- A rectangle can be cut along a line if and only if the line runs strictly inside, and at a point
if and only if both lines through the point do. The parts are rectangles, hence not empty, that tile
the rectangle: the part before the line and the part from it on, or the four parts around the point
in counterclockwise order. Their areas add up, the halves are joined to the rectangle again in
either order, and the four parts are those that cuts along `x` and then along `y` leave. If the far
edges of the rectangle fit a word, so do those of the parts. -/
theorem cuts_tile_rect (r : Rect) :
    (∀ axis position,
      ((∃ low high, r.cut axis position = .ok (low, high)) ↔ r.Inside axis position) ∧
      ∀ low high, r.cut axis position = .ok (low, high) → r.Halved axis position low high ∧
        (r.Within maxCoordinate maxCoordinate →
          ∀ part ∈ [low, high], part.Within maxCoordinate maxCoordinate)) ∧
    ∀ x y,
      ((∃ quarters, r.cutPoint x y = .ok quarters) ↔ r.Inside .x x ∧ r.Inside .y y) ∧
      (∀ quarters, r.cutPoint x y = .ok quarters ↔
        ∃ left right, r.cut .x x = .ok (left, right) ∧
          left.cut .y y = .ok (quarters.bottomLeft, quarters.topLeft) ∧
          right.cut .y y = .ok (quarters.bottomRight, quarters.topRight)) ∧
      ∀ quarters, r.cutPoint x y = .ok quarters →
        (∃ bottomLeft bottomRight topRight topLeft,
          quarters.toList = [bottomLeft, bottomRight, topRight, topLeft] ∧
          r.Quartered x y bottomLeft bottomRight topRight topLeft) ∧
        (r.Within maxCoordinate maxCoordinate →
          ∀ part ∈ quarters.toList, part.Within maxCoordinate maxCoordinate) := by
  constructor
  · intro axis position
    refine ⟨exists_cut_iff, fun low high h => ?_⟩
    have halved := halved_of_cut h
    exact ⟨halved, halved.tiles.within⟩
  · intro x y
    refine ⟨exists_cutPoint_iff, fun quarters => cutPoint_eq_ok_iff, fun quarters h => ?_⟩
    have quartered := quartered_of_cutPoint h
    exact ⟨⟨_, _, _, _, rfl, quartered⟩, quartered.tiles.within⟩

/-- Five columns and four rows that end at the last coordinate. -/
def lastRect : Rect :=
  ⟨maxCoordinate - 5, maxCoordinate - 4, 5, 4, by decide, by decide⟩

/-- Cut at the last point inside, the rectangle leaves a single pixel in the corner, and the two
columns beside it are still joined to what they were. -/
theorem cuts_tile_rect_of_lastRect :
    ∃ quarters right, lastRect.cutPoint (maxCoordinate - 1) (maxCoordinate - 1) = .ok quarters ∧
      quarters.topRight.area = 1 ∧ Tiles quarters.toList lastRect ∧
      (∀ part ∈ quarters.toList, part.Within maxCoordinate maxCoordinate) ∧
      quarters.topRight.join quarters.bottomRight = .ok right := by
  obtain ⟨hcut, hpoint⟩ := cuts_tile_rect lastRect
  obtain ⟨hexists, hcuts, hparts⟩ := hpoint (maxCoordinate - 1) (maxCoordinate - 1)
  obtain ⟨quarters, h⟩ := hexists.mpr (by
    simp [Inside, lastRect, right, top, maxCoordinate, maxWord])
  obtain ⟨⟨bottomLeft, bottomRight, topRight, topLeft, hlist, quartered⟩, hwithin⟩ := hparts _ h
  obtain ⟨left, right, _, _, hright⟩ := (hcuts quarters).mp h
  have hjoin := ((cuts_tile_rect right).1 .y (maxCoordinate - 1)).2 _ _ hright
  refine ⟨quarters, right, h, ?_, hlist ▸ quartered.tiles, hwithin (by decide), ?_⟩
  · cases h
    decide
  · exact hjoin.1.join_swapped_eq

end BlockPainting.Rect
