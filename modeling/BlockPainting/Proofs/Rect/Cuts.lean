import BlockPainting.Proofs.Rect.Pixels

/-!
# When rectangles can be cut and joined

A cut goes through exactly if its line runs strictly inside, and two rectangles can be joined
exactly if they touch along a whole edge of both. What a cut takes apart, a join puts together
again.
-/

namespace BlockPainting.Rect

variable {r a b : Rect}

def Inside (r : Rect) : Axis → Nat → Prop
  | .x, x => r.x < x ∧ x < r.right
  | .y, y => r.y < y ∧ y < r.top

def Adjacent (a b : Rect) : Prop :=
  (a.x = b.x ∧ a.right = b.right ∧ (a.top = b.y ∨ b.top = a.y)) ∨
    (a.y = b.y ∧ a.top = b.top ∧ (a.right = b.x ∨ b.right = a.x))

lemma exists_cut_iff {axis : Axis} {position : Nat} :
    (∃ low high, r.cut axis position = .ok (low, high)) ↔ r.Inside axis position := by
  constructor
  · rintro ⟨low, high, h⟩
    cases axis with
    | x =>
      by_cases inside : r.x < position ∧ position < r.right
      · exact inside
      · simp only [cut, cutX, dif_neg inside] at h
        cases h
    | y =>
      by_cases inside : r.y < position ∧ position < r.top
      · exact inside
      · simp only [cut, cutY, dif_neg inside] at h
        cases h
  · intro inside
    cases axis with
    | x => exact ⟨_, _, dif_pos inside⟩
    | y => exact ⟨_, _, dif_pos inside⟩

lemma exists_cutPoint_iff {x y : Nat} :
    (∃ quarters, r.cutPoint x y = .ok quarters) ↔ r.Inside .x x ∧ r.Inside .y y := by
  constructor
  · rintro ⟨quarters, h⟩
    by_cases insideX : r.x < x ∧ x < r.right
    · by_cases insideY : r.y < y ∧ y < r.top
      · exact ⟨insideX, insideY⟩
      · simp only [cutPoint, dif_pos insideX, dif_neg insideY] at h
        cases h
    · simp only [cutPoint, dif_neg insideX] at h
      cases h
  · rintro ⟨insideX, insideY⟩
    exact ⟨_, (dif_pos insideX).trans (dif_pos insideY)⟩

lemma exists_join_iff : (∃ joined, a.join b = .ok joined) ↔ a.Adjacent b := by
  have ha := a.width_pos
  have ha' := a.height_pos
  constructor
  · rintro ⟨joined, h⟩
    by_cases stacked : a.x = b.x ∧ a.width = b.width ∧ (a.top = b.y ∨ b.top = a.y)
    · refine Or.inl ⟨stacked.1, ?_, stacked.2.2⟩
      unfold right
      omega
    · by_cases beside : a.y = b.y ∧ a.height = b.height ∧ (a.right = b.x ∨ b.right = a.x)
      · refine Or.inr ⟨beside.1, ?_, beside.2.2⟩
        unfold top
        omega
      · simp only [join, if_neg stacked, if_neg beside] at h
        cases h
  · rintro (⟨hx, hright, hedge⟩ | ⟨hy, htop, hedge⟩)
    · have hwidth : a.width = b.width := by
        unfold right at hright
        omega
      exact ⟨_, if_pos ⟨hx, hwidth, hedge⟩⟩
    · have hheight : a.height = b.height := by
        unfold top at htop
        omega
      -- Rectangles side by side are never one above the other, too.
      have hstacked : ¬ (a.x = b.x ∧ a.width = b.width ∧ (a.top = b.y ∨ b.top = a.y)) := by
        unfold top
        omega
      exact ⟨_, (if_neg hstacked).trans (if_pos ⟨hy, hheight, hedge⟩)⟩

lemma not_adjacent_self (r : Rect) : ¬ r.Adjacent r := by
  have hw := r.width_pos
  have hh := r.height_pos
  unfold Adjacent right top
  omega

lemma eq_of_mem_iff (h : ∀ p : Nat × Nat, p ∈ a ↔ p ∈ b) : a = b := by
  have h1 := (h _).mp a.bottomLeft_mem
  have h2 := (h _).mpr b.bottomLeft_mem
  have h3 := (h _).mp a.topRight_mem
  have h4 := (h _).mpr b.topRight_mem
  have ha := a.width_pos
  have ha' := a.height_pos
  have hb := b.width_pos
  have hb' := b.height_pos
  simp only [mem_iff, right, top] at h1 h2 h3 h4
  have hx : a.x = b.x := by omega
  have hy : a.y = b.y := by omega
  have hwidth : a.width = b.width := by omega
  have hheight : a.height = b.height := by omega
  cases a
  cases b
  simp only at hx hy hwidth hheight
  subst hx hy hwidth hheight
  rfl

lemma adjacent_of_cut {low high : Rect} {axis : Axis} {position : Nat}
    (h : r.cut axis position = .ok (low, high)) : low.Adjacent high := by
  have hinside := exists_cut_iff.mp ⟨low, high, h⟩
  cases axis with
  | x =>
    simp only [Inside] at hinside
    simp only [cut, cutX, dif_pos hinside] at h
    cases h
    refine Or.inr ⟨rfl, rfl, Or.inl ?_⟩
    change r.x + (position - r.x) = position
    omega
  | y =>
    simp only [Inside] at hinside
    simp only [cut, cutY, dif_pos hinside] at h
    cases h
    refine Or.inl ⟨rfl, rfl, Or.inl ?_⟩
    change r.y + (position - r.y) = position
    omega

lemma join_of_cut {low high : Rect} {axis : Axis} {position : Nat}
    (h : r.cut axis position = .ok (low, high)) : low.join high = .ok r := by
  obtain ⟨joined, hjoin⟩ := exists_join_iff.mpr (adjacent_of_cut h)
  have hsame : joined = r := by
    refine eq_of_mem_iff ?_
    intro p
    rw [join_mem_iff hjoin p, (cut_tiles h).mem_iff p]
    simp
  rw [hjoin, hsame]

end BlockPainting.Rect
