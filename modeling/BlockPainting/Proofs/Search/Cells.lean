import BlockPainting.Proofs.Rect.Cuts
import BlockPainting.Search.GridWalk

/-!
# The cells of a grid walk

Whatever the direction, the cells of a walk lie in its block, the lines along which it cuts run
strictly inside, and the part in which it goes on is smaller by one cell in both dimensions.
-/

namespace BlockPainting.GridWalk

variable {rect : Rect} {size along : Nat}

lemma mem_offsets {length : Nat} (positive : 0 < size) :
    along ∈ offsets size length ↔ size ∣ along ∧ 0 < along ∧ along < length := by
  simp only [offsets, List.mem_map, List.mem_range]
  constructor
  · rintro ⟨k, hk, rfl⟩
    have hle : (k + 1) * size ≤ length - 1 := (Nat.le_div_iff_mul_le positive).mp hk
    have hpos : 0 < (k + 1) * size := Nat.mul_pos (Nat.succ_pos k) positive
    exact ⟨Nat.dvd_mul_left size (k + 1), hpos, by omega⟩
  · rintro ⟨⟨k, rfl⟩, hpos, hlt⟩
    have hk : 0 < k := Nat.pos_of_mul_pos_left hpos
    refine ⟨k - 1, ?_, ?_⟩
    · rw [Nat.lt_iff_add_one_le, Nat.le_div_iff_mul_le positive, Nat.sub_add_cancel hk,
        Nat.mul_comm]
      omega
    · rw [Nat.sub_add_cancel hk, Nat.mul_comm]

lemma length_offsets_le (size length : Nat) : (offsets size length).length ≤ length - 1 := by
  simp only [offsets, List.length_map, List.length_range]
  exact Nat.div_le_self _ _

/-- Along a side of at most `2 ^ 31` pixels the next distance is still a coordinate. -/
lemma offset_add_size_le {length : Nat} (positive : 0 < size) (bounded : length ≤ 2 ^ 31)
    (h : along ∈ offsets size length) : along + size ≤ maxCoordinate := by
  obtain ⟨hdvd, hpos, hlt⟩ := (mem_offsets positive).mp h
  have hsize := Nat.le_of_dvd hpos hdvd
  unfold maxCoordinate maxWord
  omega

lemma exists_cell (direction : Direction) {alongX alongY : Nat} (hx : alongX < rect.width)
    (hy : alongY < rect.height) (positive : 0 < size) :
    ∃ c, cell rect direction alongX alongY size = .ok c ∧ rect.contains c := by
  have hw : 0 < min size (rect.width - alongX) := by omega
  have hh : 0 < min size (rect.height - alongY) := by omega
  refine ⟨_, dif_pos ⟨hw, hh⟩, decide_eq_true ?_⟩
  simp only [Rect.right, Rect.top]
  split <;> split <;> omega

lemma columnLine_inside (direction : Direction) (hpos : 0 < along) (hlt : along < rect.width) :
    rect.Inside .x (columnLine rect direction along) := by
  change rect.x < columnLine rect direction along ∧ columnLine rect direction along < rect.right
  unfold columnLine Rect.right
  split <;> omega

lemma rowLine_inside (direction : Direction) (hpos : 0 < along) (hlt : along < rect.height) :
    rect.Inside .y (rowLine rect direction along) := by
  change rect.y < rowLine rect direction along ∧ rowLine rect direction along < rect.top
  unfold rowLine Rect.top
  split <;> omega

/-- The index of the child in which a walk goes on. -/
def childIndex : Direction → Nat
  | .downLeft => 0
  | .downRight => 1
  | .upRight => 2
  | .upLeft => 3

lemma continuation_smaller (direction : Direction) {quarters : Quarters Rect}
    (cut : rect.cutPoint (columnLine rect direction size) (rowLine rect direction size) =
      .ok quarters) :
    (continuation quarters direction).width = rect.width - size ∧
      (continuation quarters direction).height = rect.height - size := by
  obtain ⟨insideX, insideY⟩ := Rect.exists_cutPoint_iff.mp ⟨quarters, cut⟩
  simp only [Rect.Inside] at insideX insideY
  rw [Rect.cutPoint, dif_pos insideX, dif_pos insideY] at cut
  cases cut
  cases direction <;>
    simp only [columnLine, rowLine, Direction.rightward, Direction.upward, if_true,
      Bool.false_eq_true, if_false, Rect.right, Rect.top] at insideX insideY <;>
    simp only [continuation, columnLine, rowLine, Direction.rightward, Direction.upward, if_true,
      Bool.false_eq_true, if_false, Rect.right, Rect.top] <;>
    omega

end BlockPainting.GridWalk
