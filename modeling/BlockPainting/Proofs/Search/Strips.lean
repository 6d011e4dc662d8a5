import BlockPainting.Proofs.Layout.Columns
import BlockPainting.Proofs.Rect.Halves
import BlockPainting.Proofs.Search.Accounts

/-!
# The first row and the first column of a grid walk

Seen from the start corner all directions look alike: a cell holds the pixels whose steps from the
corner lie between two bounds, so the cells of the first row tile the rows at the start edge, and
those of the first column the columns there. From each later cell on, the block is cut along the
edge of the cell, and the area by which its paint was judged is that of the part which is painted.
-/

namespace BlockPainting.GridWalk

open Success

variable {rect c low high : Rect} {direction : Direction} {size along alongX alongY : Nat}
variable {axis : Axis} {p : Nat × Nat}

def ascends (direction : Direction) : Axis → Bool
  | .x => direction.rightward
  | .y => direction.upward

/-- The coordinate of the edge at which a walk starts. -/
def startEdge (rect : Rect) (direction : Direction) : Axis → Nat
  | .x => if direction.rightward then rect.x else rect.right
  | .y => if direction.upward then rect.y else rect.top

/-- How many pixels lie between a pixel and the start edge. -/
def steps (rect : Rect) (direction : Direction) (p : Nat × Nat) : Axis → Nat
  | .x => if direction.rightward then p.1 - rect.x else rect.right - 1 - p.1
  | .y => if direction.upward then p.2 - rect.y else rect.top - 1 - p.2

def side (rect : Rect) : Axis → Nat
  | .x => rect.width
  | .y => rect.height

/-- The line so far along an axis from the start corner. -/
def line (rect : Rect) (direction : Direction) (along : Nat) : Axis → Nat
  | .x => columnLine rect direction along
  | .y => rowLine rect direction along

/-- The cell of the first row, or of the first column, so far from the start corner. -/
def cellAlong (rect : Rect) (direction : Direction) (size along : Nat) :
    Axis → Except GeometryError Rect
  | .x => cell rect direction along 0 size
  | .y => cell rect direction 0 along size

def Look.onAxis (along : Nat) : Axis → Look
  | .x => .row along
  | .y => .column along

/-- The area by which a paint for everything from this cell on is judged. -/
def areaBeyond (rect : Rect) (along : Nat) : Axis → Nat
  | .x => (rect.width - along) * rect.height
  | .y => rect.width * (rect.height - along)

/-- The rows at the start edge as far as a cell reaches, or the columns there. -/
def strip (rect : Rect) (direction : Direction) (size : Nat) : Axis → Except GeometryError Rect
  | .x => Rect.ofSize rect.x
      (if direction.upward then rect.y else rect.top - min size rect.height)
      rect.width (min size rect.height)
  | .y => Rect.ofSize
      (if direction.rightward then rect.x else rect.right - min size rect.width)
      rect.y (min size rect.width) rect.height

lemma ofSize_eq_ok_iff {x y width height : Nat} :
    Rect.ofSize x y width height = .ok c ↔
      c.x = x ∧ c.y = y ∧ c.width = width ∧ c.height = height := by
  obtain ⟨x', y', width', height', hw, hh⟩ := c
  unfold Rect.ofSize
  by_cases h : 0 < width ∧ 0 < height
  · rw [dif_pos h, Except.ok.injEq, Rect.mk.injEq]
    constructor
    · rintro ⟨rfl, rfl, rfl, rfl⟩
      exact ⟨rfl, rfl, rfl, rfl⟩
    · rintro ⟨rfl, rfl, rfl, rfl⟩
      exact ⟨rfl, rfl, rfl, rfl⟩
  · simp only [h, dite_false, reduceCtorEq, false_iff]
    rintro ⟨_, _, rfl, rfl⟩
    exact h ⟨hw, hh⟩

lemma mem_span_iff {start length q : Nat} (ascending : Bool) (hlt : along < length) :
    ((if ascending then start + along else start + length - along - min size (length - along)) ≤ q ∧
      q < (if ascending then start + along
        else start + length - along - min size (length - along)) + min size (length - along)) ↔
    (start ≤ q ∧ q < start + length) ∧
      along ≤ (if ascending then q - start else start + length - 1 - q) ∧
      (if ascending then q - start else start + length - 1 - q) < along + size := by
  cases ascending with
  | true =>
    simp only [if_true]
    omega
  | false =>
    simp only [Bool.false_eq_true, if_false]
    omega

lemma mem_cell_iff (hx : alongX < rect.width) (hy : alongY < rect.height)
    (hc : cell rect direction alongX alongY size = .ok c) :
    p ∈ c ↔ p ∈ rect ∧
      (alongX ≤ steps rect direction p .x ∧ steps rect direction p .x < alongX + size) ∧
      alongY ≤ steps rect direction p .y ∧ steps rect direction p .y < alongY + size := by
  obtain ⟨hx', hy', hw', hh'⟩ := ofSize_eq_ok_iff.mp hc
  have hcolumn := @mem_span_iff size alongX rect.x rect.width p.1 direction.rightward hx
  have hrow := @mem_span_iff size alongY rect.y rect.height p.2 direction.upward hy
  simp only [Rect.mem_iff, steps, Rect.right, Rect.top] at hx' hy' ⊢
  rw [hx', hy', hw', hh', hcolumn, hrow]
  exact and_and_and_comm

def across : Axis → Axis
  | .x => .y
  | .y => .x

lemma mem_cellAlong_iff (hlt : along < side rect axis)
    (hc : cellAlong rect direction size along axis = .ok c) :
    p ∈ c ↔ p ∈ rect ∧
      (along ≤ steps rect direction p axis ∧ steps rect direction p axis < along + size) ∧
      steps rect direction p (across axis) < size := by
  cases axis with
  | x =>
    rw [mem_cell_iff hlt rect.height_pos hc, Nat.zero_add]
    simp only [Nat.zero_le, true_and, across]
  | y =>
    rw [mem_cell_iff rect.width_pos hlt hc, Nat.zero_add]
    simp only [Nat.zero_le, true_and, across]
    rw [and_comm (a := steps rect direction p .x < size)]

lemma mem_strip_iff (h : strip rect direction size axis = .ok c) :
    p ∈ c ↔ p ∈ rect ∧ steps rect direction p (across axis) < size := by
  cases axis with
  | x =>
    obtain ⟨hx, hy, hw, hh⟩ := ofSize_eq_ok_iff.mp h
    have hrow := @mem_span_iff size 0 rect.y rect.height p.2 direction.upward rect.height_pos
    simp only [Nat.add_zero, Nat.sub_zero, Nat.zero_le, true_and, Nat.zero_add] at hrow
    simp only [Rect.mem_iff, steps, across, Rect.right, Rect.top] at hy ⊢
    rw [hx, hy, hw, hh, hrow]
    exact and_assoc.symm
  | y =>
    obtain ⟨hx, hy, hw, hh⟩ := ofSize_eq_ok_iff.mp h
    have hcolumn := @mem_span_iff size 0 rect.x rect.width p.1 direction.rightward rect.width_pos
    simp only [Nat.add_zero, Nat.sub_zero, Nat.zero_le, true_and, Nat.zero_add] at hcolumn
    simp only [Rect.mem_iff, steps, across, Rect.right, Rect.top] at hx ⊢
    rw [hx, hy, hw, hh, hcolumn, and_right_comm]

lemma exists_strip (positive : 0 < size) : ∃ c, strip rect direction size axis = .ok c := by
  have hw := rect.width_pos
  have hh := rect.height_pos
  cases axis with
  | x => exact ⟨_, dif_pos ⟨hw, by omega⟩⟩
  | y => exact ⟨_, dif_pos ⟨by omega, hh⟩⟩

lemma exists_cellAlong (positive : 0 < size) (hlt : along < side rect axis) :
    ∃ c, cellAlong rect direction size along axis = .ok c := by
  cases axis with
  | x =>
    obtain ⟨c, hc, _⟩ := exists_cell direction hlt rect.height_pos positive
    exact ⟨c, hc⟩
  | y =>
    obtain ⟨c, hc, _⟩ := exists_cell direction rect.width_pos hlt positive
    exact ⟨c, hc⟩

lemma steps_lt (hp : p ∈ rect) : steps rect direction p axis < side rect axis := by
  simp only [Rect.mem_iff, Rect.right, Rect.top] at hp
  cases axis with
  | x =>
    simp only [steps, side, Rect.right]
    split <;> omega
  | y =>
    simp only [steps, side, Rect.top]
    split <;> omega

/-- The distances of all cells of a row or a column from the start corner. -/
def distances (size length : Nat) : List Nat :=
  0 :: offsets size length

lemma distances_sorted (size length : Nat) :
    (distances size length).Pairwise fun a b => a + size ≤ b := by
  refine List.pairwise_cons.mpr ⟨?_, List.pairwise_map.mpr ?_⟩
  · intro along h
    obtain ⟨k, _, rfl⟩ := List.mem_map.mp h
    rw [Nat.zero_add]
    exact Nat.le_mul_of_pos_left size (Nat.succ_pos k)
  · refine List.pairwise_lt_range.imp ?_
    intro k k' hlt
    rw [← Nat.succ_mul]
    exact Nat.mul_le_mul_right size (Nat.succ_le_succ hlt)

lemma mem_distances {length : Nat} (positive : 0 < size) (nonempty : 0 < length) :
    along ∈ distances size length ↔ size ∣ along ∧ along < length := by
  rw [distances, List.mem_cons, mem_offsets positive]
  constructor
  · rintro (rfl | ⟨hdvd, _, hlt⟩)
    · exact ⟨Nat.dvd_zero size, nonempty⟩
    · exact ⟨hdvd, hlt⟩
  · rintro ⟨hdvd, hlt⟩
    by_cases hpos : 0 < along
    · exact Or.inr ⟨hdvd, hpos, hlt⟩
    · exact Or.inl (Nat.eq_zero_of_not_pos hpos)

lemma side_pos (rect : Rect) (axis : Axis) : 0 < side rect axis := by
  cases axis with
  | x => exact rect.width_pos
  | y => exact rect.height_pos

lemma tiles_strip (positive : 0 < size) (hstrip : strip rect direction size axis = .ok c)
    {cells : List Rect} (hcells : List.Forall₂
      (fun along cell => cellAlong rect direction size along axis = .ok cell)
      (distances size (side rect axis)) cells) : Rect.Tiles cells c := by
  have hmem := fun along =>
    @mem_distances size along (side rect axis) positive (side_pos rect axis)
  constructor
  · refine Layout.pairwise_of_forall₂ hcells (distances_sorted size (side rect axis)) ?_
    intro along h along' h' cell cell' hcell hcell' hle p hp hp'
    have hsteps := (mem_cellAlong_iff ((hmem along).mp h).2 hcell).mp hp
    have hsteps' := (mem_cellAlong_iff ((hmem along').mp h').2 hcell').mp hp'
    omega
  · intro p
    rw [mem_strip_iff hstrip]
    constructor
    · rintro ⟨hp, hacross⟩
      -- The cell that begins at the last multiple of the size before the pixel.
      have hdiv := Nat.mul_div_le (steps rect direction p axis) size
      have hlt := Nat.lt_mul_div_succ (steps rect direction p axis) positive
      have hside := @steps_lt rect direction axis p hp
      obtain ⟨cell, hcell, heq⟩ := exists_of_mem_left hcells
        ((hmem (size * (steps rect direction p axis / size))).mpr
          ⟨Nat.dvd_mul_right size _, Nat.lt_of_le_of_lt hdiv hside⟩)
      refine ⟨cell, hcell, (mem_cellAlong_iff (Nat.lt_of_le_of_lt hdiv hside) heq).mpr ?_⟩
      rw [Nat.mul_add_one] at hlt
      exact ⟨hp, ⟨hdiv, hlt⟩, hacross⟩
    · rintro ⟨cell, hcell, hp⟩
      obtain ⟨along, h, heq⟩ := exists_of_mem_right hcells hcell
      have hsteps := (mem_cellAlong_iff ((hmem along).mp h).2 heq).mp hp
      exact ⟨hsteps.1, hsteps.2.2⟩

lemma line_inside (hpos : 0 < along) (hlt : along < side rect axis) :
    rect.Inside axis (line rect direction along axis) := by
  cases axis with
  | x => exact columnLine_inside direction hpos hlt
  | y => exact rowLine_inside direction hpos hlt

/-- Pixels that come before a line are nearer to the start edge or farther from it, as the direction
has it. -/
lemma before_line_iff (hp : p ∈ rect)
    (inside : rect.Inside axis (line rect direction along axis)) :
    Rect.Before axis (line rect direction along axis) p ↔
      if ascends direction axis then steps rect direction p axis < along
      else along ≤ steps rect direction p axis := by
  simp only [Rect.mem_iff] at hp
  cases axis with
  | x =>
    simp only [Rect.Inside, Rect.Before, line, columnLine, steps, ascends] at inside ⊢
    by_cases hr : direction.rightward = true
    · simp only [hr, if_true] at inside ⊢
      omega
    · simp only [hr, if_false, Bool.false_eq_true] at inside ⊢
      omega
  | y =>
    simp only [Rect.Inside, Rect.Before, line, rowLine, steps, ascends] at inside ⊢
    by_cases hu : direction.upward = true
    · simp only [hu, if_true] at inside ⊢
      omega
    · simp only [hu, if_false, Bool.false_eq_true] at inside ⊢
      omega

lemma mem_far_iff (cut : rect.cut axis (line rect direction along axis) = .ok (low, high)) :
    p ∈ far (ascends direction axis) low high ↔
      p ∈ rect ∧ along ≤ steps rect direction p axis := by
  have inside := Rect.exists_cut_iff.mp ⟨low, high, cut⟩
  obtain ⟨hlow, hhigh⟩ := Rect.mem_of_cut cut p
  cases h : ascends direction axis with
  | true =>
    rw [far, if_pos rfl, hhigh]
    refine and_congr_right fun hp => ?_
    rw [before_line_iff hp inside, h, if_pos rfl, Nat.not_lt]
  | false =>
    rw [far, if_neg Bool.false_ne_true, hlow]
    refine and_congr_right fun hp => ?_
    rw [before_line_iff hp inside, h, if_neg Bool.false_ne_true]

lemma area_of_cut {position : Nat} (cut : rect.cut axis position = .ok (low, high)) :
    match axis with
    | .x => low.area = (position - rect.x) * rect.height ∧
        high.area = (rect.right - position) * rect.height
    | .y => low.area = rect.width * (position - rect.y) ∧
        high.area = rect.width * (rect.top - position) := by
  have inside := Rect.exists_cut_iff.mp ⟨low, high, cut⟩
  cases axis with
  | x =>
    have hcut : rect.cut .x position = .ok _ := dif_pos inside
    obtain ⟨rfl, rfl⟩ := Prod.mk.inj (Except.ok.inj (cut.symm.trans hcut))
    exact ⟨rfl, rfl⟩
  | y =>
    have hcut : rect.cut .y position = .ok _ := dif_pos inside
    obtain ⟨rfl, rfl⟩ := Prod.mk.inj (Except.ok.inj (cut.symm.trans hcut))
    exact ⟨rfl, rfl⟩

lemma area_far (cut : rect.cut axis (line rect direction along axis) = .ok (low, high)) :
    (far (ascends direction axis) low high).area = areaBeyond rect along axis := by
  have inside := Rect.exists_cut_iff.mp ⟨low, high, cut⟩
  have harea := area_of_cut cut
  cases axis with
  | x =>
    simp only [Rect.Inside, line, columnLine, ascends, far, areaBeyond, Rect.right] at *
    by_cases hr : direction.rightward = true
    · simp only [hr, if_true] at *
      rw [harea.2, Nat.add_sub_add_left]
    · simp only [hr, if_false, Bool.false_eq_true] at *
      rw [harea.1, Nat.sub_right_comm, Nat.add_sub_cancel_left]
  | y =>
    simp only [Rect.Inside, line, rowLine, ascends, far, areaBeyond, Rect.top] at *
    by_cases hu : direction.upward = true
    · simp only [hu, if_true] at *
      rw [harea.2, Nat.add_sub_add_left]
    · simp only [hu, if_false, Bool.false_eq_true] at *
      rw [harea.1, Nat.sub_right_comm, Nat.add_sub_cancel_left]

lemma startEdge_cellAlong (hlt : along < side rect axis)
    (hc : cellAlong rect direction size along axis = .ok c) :
    startEdge c direction axis = line rect direction along axis := by
  cases axis with
  | x =>
    obtain ⟨hx, _, hw, _⟩ := ofSize_eq_ok_iff.mp hc
    simp only [side] at hlt
    simp only [startEdge, line, columnLine, Rect.right] at hx ⊢
    rw [hx, hw]
    by_cases hr : direction.rightward = true
    · simp only [hr, if_true]
    · simp only [hr, if_false, Bool.false_eq_true]
      omega
  | y =>
    obtain ⟨_, hy, _, hh⟩ := ofSize_eq_ok_iff.mp hc
    simp only [side] at hlt
    simp only [startEdge, line, rowLine, Rect.top] at hy ⊢
    rw [hy, hh]
    by_cases hu : direction.upward = true
    · simp only [hu, if_true]
    · simp only [hu, if_false, Bool.false_eq_true]
      omega

/-- The cell so far along an axis is the beginning of what lies beyond the line there. -/
structure Begins (rect : Rect) (direction : Direction) (size along : Nat) (axis : Axis)
    (c low high : Rect) : Prop where
  cell_eq : cellAlong rect direction size along axis = .ok c
  inside : rect.Inside axis (line rect direction along axis)
  cut_eq : rect.cut axis (line rect direction along axis) = .ok (low, high)
  within : ∀ p : Nat × Nat, p ∈ c → p ∈ far (ascends direction axis) low high
  edge_eq : startEdge c direction axis = line rect direction along axis
  area_eq : (far (ascends direction axis) low high).area = areaBeyond rect along axis

lemma exists_begins (positive : 0 < size) (direction : Direction)
    (h : along ∈ offsets size (side rect axis)) :
    ∃ c low high, Begins rect direction size along axis c low high := by
  obtain ⟨_, hpos, hlt⟩ := (mem_offsets positive).mp h
  have inside := @line_inside rect direction along axis hpos hlt
  obtain ⟨c, hc⟩ := @exists_cellAlong rect direction size along axis positive hlt
  obtain ⟨low, high, cut⟩ := Rect.exists_cut_iff.mpr inside
  refine ⟨c, low, high, hc, inside, cut, ?_, startEdge_cellAlong hlt hc, area_far cut⟩
  intro p hp
  have hsteps := (mem_cellAlong_iff hlt hc).mp hp
  exact (mem_far_iff cut).mpr ⟨hsteps.1, hsteps.2.1.1⟩

variable {target : Raster} {epsilon : Float} {w w' : Walk} {cache : ColorCache}

/-- A look at a cell paints from it on if the color of the cell pays, at the price for the area
beyond the line, and does nothing else. -/
lemma runFrom_onAxis (hc : cellAlong w.block.rect direction size along axis = .ok c) :
    runFrom cache ((Look.onAxis along axis).take target epsilon direction size w) =
      (if Pays target w.painted c (asked target epsilon cache c).1
          (areaBeyond w.block.rect along axis) then
        w.paintBeyond axis (line w.block.rect direction along axis) (ascends direction axis)
          (asked target epsilon cache c).1 target.pricing
      else .ok w, (asked target epsilon cache c).2) := by
  cases axis with
  | x =>
    have hcell : cell w.block.rect direction along 0 size = .ok c := hc
    change runFrom cache (rowCell target epsilon direction size w along) = _
    rw [rowCell, runFrom_bind, hcell]
    change runFrom cache (liftM (pick target epsilon w.painted c (areaBeyond _ along .x)) >>= _) = _
    rw [runFrom_bind, runFrom_pick]
    by_cases pays : Pays target w.painted c (asked target epsilon cache c).1
      (areaBeyond w.block.rect along .x)
    · simp only [pays, if_true]
      rfl
    · simp only [pays, if_false]
      rfl
  | y =>
    have hcell : cell w.block.rect direction 0 along size = .ok c := hc
    change runFrom cache (columnCell target epsilon direction size w along) = _
    rw [columnCell, runFrom_bind, hcell]
    change runFrom cache (liftM (pick target epsilon w.painted c (areaBeyond _ along .y)) >>= _) = _
    rw [runFrom_bind, runFrom_pick]
    by_cases pays : Pays target w.painted c (asked target epsilon cache c).1
      (areaBeyond w.block.rect along .y)
    · simp only [pays, if_true]
      rfl
    · simp only [pays, if_false]
      rfl

/-- What painting from a cell on comes to: it needs a number for the merge, paints what lies beyond
the line and is charged the price for the area by which the paint was judged. -/
structure Charged (target : Raster) (direction : Direction) (along : Nat) (axis : Axis)
    (paint : Color) (low high : Rect) (w w' : Walk) : Prop where
  repainted : Repainted target.pricing axis (line w.block.rect direction along axis)
    (ascends direction axis) paint low high w w'
  painted_eq : w'.painted = w.painted.fill (far (ascends direction axis) low high) paint
  cost_eq : w'.cost = w.cost + (target.pricing.cost .lineCut w.block.rect.area +
    target.pricing.cost .color (areaBeyond w.block.rect along axis) +
    target.pricing.mergeCost low.area high.area)

lemma charged_of_begins (begins : Begins w.block.rect direction size along axis c low high)
    (paint : Color) (left : w.ids.next ≤ maxRoot) :
    ∃ w', w.paintBeyond axis (line w.block.rect direction along axis) (ascends direction axis) paint
        target.pricing = .ok w' ∧
      Charged target direction along axis paint low high w w' := by
  rcases paintBeyond_of_cut begins.cut_eq with ⟨none_left, _⟩ | ⟨_, w', h, repainted⟩
  · exact absurd left (Nat.not_le_of_lt none_left)
  · refine ⟨w', h, repainted, (painted_of_paintBeyond begins.cut_eq h).1, ?_⟩
    rw [← begins.area_eq]
    exact repainted.cost_eq

lemma rest_of_reaches {m m' : Moment} (reaches : Reaches target epsilon direction size m m')
    (begun : m.rest <:+ looks m.rect size) : m'.rest <:+ looks m'.rect size := by
  induction reaches with
  | refl => exact begun
  | tail _ step ih =>
    cases step with
    | look ran paints => exact (List.suffix_cons _ _).trans ih
    | onward large cut next => exact List.suffix_rfl

lemma mem_looks_onAxis : Look.onAxis along axis ∈ looks rect size ↔
    along ∈ offsets size (side rect axis) := by
  cases axis with
  | x => simp [looks, Look.onAxis, side]
  | y => simp [looks, Look.onAxis, side]

/-- Whatever the direction and the cell size, the cells of the first row of a rectangle, the one in
the corner and those at all multiples of the size below the width, tile the rows at the start edge,
and likewise for the first column. For every later one the line runs strictly inside the rectangle,
the cell begins on it and lies in the part beyond, and the area of this part is the one by which a
paint is judged: a look at the cell paints the part if the paint pays at the price for this area,
and is charged this price. In every run each cell that is looked at is one of these for the block
that the walk is then in. Rectangles may also end beyond `maxCoordinate`, where the far edge would
overflow a word; no block on a raster whose sides fit a word does. -/
theorem cells_begin_at_cuts (positive : 0 < size) (direction : Direction) (axis : Axis) :
    (∀ rect,
      (∀ along, along ∈ distances size (side rect axis) ↔ size ∣ along ∧ along < side rect axis) ∧
      (∃ whole cells, strip rect direction size axis = .ok whole ∧
        (distances size (side rect axis)).mapM (cellAlong rect direction size · axis) = .ok cells ∧
        Rect.Tiles cells whole) ∧
      ∀ along ∈ offsets size (side rect axis), ∃ c low high,
        Begins rect direction size along axis c low high ∧
        ∀ target epsilon w cache, w.block.rect = rect →
          runFrom cache ((Look.onAxis along axis).take target epsilon direction size w) =
            (if Pays target w.painted c (asked target epsilon cache c).1
                (areaBeyond rect along axis) then
              w.paintBeyond axis (line rect direction along axis) (ascends direction axis)
                (asked target epsilon cache c).1 target.pricing
            else .ok w, (asked target epsilon cache c).2) ∧
          ∀ paint, w.ids.next ≤ maxRoot →
            ∃ w', w.paintBeyond axis (line rect direction along axis) (ascends direction axis)
                paint target.pricing = .ok w' ∧
              Charged target direction along axis paint low high w w') ∧
    ∀ target epsilon start painted ids cache m along rest,
      Reaches target epsilon direction size (Moment.first start painted ids size cache) m →
      m.rest = Look.onAxis along axis :: rest →
      m.walk.block.rect = m.rect ∧ along ∈ offsets size (side m.rect axis) := by
  constructor
  · intro rect
    refine ⟨fun along => mem_distances positive (side_pos rect axis), ?_, ?_⟩
    · obtain ⟨whole, hwhole⟩ := @exists_strip rect direction size axis positive
      obtain ⟨cells, hcells⟩ := exists_forall₂ fun along h =>
        @exists_cellAlong rect direction size along axis positive
          ((mem_distances positive (side_pos rect axis)).mp h).2
      exact ⟨whole, cells, hwhole, mapM_eq_ok.mpr hcells, tiles_strip positive hwhole hcells⟩
    · intro along h
      obtain ⟨c, low, high, begins⟩ := exists_begins positive direction h
      refine ⟨c, low, high, begins, ?_⟩
      rintro target epsilon w cache rfl
      exact ⟨runFrom_onAxis begins.cell_eq, charged_of_begins begins⟩
  · intro target epsilon start painted ids cache m along rest reaches hrest
    have rect_eq := (balanced_of_reaches reaches (balanced_start start ids) rfl).2
    have suffix := rest_of_reaches reaches List.suffix_rfl
    rw [hrest] at suffix
    exact ⟨rect_eq, mem_looks_onAxis.mp (suffix.subset List.mem_cons_self)⟩

/-- A walk up and to the left through a square whose side no cell divides. -/
def unevenWalk : Walk :=
  Walk.start ⟨.top 0, ⟨0, 0, 25, 25, by decide, by decide⟩, some .white⟩
    (.filled 25 25 .white) ⟨1⟩

/-- The three cells tile the ten rows at the bottom, the last one is five columns wide, and what is
painted from it on is charged as the five columns that it is. -/
theorem cells_begin_at_cuts_of_unevenWalk :
    (∃ cells, [0, 10, 20].mapM (cellAlong unevenWalk.block.rect .upLeft 10 · .x) = .ok cells ∧
      Rect.Tiles cells ⟨0, 0, 25, 10, by decide, by decide⟩) ∧
    ∃ low high w', Begins unevenWalk.block.rect .upLeft 10 20 .x
        ⟨0, 0, 5, 10, by decide, by decide⟩ low high ∧
      unevenWalk.paintBeyond .x 5 false .black (Raster.filled 25 25 .white).pricing = .ok w' ∧
      w'.painted = unevenWalk.painted.fill low .black ∧ low.area = 125 := by
  obtain ⟨hrects, _⟩ := @cells_begin_at_cuts 10 (by decide) .upLeft .x
  obtain ⟨_, ⟨whole, cells, hwhole, hcells, tiles⟩, hlater⟩ := hrects unevenWalk.block.rect
  obtain ⟨c, low, high, begins, hlooks⟩ := hlater 20 (by decide)
  have hrows : strip unevenWalk.block.rect .upLeft 10 .x = .ok ⟨0, 0, 25, 10, _, _⟩ := rfl
  have hlast : cellAlong unevenWalk.block.rect .upLeft 10 20 .x = .ok ⟨0, 0, 5, 10, _, _⟩ := rfl
  obtain rfl := Except.ok.inj (hrows.symm.trans hwhole)
  obtain rfl := Except.ok.inj (hlast.symm.trans begins.cell_eq)
  obtain ⟨w', hw', charged⟩ := (hlooks (.filled 25 25 .white) 0.5 unevenWalk .empty rfl).2 .black
    (by decide)
  exact ⟨⟨cells, hcells, tiles⟩, low, high, w', begins, hw', charged.painted_eq, begins.area_eq⟩

end BlockPainting.GridWalk
