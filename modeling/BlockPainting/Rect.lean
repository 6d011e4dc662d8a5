import BlockPainting.Number.ExactDouble

/-!
# Rectangles on the pixel grid

The origin is the bottom-left corner and `y` grows upward. A rectangle covers the columns
`x .. right` and the rows `y .. top`, both half open, and is never empty. Cuts make new rectangles
that tile the old one.
-/

namespace BlockPainting

def maxCoordinate : Nat := maxWord

/-- The direction a line cut is measured in: a cut at some `x` is vertical, one at some `y`
horizontal. -/
inductive Axis where
  | x
  | y
  deriving DecidableEq

/-- The name of an axis in messages and programs. -/
def Axis.text : Axis → String
  | .x => "x"
  | .y => "y"

/-- A rectangle with positive width and height. -/
structure Rect where
  x : Nat
  y : Nat
  width : Nat
  height : Nat
  width_pos : 0 < width
  height_pos : 0 < height
  deriving DecidableEq

/-- What a point cut leaves, in this order. -/
structure Quarters (α : Type) where
  bottomLeft : α
  bottomRight : α
  topRight : α
  topLeft : α

namespace Quarters

variable {α β : Type}

def toList (q : Quarters α) : List α :=
  [q.bottomLeft, q.bottomRight, q.topRight, q.topLeft]

/-- Applies a function to each quarter, told the quarter's place in the order. -/
def mapIdx (f : Nat → α → β) (q : Quarters α) : Quarters β :=
  ⟨f 0 q.bottomLeft, f 1 q.bottomRight, f 2 q.topRight, f 3 q.topLeft⟩

end Quarters

inductive GeometryError where
  | degenerate (x1 y1 x2 y2 : Nat)
  /-- The cut does not run through the inside of the rectangle. -/
  | cutOutside (axis : Axis) (position : Nat) (rect : Rect)
  | notAdjacent (a b : Rect)
  | sizeMismatch (a b : Rect)
  | selfSwap (rect : Rect)
  | idsExhausted

namespace Rect

def right (r : Rect) : Nat := r.x + r.width

def top (r : Rect) : Nat := r.y + r.height

def area (r : Rect) : Nat := r.width * r.height

/-- A pixel `(i, j)` lies in a rectangle when its column and its row do. -/
instance : Membership (Nat × Nat) Rect where
  mem r p := (r.x ≤ p.1 ∧ p.1 < r.right) ∧ (r.y ≤ p.2 ∧ p.2 < r.top)

instance (p : Nat × Nat) (r : Rect) : Decidable (p ∈ r) :=
  inferInstanceAs (Decidable ((r.x ≤ p.1 ∧ p.1 < r.right) ∧ (r.y ≤ p.2 ∧ p.2 < r.top)))

/-- Rectangles are ordered by `x`, then `y`, then width, then height. -/
instance : Ord Rect where
  compare a b :=
    (compare a.x b.x).then <| (compare a.y b.y).then <|
      (compare a.width b.width).then (compare a.height b.height)

instance : Hashable Rect where
  hash r := mixHash (mixHash (hash r.x) (hash r.y)) (mixHash (hash r.width) (hash r.height))

/-- The corners as `[x, y]..[right, top]`. -/
def text (r : Rect) : String :=
  s!"[{r.x}, {r.y}]..[{r.right}, {r.top}]"

/-- The rectangle with a given bottom-left corner and size. -/
def ofSize (x y width height : Nat) : Except GeometryError Rect :=
  if h : 0 < width ∧ 0 < height then
    .ok ⟨x, y, width, height, h.1, h.2⟩
  else
    .error (.degenerate x y (min (x + width) maxCoordinate) (min (y + height) maxCoordinate))

/-- The rectangle between a bottom-left and a top-right corner. -/
def ofCorners (x1 y1 x2 y2 : Nat) : Except GeometryError Rect :=
  if h : x1 < x2 ∧ y1 < y2 then
    .ok ⟨x1, y1, x2 - x1, y2 - y1, by omega, by omega⟩
  else
    .error (.degenerate x1 y1 x2 y2)

/-- Cuts along the vertical line at `x` into the left and the right part. -/
def cutX (r : Rect) (x : Nat) : Except GeometryError (Rect × Rect) :=
  if h : r.x < x ∧ x < r.right then
    have hx : x < r.x + r.width := h.2
    .ok (⟨r.x, r.y, x - r.x, r.height, by omega, r.height_pos⟩,
      ⟨x, r.y, r.right - x, r.height, by unfold right; omega, r.height_pos⟩)
  else
    .error (.cutOutside .x x r)

/-- Cuts along the horizontal line at `y` into the bottom and the top part. -/
def cutY (r : Rect) (y : Nat) : Except GeometryError (Rect × Rect) :=
  if h : r.y < y ∧ y < r.top then
    have hy : y < r.y + r.height := h.2
    .ok (⟨r.x, r.y, r.width, y - r.y, r.width_pos, by omega⟩,
      ⟨r.x, y, r.width, r.top - y, r.width_pos, by unfold top; omega⟩)
  else
    .error (.cutOutside .y y r)

/-- Cuts along one line: the part nearer the origin comes first. -/
def cut (r : Rect) : Axis → Nat → Except GeometryError (Rect × Rect)
  | .x, x => r.cutX x
  | .y, y => r.cutY y

/-- Cuts at a point into four. Both coordinates must lie strictly inside, `x` being looked at
first. -/
def cutPoint (r : Rect) (x y : Nat) : Except GeometryError (Quarters Rect) :=
  if hx : r.x < x ∧ x < r.right then
    if hy : r.y < y ∧ y < r.top then
      have hx' : x < r.x + r.width := hx.2
      have hy' : y < r.y + r.height := hy.2
      have left : 0 < x - r.x := by omega
      have hright : 0 < r.right - x := by unfold right; omega
      have lower : 0 < y - r.y := by omega
      have upper : 0 < r.top - y := by unfold top; omega
      .ok {
        bottomLeft := ⟨r.x, r.y, x - r.x, y - r.y, left, lower⟩
        bottomRight := ⟨x, r.y, r.right - x, y - r.y, hright, lower⟩
        topRight := ⟨x, y, r.right - x, r.top - y, hright, upper⟩
        topLeft := ⟨r.x, y, x - r.x, r.top - y, left, upper⟩ }
    else
      .error (.cutOutside .y y r)
  else
    .error (.cutOutside .x x r)

def overlaps (a b : Rect) : Bool :=
  decide (b.x < a.right ∧ a.x < b.right ∧ b.y < a.top ∧ a.y < b.top)

/-- Whether `b` lies within `a`. -/
def contains (a b : Rect) : Bool :=
  decide (a.x ≤ b.x ∧ b.right ≤ a.right ∧ a.y ≤ b.y ∧ b.top ≤ a.top)

/-- The common part of two rectangles, if there is one. -/
def intersection (a b : Rect) : Option Rect :=
  (ofCorners (max a.x b.x) (max a.y b.y) (min a.right b.right) (min a.top b.top)).toOption

/-- Whether both rectangles have the same width and the same height. -/
def sameSize (a b : Rect) : Bool :=
  decide (a.width = b.width ∧ a.height = b.height)

/-- The rectangle made of two that share a whole edge. -/
def join (a b : Rect) : Except GeometryError Rect :=
  if a.x = b.x ∧ a.width = b.width ∧ (a.top = b.y ∨ b.top = a.y) then
    .ok ⟨a.x, min a.y b.y, a.width, a.height + b.height, a.width_pos,
      Nat.add_pos_left a.height_pos _⟩
  else if a.y = b.y ∧ a.height = b.height ∧ (a.right = b.x ∨ b.right = a.x) then
    .ok ⟨min a.x b.x, a.y, a.width + b.width, a.height,
      Nat.add_pos_left a.width_pos _, a.height_pos⟩
  else
    .error (.notAdjacent a b)

/-- Visits the pixels row by row from the bottom, each row from the left. -/
@[specialize] def foldCells {α : Type} (r : Rect) (f : α → Nat → Nat → α) (init : α) : α :=
  r.height.fold (fun j _ acc => r.width.fold (fun i _ acc => f acc (r.x + i) (r.y + j)) acc) init

/-- The pixels row by row from the bottom, each row from the left. -/
def cells (r : Rect) : List (Nat × Nat) :=
  (List.range r.height).flatMap fun j => (List.range r.width).map fun i => (r.x + i, r.y + j)

/-- What every visit keeps, the whole walk keeps. -/
theorem foldCells_induction {α : Type} (P : α → Prop) (r : Rect) (f : α → Nat → Nat → α)
    (init : α) (hinit : P init) (step : ∀ acc i j, P acc → P (f acc i j)) :
    P (r.foldCells f init) := by
  have row : ∀ (y n : Nat) (acc : α), P acc →
      P (n.fold (fun i _ acc => f acc (r.x + i) y) acc) := by
    intro y n
    induction n with
    | zero => intro acc h; simpa using h
    | succ n ih => intro acc h; simpa using step _ _ _ (ih acc h)
  have rows : ∀ (n : Nat),
      P (n.fold (fun j _ acc => r.width.fold (fun i _ acc => f acc (r.x + i) (r.y + j)) acc)
        init) := by
    intro n
    induction n with
    | zero => simpa using hinit
    | succ n ih => simpa using row _ _ _ ih
  exact rows r.height

end Rect

namespace GeometryError

def message : GeometryError → String
  | degenerate x1 y1 x2 y2 =>
    s!"degenerate shape: corners ({x1}, {y1}) and ({x2}, {y2}) span no area"
  | cutOutside axis position rect =>
    s!"cut at {axis.text} = {position} is outside the interior of {rect.text}"
  | notAdjacent a b => s!"{a.text} and {b.text} are not edge-adjacent with equal edge length"
  | sizeMismatch a b => s!"{a.text} and {b.text} differ in size"
  | selfSwap rect => s!"cannot swap {rect.text} with itself"
  | idsExhausted => "no top-level block ids left"

end GeometryError

end BlockPainting
