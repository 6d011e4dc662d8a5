import BlockPainting.Proofs.Board.Tiled

/-!
# Footprints of strokes

A stroke changes pixels of its rectangles only, and what these become depends on these rectangles
only. So strokes whose rectangles share no pixel can be made in either order.
-/

namespace BlockPainting

def Stroke.footprint : Stroke → List Rect
  | .keep => []
  | .fill rect _ => [rect]
  | .exchange a b => [a, b]

/-- The stroke stays on a raster of this size, and an exchange is one of two places. -/
def Stroke.Fits (width height : Nat) : Stroke → Prop
  | .keep => True
  | .fill rect _ => rect.Within width height
  | .exchange a b =>
    a.Within width height ∧ b.Within width height ∧ a.sameSize b ∧ a.Apart b

def Covered (rects : List Rect) (p : Nat × Nat) : Prop :=
  ∃ rect ∈ rects, p ∈ rect

lemma Stroke.Fits.within {s : Stroke} {width height : Nat} (fits : s.Fits width height) :
    ∀ rect ∈ s.footprint, rect.Within width height := by
  intro rect hmem
  cases s with
  | keep => cases hmem
  | fill other paint =>
    obtain rfl := List.mem_singleton.mp hmem
    exact fits
  | exchange a b =>
    simp only [footprint, List.mem_cons, List.not_mem_nil, or_false] at hmem
    rcases hmem with rfl | rfl
    · exact fits.1
    · exact fits.2.1

lemma Stroke.Fits.lt_of_covered {s : Stroke} {width height : Nat} (fits : s.Fits width height)
    {p : Nat × Nat} (hp : Covered s.footprint p) : p.1 < width ∧ p.2 < height := by
  obtain ⟨rect, hmem, hp⟩ := hp
  exact (fits.within rect hmem).lt hp

namespace Raster

variable {r r' : Raster} {s t : Stroke}

lemma pixel_stroke_of_not_covered (fits : s.Fits r.width r.height) {x y : Nat} (hx : x < r.width)
    (hy : y < r.height) (out : ¬ Covered s.footprint (x, y)) :
    (r.stroke s).pixel x y = r.pixel x y := by
  cases s with
  | keep => rfl
  | fill rect paint =>
    have hout : (x, y) ∉ rect := fun hp => out ⟨rect, List.mem_singleton_self rect, hp⟩
    exact (pixel_fill paint fits.1 hx hy).trans (if_neg hout)
  | exchange a b =>
    obtain ⟨ha, hb, same, apart⟩ := fits
    refine (pixel_exchange same apart ha hb).2 x y hx hy ?_ ?_
    · exact fun hp => out ⟨a, List.mem_cons_self, hp⟩
    · exact fun hp => out ⟨b, List.mem_cons_of_mem a (List.mem_singleton_self b), hp⟩

lemma pixel_stroke_of_covered (fits : s.Fits r.width r.height) (width_eq : r'.width = r.width)
    (height_eq : r'.height = r.height)
    (agree : ∀ p, Covered s.footprint p → r'.pixel p.1 p.2 = r.pixel p.1 p.2) {p : Nat × Nat}
    (hp : Covered s.footprint p) : (r'.stroke s).pixel p.1 p.2 = (r.stroke s).pixel p.1 p.2 := by
  cases s with
  | keep => exact agree p hp
  | fill rect paint =>
    obtain ⟨_, hmem, hp⟩ := hp
    obtain rfl := List.mem_singleton.mp hmem
    have hlt := fits.lt hp
    have fits' := fits
    rw [← width_eq, ← height_eq] at fits'
    have hfill := pixel_fill paint fits.1 hlt.1 hlt.2
    have hfill' := pixel_fill paint fits'.1 (width_eq ▸ hlt.1) (height_eq ▸ hlt.2)
    rw [if_pos hp] at hfill hfill'
    exact hfill'.trans hfill.symm
  | exchange a b =>
    obtain ⟨ha, hb, same, apart⟩ := fits
    have ha' := ha
    have hb' := hb
    rw [← width_eq, ← height_eq] at ha' hb'
    have hcover : ∀ q, q ∈ a ∨ q ∈ b → r'.pixel q.1 q.2 = r.pixel q.1 q.2 := by
      intro q hq
      refine agree q ?_
      rcases hq with hq | hq
      · exact ⟨a, List.mem_cons_self, hq⟩
      · exact ⟨b, List.mem_cons_of_mem a (List.mem_singleton_self b), hq⟩
    have hmoved := (pixel_exchange same apart ha hb).1
    have hmoved' := (pixel_exchange same apart ha' hb').1
    obtain ⟨rect, hmem, hp⟩ := hp
    simp only [Stroke.footprint, List.mem_cons, List.not_mem_nil, or_false] at hmem
    simp only [stroke]
    rcases hmem with rfl | rfl
    · rw [(hmoved p hp).1, (hmoved' p hp).1]
      exact hcover _ (Or.inr (moved_mem same hp))
    · -- A place in `b` is where a place in `a` moves to.
      have same' : rect.sameSize a := Rect.sameSize_comm.symm.trans same
      have hback := moved_mem same' hp
      have h := (hmoved _ hback).2
      have h' := (hmoved' _ hback).2
      rw [moved_moved hp] at h h'
      rw [h, h']
      exact hcover _ (Or.inl hback)

/-- Of two strokes with disjoint footprints, in either order, each has the effect on its footprint
that it has alone. -/
lemma pixel_stroke_stroke (fits : s.Fits r.width r.height) (fits' : t.Fits r.width r.height)
    (apart : ∀ a ∈ s.footprint, ∀ b ∈ t.footprint, a.Apart b) {p : Nat × Nat} (hx : p.1 < r.width)
    (hy : p.2 < r.height) (hp : Covered s.footprint p) :
    ((r.stroke s).stroke t).pixel p.1 p.2 = (r.stroke s).pixel p.1 p.2 ∧
      ((r.stroke t).stroke s).pixel p.1 p.2 = (r.stroke s).pixel p.1 p.2 := by
  have hout : ∀ q, Covered s.footprint q → ¬ Covered t.footprint q := by
    rintro q ⟨a, ha, hqa⟩ ⟨b, hb, hqb⟩
    exact apart a ha b hb q hqa hqb
  constructor
  · have fits'' : t.Fits (r.stroke s).width (r.stroke s).height := by simpa using fits'
    exact pixel_stroke_of_not_covered fits'' (by simpa using hx) (by simpa using hy) (hout p hp)
  · refine pixel_stroke_of_covered fits (by simp) (by simp) ?_ hp
    intro q hq
    have hlt := fits.lt_of_covered hq
    exact pixel_stroke_of_not_covered fits' hlt.1 hlt.2 (hout q hq)

theorem stroke_comm (fits : s.Fits r.width r.height) (fits' : t.Fits r.width r.height)
    (apart : ∀ a ∈ s.footprint, ∀ b ∈ t.footprint, a.Apart b) :
    (r.stroke s).stroke t = (r.stroke t).stroke s := by
  refine eq_of_pixel_eq (by simp) (by simp) ?_
  intro x y hx hy
  simp only [Board.width_stroke, Board.height_stroke] at hx hy
  by_cases hs : Covered s.footprint (x, y)
  · obtain ⟨h, h'⟩ := pixel_stroke_stroke fits fits' apart hx hy hs
    exact h.trans h'.symm
  · by_cases ht : Covered t.footprint (x, y)
    · have apart' : ∀ b ∈ t.footprint, ∀ a ∈ s.footprint, b.Apart a :=
        fun b hb a ha => Std.Symm.symm _ _ (apart a ha b hb)
      obtain ⟨h, h'⟩ := pixel_stroke_stroke fits' fits apart' hx hy ht
      exact h'.trans h.symm
    · have fitst : t.Fits (r.stroke s).width (r.stroke s).height := by simpa using fits'
      have fitss : s.Fits (r.stroke t).width (r.stroke t).height := by simpa using fits
      rw [pixel_stroke_of_not_covered fitst (by simpa using hx) (by simpa using hy) ht,
        pixel_stroke_of_not_covered fitss (by simpa using hx) (by simpa using hy) hs,
        pixel_stroke_of_not_covered fits hx hy hs, pixel_stroke_of_not_covered fits' hx hy ht]

end Raster

end BlockPainting
