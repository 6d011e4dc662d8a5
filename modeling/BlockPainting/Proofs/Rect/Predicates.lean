import BlockPainting.Proofs.Rect.Cuts
import BlockPainting.Proofs.Success

/-!
# What edges tell about pixels

Overlaps, containment, common parts and joins are all decided from the edges of two rectangles. Each
of these decisions is one about their pixels. In particular, disjoint rectangles can be joined
exactly if their pixels together are those of a rectangle: each of the two then holds two corners of
it, at the ends of one side.
-/

namespace BlockPainting.Rect

open Success

variable {a b r : Rect}

lemma overlaps_iff : a.overlaps b = true ↔ ∃ p : Nat × Nat, p ∈ a ∧ p ∈ b := by
  have h := not_congr (@not_overlaps_iff a b)
  rw [Bool.not_eq_false] at h
  simpa only [Apart, not_forall, not_not, exists_prop] using h

lemma subset_iff : (∀ p : Nat × Nat, p ∈ b → p ∈ a) ↔
    a.x ≤ b.x ∧ b.right ≤ a.right ∧ a.y ≤ b.y ∧ b.top ≤ a.top := by
  constructor
  · intro h
    have hlow := h _ b.bottomLeft_mem
    have hhigh := h _ b.topRight_mem
    simp only [mem_iff] at hlow hhigh
    omega
  · intro h p hp
    simp only [mem_iff] at hp ⊢
    omega

lemma contains_iff : a.contains b = true ↔ ∀ p : Nat × Nat, p ∈ b → p ∈ a := by
  rw [subset_iff, contains, decide_eq_true_eq]

lemma mem_of_intersection (h : a.intersection b = some r) (p : Nat × Nat) :
    p ∈ r ↔ p ∈ a ∧ p ∈ b := by
  obtain ⟨hx, hy, hright, htop⟩ := ofCorners_eq_ok_iff.mp (toOption_eq_some_iff.mp h)
  simp only [mem_iff]
  omega

lemma exists_intersection_iff :
    (∃ r, a.intersection b = some r) ↔ ∃ p : Nat × Nat, p ∈ a ∧ p ∈ b := by
  constructor
  · rintro ⟨r, h⟩
    exact ⟨_, (mem_of_intersection h _).mp r.bottomLeft_mem⟩
  · rintro ⟨p, ha, hb⟩
    simp only [mem_iff] at ha hb
    have hspan : max a.x b.x < min a.right b.right ∧ max a.y b.y < min a.top b.top := by omega
    exact ⟨_, toOption_eq_some_iff.mpr (dif_pos hspan)⟩

lemma intersection_eq_some_iff :
    a.intersection b = some r ↔ ∀ p : Nat × Nat, p ∈ r ↔ p ∈ a ∧ p ∈ b := by
  constructor
  · exact mem_of_intersection
  · intro h
    obtain ⟨common, hcommon⟩ := exists_intersection_iff.mpr ⟨_, (h _).mp r.bottomLeft_mem⟩
    have heq : common = r :=
      eq_of_mem_iff fun p => (mem_of_intersection hcommon p).trans (h p).symm
    rw [hcommon, heq]

lemma Adjacent.symm (h : a.Adjacent b) : b.Adjacent a := by
  rcases h with ⟨hx, hright, hedge⟩ | ⟨hy, htop, hedge⟩
  · exact Or.inl ⟨hx.symm, hright.symm, hedge.symm⟩
  · exact Or.inr ⟨hy.symm, htop.symm, hedge.symm⟩

lemma Adjacent.apart (h : a.Adjacent b) : a.Apart b := by
  intro p ha hb
  simp only [mem_iff] at ha hb
  unfold Adjacent at h
  omega

section Union

variable (apart : a.Apart b) (union : ∀ p : Nat × Nat, p ∈ r ↔ p ∈ a ∨ p ∈ b)

include apart union

/-- Neither of two disjoint rectangles holds all pixels of their union. -/
lemma exists_not_mem_of_union : ∃ p : Nat × Nat, p ∈ r ∧ p ∉ a :=
  ⟨_, (union _).mpr (Or.inr b.bottomLeft_mem), fun ha => apart _ ha b.bottomLeft_mem⟩

/-- A rectangle with two opposite corners of the union would hold all of it. -/
lemma not_opposite_of_union :
    ¬ ((r.x, r.y) ∈ a ∧ (r.right - 1, r.top - 1) ∈ a) ∧
      ¬ ((r.x, r.top - 1) ∈ a ∧ (r.right - 1, r.y) ∈ a) := by
  obtain ⟨p, hr, ha⟩ := exists_not_mem_of_union apart union
  simp only [mem_iff] at hr ha ⊢
  omega

lemma right_eq_of_union (left : (r.x, r.y) ∈ a ∧ (r.x, r.top - 1) ∈ a)
    (right : (r.right - 1, r.y) ∈ b ∧ (r.right - 1, r.top - 1) ∈ b) :
    a.y = b.y ∧ a.top = b.top ∧ a.right = b.x := by
  have ha := subset_iff.mp fun p hp => (union p).mpr (Or.inl hp)
  have hb := subset_iff.mp fun p hp => (union p).mpr (Or.inr hp)
  -- The first column of `b` is beyond `a`, and the first column beyond `a` can only be in `b`.
  have hcolumn := apart (b.x, r.y)
  have hbeyond := (union (a.right, r.y)).mp
  simp only [mem_iff] at left right hcolumn hbeyond
  omega

lemma top_eq_of_union (lower : (r.x, r.y) ∈ a ∧ (r.right - 1, r.y) ∈ a)
    (upper : (r.x, r.top - 1) ∈ b ∧ (r.right - 1, r.top - 1) ∈ b) :
    a.x = b.x ∧ a.right = b.right ∧ a.top = b.y := by
  have ha := subset_iff.mp fun p hp => (union p).mpr (Or.inl hp)
  have hb := subset_iff.mp fun p hp => (union p).mpr (Or.inr hp)
  have hrow := apart (r.x, b.y)
  have habove := (union (r.x, a.top)).mp
  simp only [mem_iff] at lower upper hrow habove
  omega

/-- The rectangle with the bottom-left corner holds a second corner, next to the first. -/
lemma adjacent_of_corner (corner : (r.x, r.y) ∈ a) : a.Adjacent b := by
  have union' : ∀ p : Nat × Nat, p ∈ r ↔ p ∈ b ∨ p ∈ a := fun p => (union p).trans or_comm
  have hdiagonal := not_opposite_of_union apart union
  have hdiagonal' := not_opposite_of_union (Std.Symm.symm _ _ apart) union'
  have hcorners : (r.right - 1, r.y) ∈ r ∧ (r.x, r.top - 1) ∈ r := by
    have hlow := r.bottomLeft_mem
    have hhigh := r.topRight_mem
    simp only [mem_iff] at hlow hhigh ⊢
    omega
  -- No two opposite corners are both in `a`, so the other one is in `b`.
  have hopposite : (r.right - 1, r.top - 1) ∈ b :=
    ((union _).mp r.topRight_mem).resolve_left fun h => hdiagonal.1 ⟨corner, h⟩
  -- The third corner tells whether they are side by side or one above the other.
  rcases (union _).mp hcorners.2 with hleft | hleft
  · have hright : (r.right - 1, r.y) ∈ b :=
      ((union _).mp hcorners.1).resolve_left fun h => hdiagonal.2 ⟨hleft, h⟩
    obtain ⟨hy, htop, hedge⟩ := right_eq_of_union apart union ⟨corner, hleft⟩ ⟨hright, hopposite⟩
    exact Or.inr ⟨hy, htop, Or.inl hedge⟩
  · have hright : (r.right - 1, r.y) ∈ a :=
      ((union _).mp hcorners.1).resolve_right fun h => hdiagonal'.2 ⟨hleft, h⟩
    obtain ⟨hx, hright, hedge⟩ := top_eq_of_union apart union ⟨corner, hright⟩ ⟨hleft, hopposite⟩
    exact Or.inl ⟨hx, hright, Or.inl hedge⟩

/-- Disjoint rectangles whose pixels together are those of a rectangle share a whole edge. -/
lemma adjacent_of_union : a.Adjacent b := by
  rcases (union _).mp r.bottomLeft_mem with corner | corner
  · exact adjacent_of_corner apart union corner
  · exact (adjacent_of_corner (Std.Symm.symm _ _ apart) (fun p => (union p).trans or_comm)
      corner).symm

end Union

lemma join_eq_ok_iff :
    a.join b = .ok r ↔ a.Apart b ∧ ∀ p : Nat × Nat, p ∈ r ↔ p ∈ a ∨ p ∈ b := by
  constructor
  · intro h
    exact ⟨(exists_join_iff.mp ⟨r, h⟩).apart, join_mem_iff h⟩
  · rintro ⟨apart, union⟩
    obtain ⟨joined, hjoined⟩ := exists_join_iff.mpr (adjacent_of_union apart union)
    have heq : joined = r := eq_of_mem_iff fun p => (join_mem_iff hjoined p).trans (union p).symm
    rw [hjoined, heq]

lemma join_comm_iff : a.join b = .ok r ↔ b.join a = .ok r := by
  rw [join_eq_ok_iff, join_eq_ok_iff]
  exact and_congr ⟨Std.Symm.symm _ _, Std.Symm.symm _ _⟩
    (forall_congr' fun p => iff_congr Iff.rfl or_comm)

/-- Two rectangles overlap if and only if they share a pixel, and then the pixels of their
intersection are the common ones; otherwise there is no intersection. One contains the other if and
only if all pixels of the other lie in it. They can be joined, in either order, if and only if they
share no pixel and their pixels together are those of a rectangle, which is then the result. On a
raster that holds both, all these rectangles lie, too; so far edges that fit a word still do. -/
theorem predicates_tell_pixels (a b : Rect) :
    (a.overlaps b = true ↔ ∃ p : Nat × Nat, p ∈ a ∧ p ∈ b) ∧
    (a.overlaps b = true ↔ ∃ r, a.intersection b = some r) ∧
    (∀ r, a.intersection b = some r ↔ ∀ p : Nat × Nat, p ∈ r ↔ p ∈ a ∧ p ∈ b) ∧
    (a.contains b = true ↔ ∀ p : Nat × Nat, p ∈ b → p ∈ a) ∧
    ((∃ r, a.join b = .ok r) ↔ (∀ p : Nat × Nat, p ∈ a → p ∉ b) ∧
      ∃ r : Rect, ∀ p : Nat × Nat, p ∈ r ↔ p ∈ a ∨ p ∈ b) ∧
    (∀ r, a.join b = .ok r → (∀ p : Nat × Nat, p ∈ r ↔ p ∈ a ∨ p ∈ b) ∧
      ∀ r' : Rect, (∀ p : Nat × Nat, p ∈ r' ↔ p ∈ a ∨ p ∈ b) → r' = r) ∧
    (∀ r, a.join b = .ok r ↔ b.join a = .ok r) ∧
    ∀ r, a.intersection b = some r ∨ a.join b = .ok r → ∀ width height,
      a.Within width height → b.Within width height → r.Within width height := by
  refine ⟨overlaps_iff, overlaps_iff.trans exists_intersection_iff.symm,
    fun r => intersection_eq_some_iff, contains_iff, ?_, ?_, fun r => join_comm_iff, ?_⟩
  · simp only [join_eq_ok_iff, exists_and_left]
    rfl
  · intro r h
    exact ⟨join_mem_iff h, fun r' union =>
      eq_of_mem_iff fun p => (union p).trans (join_mem_iff h p).symm⟩
  · intro r h width height within within'
    refine within_of_mem fun p hp => ?_
    rcases h with common | joined
    · exact within.lt ((mem_of_intersection common p).mp hp).1
    · rcases (join_mem_iff joined p).mp hp with hp | hp
      · exact within.lt hp
      · exact within'.lt hp

/-- A column of two pixels that ends so many columns before the last coordinate. -/
def lateColumn (before : Nat) : Rect :=
  ⟨maxCoordinate - 1 - before, maxCoordinate - 2, 1, 2, Nat.one_pos, Nat.two_pos⟩

theorem predicates_tell_pixels_of_lateColumns :
    (lateColumn 1).overlaps (lateColumn 0) = false ∧
    ∃ r, (lateColumn 1).join (lateColumn 0) = .ok r ∧ (lateColumn 0).join (lateColumn 1) = .ok r ∧
      (∀ p : Nat × Nat, p ∈ r ↔ p ∈ lateColumn 1 ∨ p ∈ lateColumn 0) ∧
      r.Within maxCoordinate maxCoordinate := by
  obtain ⟨_, _, _, _, _, hjoined, hcomm, hwithin⟩ :=
    predicates_tell_pixels (lateColumn 1) (lateColumn 0)
  obtain ⟨r, hr⟩ : ∃ r, (lateColumn 1).join (lateColumn 0) = .ok r := ⟨_, rfl⟩
  exact ⟨rfl, r, hr, (hcomm r).mp hr, (hjoined r hr).1,
    hwithin r (Or.inr hr) maxCoordinate maxCoordinate (by decide) (by decide)⟩

end BlockPainting.Rect
