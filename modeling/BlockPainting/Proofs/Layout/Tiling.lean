import BlockPainting.Layout.Basic
import BlockPainting.Proofs.Rect.Pixels
import BlockPainting.Proofs.Success

/-!
# Accepted layouts tile the raster

Validation compares every block with those before it and adds up areas; it never looks at a pixel.
Still the blocks of an accepted layout are distinct and group the pixels of the raster, each pixel
in exactly one block.
-/

namespace BlockPainting.Layout

open Success

/-- Blocks with different ids and without common pixels that lie on a raster. -/
structure Packing (blocks : List Block) (width height : Nat) : Prop where
  distinct : blocks.Pairwise fun a b => a.id ≠ b.id
  apart : blocks.Pairwise fun a b => a.rect.Apart b.rect
  within : ∀ b ∈ blocks, b.rect.Within width height

structure Tiling (blocks : List Block) (width height : Nat) : Prop
    extends Packing blocks width height where
  covers : ∀ p : Nat × Nat, p.1 < width → p.2 < height → ∃ b ∈ blocks, p ∈ b.rect

lemma Packing.of_append {placed rest : List Block} {width height : Nat}
    (h : Packing (placed ++ rest) width height) : Packing placed width height :=
  ⟨(List.pairwise_append.mp h.distinct).1, (List.pairwise_append.mp h.apart).1,
    fun b hb => h.within b (List.mem_append_left rest hb)⟩

lemma packing_concat_iff {placed : List Block} {b : Block} {width height : Nat} :
    Packing (placed ++ [b]) width height ↔
      Packing placed width height ∧ b.rect.Within width height ∧
        ∀ other ∈ placed, other.id ≠ b.id ∧ other.rect.Apart b.rect := by
  constructor
  · intro h
    refine ⟨h.of_append, h.within b (by simp), ?_⟩
    intro other hother
    exact ⟨(List.pairwise_append.mp h.distinct).2.2 other hother b (by simp),
      (List.pairwise_append.mp h.apart).2.2 other hother b (by simp)⟩
  · rintro ⟨h, hwithin, hcompatible⟩
    constructor
    · refine List.pairwise_append.mpr ⟨h.distinct, List.pairwise_singleton _ _, ?_⟩
      intro other hother new hnew
      rw [List.mem_singleton.mp hnew]
      exact (hcompatible other hother).1
    · refine List.pairwise_append.mpr ⟨h.apart, List.pairwise_singleton _ _, ?_⟩
      intro other hother new hnew
      rw [List.mem_singleton.mp hnew]
      exact (hcompatible other hother).2
    · intro new hnew
      rcases List.mem_append.mp hnew with hold | hnew
      · exact h.within new hold
      · rw [List.mem_singleton.mp hnew]
        exact hwithin

lemma conflict_eq_none_iff {id : BlockId} {rect : Rect} {placed : List Block} :
    conflict id rect placed = none ↔
      ∀ other ∈ placed, other.id ≠ id ∧ other.rect.Apart rect := by
  induction placed with
  | nil => simp [conflict]
  | cons other rest ih =>
    simp only [conflict, List.forall_mem_cons]
    split
    · simp [*]
    · split
      · rename_i hover
        simp [← Rect.not_overlaps_iff, hover]
      · rename_i hid hover
        rw [ih, ← Rect.not_overlaps_iff]
        simp [hid, hover]

lemma place_eq_ok {r : Raster} {placed placed' : List Block} {b : LayoutBlock}
    (h : place r placed b = .ok placed') :
    ∃ rect : Rect, rect.Within r.width r.height ∧
      (∀ other ∈ placed, other.id ≠ b.id ∧ other.rect.Apart rect) ∧
      placed' = placed ++ [⟨b.id, rect, some b.paint⟩] := by
  simp only [place] at h
  split at h
  · cases h
  · rename_i rect hrect
    simp only [Raster.check] at h
    split at h
    · cases h
    · rename_i hcheck
      split at hcheck
      · rename_i hwithin
        split at h
        · cases h
        · rename_i hconflict
          cases h
          exact ⟨rect, hwithin, conflict_eq_none_iff.mp hconflict, rfl⟩
      · cases hcheck

lemma Packing.place {r : Raster} {placed placed' : List Block} {b : LayoutBlock}
    (hp : Packing placed r.width r.height) (h : place r placed b = .ok placed') :
    Packing placed' r.width r.height := by
  obtain ⟨rect, hwithin, hcompatible, rfl⟩ := place_eq_ok h
  exact packing_concat_iff.mpr ⟨hp, hwithin, hcompatible⟩

lemma Packing.foldlM_place {r : Raster} {bs : List LayoutBlock} {placed placed' : List Block}
    (hp : Packing placed r.width r.height) (h : bs.foldlM (Layout.place r) placed = .ok placed') :
    Packing placed' r.width r.height := by
  induction bs generalizing placed with
  | nil =>
    cases h
    exact hp
  | cons b rest ih =>
    rw [List.foldlM_cons, bind_eq_ok] at h
    obtain ⟨next, hnext, hrest⟩ := h
    exact ih (hp.place hnext) hrest

lemma foldlM_place_ids {r : Raster} {bs : List LayoutBlock} {placed placed' : List Block}
    (h : bs.foldlM (Layout.place r) placed = .ok placed') :
    placed'.map Block.id = placed.map Block.id ++ bs.map LayoutBlock.id := by
  induction bs generalizing placed with
  | nil =>
    cases h
    simp
  | cons b rest ih =>
    rw [List.foldlM_cons, bind_eq_ok] at h
    obtain ⟨next, hnext, hrest⟩ := h
    obtain ⟨rect, _, _, rfl⟩ := place_eq_ok hnext
    simpa using ih hrest

lemma covered_eq_sum (blocks : List Block) :
    covered blocks = (blocks.map fun b => b.rect.area).sum := by
  simp only [covered, List.sum_eq_foldl, List.foldl_map]

theorem validate_tiling {l : Layout} {r : Raster} {blocks : List Block}
    (h : l.validate r = .ok blocks) : Tiling blocks r.width r.height := by
  simp only [validate, guard_eq_ok, bind_eq_ok, pure_eq_ok] at h
  obtain ⟨_, _, blocks, hblocks, htotal, rfl⟩ := h
  have hpacking : Packing blocks r.width r.height :=
    Packing.foldlM_place ⟨List.Pairwise.nil, List.Pairwise.nil, by simp⟩ hblocks
  have hsum : ((blocks.map Block.rect).map Rect.area).sum = r.width * r.height := by
    rw [List.map_map, ← not_not.mp htotal, covered_eq_sum]
    rfl
  refine ⟨hpacking, ?_⟩
  intro p hx hy
  obtain ⟨rect, hrect, hp⟩ := Rect.covers_of_area (List.pairwise_map.mpr hpacking.apart)
    (by simpa using hpacking.within) hsum hx hy
  obtain ⟨b, hb, rfl⟩ := List.mem_map.mp hrect
  exact ⟨b, hb, hp⟩

lemma validate_ids {l : Layout} {r : Raster} {blocks : List Block}
    (h : l.validate r = .ok blocks) : blocks.map Block.id = l.blocks.map LayoutBlock.id := by
  simp only [validate, guard_eq_ok, bind_eq_ok, pure_eq_ok] at h
  obtain ⟨_, _, blocks, hblocks, _, rfl⟩ := h
  simpa using foldlM_place_ids hblocks

lemma ne_nil_of_validate {l : Layout} {r : Raster} {blocks : List Block}
    (h : l.validate r = .ok blocks) : blocks ≠ [] := by
  have hids := validate_ids h
  simp only [validate, guard_eq_ok] at h
  obtain ⟨_, hne, _⟩ := h
  rintro rfl
  exact hne (List.map_eq_nil_iff.mp hids.symm)

end BlockPainting.Layout
