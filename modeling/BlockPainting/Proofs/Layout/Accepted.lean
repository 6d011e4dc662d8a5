import BlockPainting.Proofs.Layout.Tiling

/-!
# Which layouts are accepted

A layout is accepted exactly if its entries describe a tiling: the sizes agree, the ids are
distinct, every entry spans pixels of the raster, and every pixel of the raster lies in exactly one
entry. That the areas are right is no condition of its own: among disjoint rectangles it says
that no pixel is left out.
-/

namespace BlockPainting

def LayoutBlock.Holds (e : LayoutBlock) (p : Nat × Nat) : Prop :=
  (e.left ≤ p.1 ∧ p.1 < e.right) ∧ (e.bottom ≤ p.2 ∧ p.2 < e.top)

/-- The block has the id, the corners and the paint of the entry. -/
structure LayoutBlock.Describes (e : LayoutBlock) (b : Block) : Prop where
  id_eq : b.id = e.id
  x_eq : b.rect.x = e.left
  y_eq : b.rect.y = e.bottom
  right_eq : b.rect.right = e.right
  top_eq : b.rect.top = e.top
  paint_eq : b.paint = some e.paint

namespace LayoutBlock

lemma Describes.mem_iff {e : LayoutBlock} {b : Block} (h : e.Describes b) (p : Nat × Nat) :
    p ∈ b.rect ↔ e.Holds p := by
  simp only [Rect.mem_iff, Holds, h.x_eq, h.y_eq, h.right_eq, h.top_eq]

lemma Describes.unique {e e' : LayoutBlock} {b : Block} (h : e.Describes b)
    (h' : e'.Describes b) : e = e' := by
  obtain ⟨id, left, bottom, right, top, paint⟩ := e
  obtain ⟨id', left', bottom', right', top', paint'⟩ := e'
  have hpaint := h.paint_eq.symm.trans h'.paint_eq
  simp only [LayoutBlock.mk.injEq]
  exact ⟨h.id_eq.symm.trans h'.id_eq, h.x_eq.symm.trans h'.x_eq, h.y_eq.symm.trans h'.y_eq,
    h.right_eq.symm.trans h'.right_eq, h.top_eq.symm.trans h'.top_eq, Option.some.inj hpaint⟩

lemma exists_describes {e : LayoutBlock} (hx : e.left < e.right) (hy : e.bottom < e.top) :
    ∃ b, e.Describes b := by
  have hrect : ∃ rect, Rect.ofCorners e.left e.bottom e.right e.top = .ok rect :=
    ⟨_, dif_pos ⟨hx, hy⟩⟩
  obtain ⟨rect, hrect⟩ := hrect
  obtain ⟨hx, hy, hright, htop⟩ := Rect.ofCorners_eq_ok_iff.mp hrect
  exact ⟨⟨e.id, rect, some e.paint⟩, rfl, hx, hy, hright, htop, rfl⟩

lemma Describes.corners {e : LayoutBlock} {b : Block} (h : e.Describes b) :
    e.left < e.right ∧ e.bottom < e.top := by
  have hwidth := b.rect.width_pos
  have hheight := b.rect.height_pos
  rw [← h.x_eq, ← h.y_eq, ← h.right_eq, ← h.top_eq]
  simp only [Rect.right, Rect.top]
  omega

end LayoutBlock

namespace Layout

open Success

/-- The entries of a layout put every pixel of a raster of this size into exactly one block. -/
structure Exact (l : Layout) (r : Raster) : Prop where
  size : l.width = r.width ∧ l.height = r.height
  nonempty : l.blocks ≠ []
  distinct : l.blocks.Pairwise fun a b => a.id ≠ b.id
  corners : ∀ e ∈ l.blocks,
    (e.left < e.right ∧ e.right ≤ r.width) ∧ (e.bottom < e.top ∧ e.top ≤ r.height)
  once : ∀ p : Nat × Nat, p.1 < r.width → p.2 < r.height → ∃! e, e ∈ l.blocks ∧ e.Holds p

/-- An entry is placed exactly if the block it describes keeps the packing. -/
lemma place_eq_ok_iff {r : Raster} {placed placed' : List Block} {e : LayoutBlock}
    (hp : Packing placed r.width r.height) :
    place r placed e = .ok placed' ↔
      ∃ b, e.Describes b ∧ Packing (placed ++ [b]) r.width r.height ∧
        placed' = placed ++ [b] := by
  constructor
  · intro h
    have hpacking := hp.place h
    simp only [place] at h
    split at h
    · cases h
    · rename_i rect hrect
      obtain ⟨hx, hy, hright, htop⟩ := Rect.ofCorners_eq_ok_iff.mp hrect
      split at h
      · cases h
      · split at h
        · cases h
        · cases h
          exact ⟨⟨e.id, rect, some e.paint⟩, ⟨rfl, hx, hy, hright, htop, rfl⟩, hpacking, rfl⟩
  · rintro ⟨b, hb, hpacking, rfl⟩
    obtain ⟨_, hwithin, hcompatible⟩ := packing_concat_iff.mp hpacking
    have hrect : Rect.ofCorners e.left e.bottom e.right e.top = .ok b.rect :=
      Rect.ofCorners_eq_ok_iff.mpr ⟨hb.x_eq, hb.y_eq, hb.right_eq, hb.top_eq⟩
    have hcheck : r.check b.rect = .ok () := if_pos hwithin
    have hconflict : conflict b.id b.rect placed = none := conflict_eq_none_iff.mpr hcompatible
    simp only [place, hrect, hcheck, ← hb.id_eq, hconflict, ← hb.paint_eq]

lemma foldlM_place_eq_ok_iff {r : Raster} {entries : List LayoutBlock}
    {placed placed' : List Block} (hp : Packing placed r.width r.height) :
    entries.foldlM (place r) placed = .ok placed' ↔
      ∃ blocks, List.Forall₂ LayoutBlock.Describes entries blocks ∧
        Packing (placed ++ blocks) r.width r.height ∧ placed' = placed ++ blocks := by
  induction entries generalizing placed with
  | nil =>
    simp only [List.foldlM_nil, pure_eq_ok, List.forall₂_nil_left_iff, exists_eq_left,
      List.append_nil]
    exact ⟨fun h => ⟨hp, h.symm⟩, fun h => h.2.symm⟩
  | cons e entries ih =>
    simp only [List.foldlM_cons, bind_eq_ok, place_eq_ok_iff hp, List.forall₂_cons_left_iff]
    constructor
    · rintro ⟨_, ⟨b, hb, hnext, rfl⟩, hrest⟩
      obtain ⟨blocks, hblocks, hpacking, rfl⟩ := (ih hnext).mp hrest
      rw [List.append_assoc] at hpacking ⊢
      exact ⟨b :: blocks, ⟨b, blocks, hb, hblocks, rfl⟩, hpacking, rfl⟩
    · rintro ⟨_, ⟨b, blocks, hb, hblocks, rfl⟩, hpacking, rfl⟩
      rw [List.append_cons] at hpacking
      exact ⟨_, ⟨b, hb, hpacking.of_append, rfl⟩,
        (ih hpacking.of_append).mpr ⟨blocks, hblocks, hpacking, List.append_cons _ _ _⟩⟩

lemma Tiling.covered_eq {blocks : List Block} {width height : Nat}
    (h : Tiling blocks width height) : covered blocks = width * height := by
  have hsum := Rect.area_of_covers (List.pairwise_map.mpr h.apart) (by simpa using h.within) (by
    intro p hx hy
    obtain ⟨b, hb, hp⟩ := h.covers p hx hy
    exact ⟨b.rect, List.mem_map_of_mem hb, hp⟩)
  rw [covered_eq_sum, ← hsum, List.map_map]
  rfl

lemma validate_eq_ok_iff {l : Layout} {r : Raster} {blocks : List Block} :
    l.validate r = .ok blocks ↔
      (l.width = r.width ∧ l.height = r.height) ∧ l.blocks ≠ [] ∧
        List.Forall₂ LayoutBlock.Describes l.blocks blocks ∧ Tiling blocks r.width r.height := by
  have hnil : Packing [] r.width r.height := ⟨List.Pairwise.nil, List.Pairwise.nil, by simp⟩
  have hplaced : ∀ placed, l.blocks.foldlM (place r) [] = .ok placed ↔
      List.Forall₂ LayoutBlock.Describes l.blocks placed ∧ Packing placed r.width r.height := by
    intro placed
    rw [foldlM_place_eq_ok_iff hnil]
    constructor
    · rintro ⟨blocks, hblocks, hpacking, rfl⟩
      exact ⟨hblocks, hpacking⟩
    · rintro ⟨hblocks, hpacking⟩
      exact ⟨placed, hblocks, hpacking, rfl⟩
  constructor
  · intro h
    have htiling := validate_tiling h
    simp only [validate, guard_eq_ok, bind_eq_ok, pure_eq_ok, hplaced] at h
    obtain ⟨hsize, hnonempty, blocks, ⟨hblocks, _⟩, _, rfl⟩ := h
    exact ⟨by omega, hnonempty, hblocks, htiling⟩
  · rintro ⟨hsize, hnonempty, hblocks, htiling⟩
    simp only [validate, guard_eq_ok, bind_eq_ok, pure_eq_ok, hplaced]
    exact ⟨by omega, hnonempty, blocks, ⟨hblocks, htiling.toPacking⟩,
      not_not.mpr htiling.covered_eq, rfl⟩

lemma map_id_of_describes {entries : List LayoutBlock} {blocks : List Block}
    (h : List.Forall₂ LayoutBlock.Describes entries blocks) :
    blocks.map Block.id = entries.map LayoutBlock.id := by
  induction h with
  | nil => rfl
  | cons hab _ ih => rw [List.map_cons, List.map_cons, hab.id_eq, ih]

lemma Exact.of_tiling {l : Layout} {r : Raster} {blocks : List Block}
    (hsize : l.width = r.width ∧ l.height = r.height) (hnonempty : l.blocks ≠ [])
    (hblocks : List.Forall₂ LayoutBlock.Describes l.blocks blocks)
    (htiling : Tiling blocks r.width r.height) : l.Exact r := by
  refine ⟨hsize, hnonempty, ?_, ?_, ?_⟩
  · have hids : (blocks.map Block.id).Pairwise (· ≠ ·) := List.pairwise_map.mpr htiling.distinct
    rw [map_id_of_describes hblocks] at hids
    exact List.pairwise_map.mp hids
  · intro e he
    obtain ⟨b, hb, hdescribes⟩ := exists_of_mem_left hblocks he
    have hwithin := htiling.within b hb
    rw [Rect.Within, hdescribes.right_eq, hdescribes.top_eq] at hwithin
    exact ⟨⟨hdescribes.corners.1, hwithin.1⟩, hdescribes.corners.2, hwithin.2⟩
  · intro p hx hy
    obtain ⟨b, hb, hp⟩ := htiling.covers p hx hy
    obtain ⟨e, he, hdescribes⟩ := exists_of_mem_right hblocks hb
    refine ⟨e, ⟨he, (hdescribes.mem_iff p).mp hp⟩, ?_⟩
    rintro e' ⟨he', hp'⟩
    obtain ⟨b', hb', hdescribes'⟩ := exists_of_mem_left hblocks he'
    have heq : b' = b := by
      by_contra hne
      exact htiling.apart.forall hb' hb hne p ((hdescribes'.mem_iff p).mpr hp') hp
    rw [heq] at hdescribes'
    exact hdescribes'.unique hdescribes

/-- Blocks described by entries that hold every pixel once tile the raster. -/
lemma Exact.tiling {l : Layout} {r : Raster} (h : l.Exact r) {blocks : List Block}
    (hblocks : List.Forall₂ LayoutBlock.Describes l.blocks blocks) :
    Tiling blocks r.width r.height := by
  have hdistinct : blocks.Pairwise fun a b => a.id ≠ b.id := by
    have hids : (l.blocks.map LayoutBlock.id).Pairwise (· ≠ ·) := List.pairwise_map.mpr h.distinct
    rw [← map_id_of_describes hblocks] at hids
    exact List.pairwise_map.mp hids
  have hwithin : ∀ b ∈ blocks, b.rect.Within r.width r.height := by
    intro b hb
    obtain ⟨e, he, hdescribes⟩ := exists_of_mem_right hblocks hb
    rw [Rect.Within, hdescribes.right_eq, hdescribes.top_eq]
    exact ⟨(h.corners e he).1.2, (h.corners e he).2.2⟩
  refine ⟨⟨hdistinct, ?_, hwithin⟩, ?_⟩
  · refine hdistinct.imp_of_mem ?_
    intro a b ha hb hne p hpa hpb
    obtain ⟨e, he, hdescribes⟩ := exists_of_mem_right hblocks ha
    obtain ⟨e', he', hdescribes'⟩ := exists_of_mem_right hblocks hb
    have hlt := (hwithin a ha).lt hpa
    have heq : e = e' := (h.once p hlt.1 hlt.2).unique
      ⟨he, (hdescribes.mem_iff p).mp hpa⟩ ⟨he', (hdescribes'.mem_iff p).mp hpb⟩
    exact hne (by rw [hdescribes.id_eq, hdescribes'.id_eq, heq])
  · intro p hx hy
    obtain ⟨e, ⟨he, hp⟩, _⟩ := h.once p hx hy
    obtain ⟨b, hb, hdescribes⟩ := exists_of_mem_left hblocks he
    exact ⟨b, hb, (hdescribes.mem_iff p).mpr hp⟩

/-- Exactly the layouts whose entries hold every pixel of the raster once are accepted, and then
with the blocks of the entries, in their order. -/
theorem accepted_iff_exact (l : Layout) (r : Raster) :
    ((∃ blocks, l.validate r = .ok blocks) ↔ l.Exact r) ∧
      ∀ blocks, l.validate r = .ok blocks →
        List.Forall₂ LayoutBlock.Describes l.blocks blocks := by
  refine ⟨⟨?_, ?_⟩, ?_⟩
  · rintro ⟨blocks, h⟩
    obtain ⟨hsize, hnonempty, hblocks, htiling⟩ := validate_eq_ok_iff.mp h
    exact Exact.of_tiling hsize hnonempty hblocks htiling
  · intro h
    obtain ⟨blocks, hblocks⟩ : ∃ blocks, List.Forall₂ LayoutBlock.Describes l.blocks blocks :=
      exists_forall₂ fun e he =>
        LayoutBlock.exists_describes (h.corners e he).1.1 (h.corners e he).2.1
    exact ⟨blocks, validate_eq_ok_iff.mpr ⟨h.size, h.nonempty, hblocks, h.tiling hblocks⟩⟩
  · intro blocks h
    exact (validate_eq_ok_iff.mp h).2.2.1

/-- Two blocks beside each other, listed from the right, and one on top of both. -/
def threeBlocks : Layout where
  width := 2
  height := 2
  blocks := [⟨.top 1, 1, 0, 2, 1, .white⟩, ⟨.top 0, 0, 0, 1, 1, .black⟩,
    ⟨.top 2, 0, 1, 2, 2, .white⟩]

theorem accepted_of_threeBlocks :
    ∃ blocks, threeBlocks.validate (.filled 2 2 .white) = .ok blocks ∧
      List.Forall₂ LayoutBlock.Describes threeBlocks.blocks blocks :=
  ⟨_, rfl, (accepted_iff_exact threeBlocks (.filled 2 2 .white)).2 _ rfl⟩

end Layout

end BlockPainting
