import BlockPainting.Proofs.Board.Tiled

/-!
# Boards reached from an accepted layout

The blocks of an accepted layout are laid down one after the other, which succeeds because their ids
are distinct. If no id is a prefix of another, the first board is tiled, and so is every board that
instructions lead to.
-/

namespace BlockPainting

namespace Board

open Success

variable {b next : Board} {width height : Nat} {block : Block} {placed rest : List Block}

lemma place_eq_ok :
    b.place block = .ok next ↔ b.live[block.id]? = none ∧
      { b with
        live := put b.live block
        painted := b.painted.fill block.rect (block.paint.getD .white) } = next := by
  simp only [place, Std.HashMap.contains_eq_isSome_getElem?]
  cases h : b.live[block.id]? <;> simp

lemma getElem?_put (live : Std.HashMap BlockId Block) (block : Block) (id : BlockId) :
    (put live block)[id]? = if block.id = id then some block else live[id]? := by
  simp only [put, Std.HashMap.getElem?_insert, beq_iff_eq]

lemma Sized.place (sized : b.Sized width height) (h : b.place block = .ok next) :
    next.Sized width height := by
  obtain ⟨_, rfl⟩ := place_eq_ok.mp h
  refine ⟨sized.prices_eq, sized.width_eq, sized.height_eq, ?_⟩
  intro id other hlive
  simp only [getElem?_put] at hlive
  split at hlive
  · cases hlive
    assumption
  · exact sized.keyed id other hlive

lemma Sized.foldlM_place (sized : b.Sized width height) (h : rest.foldlM Board.place b = .ok next) :
    next.Sized width height := by
  induction rest generalizing b with
  | nil =>
    cases h
    exact sized
  | cons block rest ih =>
    rw [List.foldlM_cons, bind_eq_ok] at h
    obtain ⟨mid, hmid, hrest⟩ := h
    exact ih (sized.place hmid) hrest

def blank (width height largest : Nat) : Board where
  prices := .contest width height
  live := ∅
  painted := .filled width height .white
  ids := .after largest
  cost := 0
  applied := 0

lemma start_eq (width height : Nat) (initial : List Block) :
    start width height initial =
      initial.foldlM place (blank width height (Block.largestRoot initial)) :=
  rfl

lemma sized_blank (width height largest : Nat) :
    (blank width height largest).Sized width height := by
  refine ⟨rfl, rfl, rfl, ?_⟩
  intro id block h
  simp [blank] at h

theorem Reached.sized {initial : List Block} (reached : Reached width height initial b) :
    b.Sized width height := by
  obtain ⟨first, hfirst, program, rfl⟩ := reached
  rw [start_eq] at hfirst
  refine attemptAll_induction (P := (Sized · width height))
    ((sized_blank width height _).foldlM_place hfirst) ?_ program
  intro b i c sized legal
  exact sized.commit (legal.distinct)

/-- The live blocks are the blocks `placed`, and their paint is on the raster. -/
structure Laid (b : Board) (placed : List Block) : Prop where
  live_iff : ∀ (id : BlockId) (block : Block),
    b.live[id]? = some block ↔ block ∈ placed ∧ block.id = id
  shown : ∀ block ∈ placed, ∀ c, block.paint = some c → ∀ p : Nat × Nat, p ∈ block.rect →
    b.painted.pixel p.1 p.2 = c

lemma laid_blank (width height largest : Nat) : (blank width height largest).Laid [] := by
  constructor
  · intro id block
    simp [blank]
  · simp

lemma Laid.place (sized : b.Sized width height) (laid : b.Laid placed)
    (packing : Layout.Packing (placed ++ [block]) width height) :
    ∃ next, b.place block = .ok next ∧ next.Laid (placed ++ [block]) := by
  have hdistinct := (List.pairwise_append.mp packing.distinct).2.2
  have hapart := (List.pairwise_append.mp packing.apart).2.2
  simp only [List.mem_singleton, forall_eq] at hdistinct hapart
  have hfree : b.live[block.id]? = none := by
    rw [Option.eq_none_iff_forall_ne_some]
    intro other hother
    obtain ⟨hmem, hid⟩ := (laid.live_iff _ _).mp hother
    exact hdistinct other hmem hid
  have hpixel : ∀ other ∈ placed ++ [block], ∀ p : Nat × Nat, p ∈ other.rect →
      (b.painted.fill block.rect (block.paint.getD .white)).pixel p.1 p.2 =
        if p ∈ block.rect then block.paint.getD .white else b.painted.pixel p.1 p.2 := by
    intro other hother p hp
    have hlt := (packing.within other hother).lt hp
    have hright := (packing.within block (by simp)).1
    rw [← sized.width_eq] at hright hlt
    rw [← sized.height_eq] at hlt
    exact Raster.pixel_fill _ hright hlt.1 hlt.2
  refine ⟨_, place_eq_ok.mpr ⟨hfree, rfl⟩, ?_, ?_⟩
  · intro id other
    simp only [getElem?_put, List.mem_append, List.mem_singleton]
    by_cases hid : block.id = id
    · subst hid
      simp only [if_true, Option.some.injEq]
      constructor
      · rintro rfl
        exact ⟨Or.inr rfl, rfl⟩
      · rintro ⟨hmem | rfl, hother⟩
        · exact False.elim (hdistinct other hmem hother)
        · rfl
    · rw [if_neg hid, laid.live_iff]
      constructor
      · rintro ⟨hmem, hother⟩
        exact ⟨Or.inl hmem, hother⟩
      · rintro ⟨hmem | rfl, hother⟩
        · exact ⟨hmem, hother⟩
        · exact False.elim (hid hother)
  · intro other hother c hc p hp
    rw [hpixel other hother p hp]
    rcases List.mem_append.mp hother with hmem | hmem
    · rw [if_neg (hapart other hmem p hp)]
      exact laid.shown other hmem c hc p hp
    · obtain rfl := List.mem_singleton.mp hmem
      rw [if_pos hp, hc, Option.getD_some]

lemma Laid.foldlM_place (sized : b.Sized width height) (laid : b.Laid placed)
    (packing : Layout.Packing (placed ++ rest) width height) :
    ∃ next, rest.foldlM Board.place b = .ok next ∧ next.Laid (placed ++ rest) ∧
      next.ids = b.ids := by
  induction rest generalizing b placed with
  | nil => exact ⟨b, rfl, by simpa using laid, rfl⟩
  | cons block rest ih =>
    rw [List.append_cons] at packing
    obtain ⟨mid, hmid, hlaid⟩ := laid.place sized packing.of_append
    obtain ⟨next, hnext, hall, hids⟩ := ih (sized.place hmid) hlaid packing
    refine ⟨next, ?_, by simpa using hall, ?_⟩
    · rw [List.foldlM_cons, bind_eq_ok]
      exact ⟨mid, hmid, hnext⟩
    · obtain ⟨_, rfl⟩ := place_eq_ok.mp hmid
      exact hids

lemma root_le_largestRoot {blocks : List Block} (h : block ∈ blocks) :
    block.id.root ≤ Block.largestRoot blocks := by
  have hmax : Block.largestRoot blocks = (blocks.map fun b => b.id.root).foldl max 0 := by
    rw [List.foldl_map, Block.largestRoot]
  have hmem : block.id.root ∈ blocks.map fun b => b.id.root := List.mem_map_of_mem h
  rw [hmax, List.foldl_max_eq_max (List.ne_nil_of_mem hmem)]
  exact Nat.le_trans (List.le_max_of_mem hmem) (Nat.le_max_right _ _)

theorem start_tiled {blocks : List Block} (tiling : Layout.Tiling blocks width height)
    (unrelated : blocks.Pairwise fun a b => a.id.Unrelated b.id) :
    ∃ first, start width height blocks = .ok first ∧ first.Tiled width height := by
  have hover := sized_blank width height (Block.largestRoot blocks)
  obtain ⟨first, hfirst, hlaid, hids⟩ :=
    (laid_blank width height (Block.largestRoot blocks)).foldlM_place hover tiling.toPacking
  refine ⟨first, hfirst, hover.foldlM_place hfirst, ?_, ?_, ?_, ?_, ?_, ?_⟩
  · intro id block h
    exact tiling.within block ((hlaid.live_iff id block).mp h).1
  · intro id id' block block' h h' hne
    obtain ⟨hmem, rfl⟩ := (hlaid.live_iff id block).mp h
    obtain ⟨hmem', rfl⟩ := (hlaid.live_iff id' block').mp h'
    exact tiling.apart.forall hmem hmem' fun heq => hne (heq ▸ rfl)
  · intro p hx hy
    obtain ⟨block, hmem, hp⟩ := tiling.covers p hx hy
    exact ⟨block.id, block, (hlaid.live_iff _ _).mpr ⟨hmem, rfl⟩, hp⟩
  · intro id id' block block' h h' hne
    obtain ⟨hmem, rfl⟩ := (hlaid.live_iff id block).mp h
    obtain ⟨hmem', rfl⟩ := (hlaid.live_iff id' block').mp h'
    exact unrelated.forall hmem hmem' fun heq => hne (heq ▸ rfl)
  · intro id block h
    obtain ⟨hmem, rfl⟩ := (hlaid.live_iff id block).mp h
    rw [hids]
    exact Nat.lt_succ_of_le (root_le_largestRoot hmem)
  · intro id block c h hc p hp
    exact hlaid.shown block ((hlaid.live_iff id block).mp h).1 c hc p hp

/-- Every board that instructions, refused ones included, lead to from the blocks of an accepted
layout is tiled, provided that no id of the layout is a prefix of another. Layouts of top-level ids
always provide this. -/
theorem tiled_of_accepted {layout : Layout} {target : Raster} {blocks : List Block}
    (accepted : layout.validate target = .ok blocks) :
    ((∀ entry ∈ layout.blocks, entry.id.path = []) →
      blocks.Pairwise fun a b => a.id.Unrelated b.id) ∧
    ((blocks.Pairwise fun a b => a.id.Unrelated b.id) →
      ∃ first, start target.width target.height blocks = .ok first ∧
        ∀ program, (first.attemptAll program).Tiled target.width target.height) := by
  have htiling := Layout.validate_tiling accepted
  constructor
  · intro htop
    refine htiling.distinct.imp_of_mem ?_
    intro a b ha hb hne
    have hids := Layout.validate_ids accepted
    have hpath : ∀ block ∈ blocks, block.id.path = [] := by
      intro block hblock
      have hmem := List.mem_map_of_mem (f := Block.id) hblock
      rw [hids, List.mem_map] at hmem
      obtain ⟨entry, hentry, heq⟩ := hmem
      rw [← heq]
      exact htop entry hentry
    exact BlockId.unrelated_of_top (hpath a ha) (hpath b hb) hne
  · intro unrelated
    obtain ⟨first, hfirst, tiled⟩ := start_tiled htiling unrelated
    exact ⟨first, hfirst, tiled.attemptAll⟩

/-- Two halves of a raster that are themselves children of some block. -/
def childLayout : Layout where
  width := 2
  height := 1
  blocks := [⟨⟨3, [0]⟩, 0, 0, 1, 1, ⟨255, 0, 0, 255⟩⟩, ⟨⟨3, [1, 2]⟩, 1, 0, 2, 1, .white⟩]

theorem tiled_of_childLayout :
    ∃ blocks, childLayout.validate (.filled 2 1 .white) = .ok blocks ∧
      ∃ first, start 2 1 blocks = .ok first ∧ ∀ program, (first.attemptAll program).Tiled 2 1 := by
  obtain ⟨blocks, accepted, unrelated⟩ :
      ∃ blocks, childLayout.validate (.filled 2 1 .white) = .ok blocks ∧
        blocks.Pairwise fun a b => a.id.Unrelated b.id := ⟨_, rfl, by decide⟩
  exact ⟨blocks, accepted, (tiled_of_accepted accepted).2 unrelated⟩

end Board

end BlockPainting
