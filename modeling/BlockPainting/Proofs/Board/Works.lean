import BlockPainting.Proofs.Board.Reached

/-!
# Work below one block

Painting and cutting a block and its descendants goes through wherever the ids below the block are
free. It costs what the prices say and leaves everything outside the block alone.
-/

namespace BlockPainting.Board

/-- The block `o` is live with this rectangle, and no other id below `o` is taken. -/
structure Ready (b : Board) (width height : Nat) (o : BlockId) (rect : Rect) : Prop where
  sized : b.Sized width height
  within : rect.Within width height
  live : ∃ block, b.live[o]? = some block ∧ block.rect = rect
  alone : ∀ id, id ≠ o → id.Extends o → b.live[id]? = none

/-- The program leads from `b` to `b'` at this price and changes nothing but the pixels of the
rectangle and the blocks below `o`. -/
structure Works (b b' : Board) (width height : Nat) (o : BlockId) (rect : Rect)
    (program : List Instruction) (cost : Nat) : Prop where
  run : b.applyAll program = .ok b'
  sized : b'.Sized width height
  cost_eq : b'.cost = b.cost + cost
  kept : ∀ x y, x < width → y < height → (x, y) ∉ rect →
    b'.painted.pixel x y = b.painted.pixel x y
  others : ∀ id : BlockId, ¬ id.Extends o → b'.live[id]? = b.live[id]?

section

variable {b mid b' : Board} {width height : Nat} {o o' : BlockId} {rect rect' : Rect}
variable {program program' : List Instruction} {cost cost' : Nat}

lemma Works.refl (sized : b.Sized width height) (o : BlockId) (rect : Rect) :
    b.Works b width height o rect [] 0 :=
  ⟨rfl, sized, rfl, fun _ _ _ _ _ => rfl, fun _ _ => rfl⟩

lemma Works.trans (h : b.Works mid width height o rect program cost)
    (h' : mid.Works b' width height o rect program' cost') :
    b.Works b' width height o rect (program ++ program') (cost + cost') := by
  refine ⟨applyAll_append_eq_ok.mpr ⟨mid, h.run, h'.run⟩, h'.sized, ?_, ?_, ?_⟩
  · rw [h'.cost_eq, h.cost_eq, Nat.add_assoc]
  · intro x y hx hy hout
    rw [h'.kept x y hx hy hout, h.kept x y hx hy hout]
  · intro id hid
    rw [h'.others id hid, h.others id hid]

/-- Work on a part below `o` is work on the whole block. -/
lemma Works.widen (h : b.Works b' width height o' rect' program cost) (below : o'.Extends o)
    (inside : ∀ p : Nat × Nat, p ∈ rect' → p ∈ rect) :
    b.Works b' width height o rect program cost :=
  ⟨h.run, h.sized, h.cost_eq, fun x y hx hy hout => h.kept x y hx hy fun hp => hout (inside _ hp),
    fun id hid => h.others id fun hbelow => hid (hbelow.trans below)⟩

lemma Works.ready (h : b.Works b' width height o' rect' program cost)
    (ready : b.Ready width height o rect) (unrelated : o.Unrelated o') :
    b'.Ready width height o rect := by
  refine ⟨h.sized, ready.within, ?_, ?_⟩
  · obtain ⟨block, hlive, hrect⟩ := ready.live
    exact ⟨block, (h.others o unrelated.1).trans hlive, hrect⟩
  · intro id hne hid
    rw [h.others id (unrelated.of_extends hid).1]
    exact ready.alone id hne hid

lemma ready_of_start {block : Block} (h : start width height [block] = .ok b)
    (onRaster : block.rect.Within width height) : b.Ready width height block.id block.rect := by
  have hreached : Reached width height [block] b := ⟨b, h, [], rfl⟩
  obtain ⟨hlive, halone⟩ := live_start_single h
  exact ⟨hreached.sized, onRaster, ⟨block, hlive, rfl⟩, fun id hne _ => halone id hne⟩

lemma works_commit {i : Instruction} {c : Change} (sized : b.Sized width height)
    (legal : b.Legal i c) (hadded : ∀ a ∈ c.added, a.id.Extends o)
    (hremoved : ∀ id ∈ c.removed, id.Extends o)
    (hkept : ∀ x y, x < width → y < height → (x, y) ∉ rect →
      (b.painted.stroke c.stroke).pixel x y = b.painted.pixel x y) :
    b.Works (b.commit c) width height o rect [i] c.cost := by
  refine ⟨legal.applyAll, sized.commit legal.distinct, rfl, hkept, ?_⟩
  intro id hid
  refine getElem?_commit ?_ fun hmem => hid (hremoved id hmem)
  rintro a ha rfl
  exact hid (hadded a ha)

lemma Ready.color (ready : b.Ready width height o rect) (paint : Color) :
    ∃ b', b.Works b' width height o rect [.color o paint]
        ((Pricing.contest width height).cost .color rect.area) ∧
      b'.Ready width height o rect := by
  obtain ⟨block, hlive, rfl⟩ := ready.live
  obtain rfl := ready.sized.keyed o block hlive
  have hkept : ∀ x y, x < width → y < height → (x, y) ∉ block.rect →
      (b.painted.fill block.rect paint).pixel x y = b.painted.pixel x y := by
    intro x y hx hy hout
    rw [← ready.sized.width_eq] at hx
    rw [← ready.sized.height_eq] at hy
    refine (Raster.pixel_fill paint ?_ hx hy).trans (if_neg hout)
    exact ready.sized.width_eq ▸ ready.within.1
  have hworks := works_commit ready.sized (Legal.color paint hlive)
    (by simpa using BlockId.Extends.refl block.id) (by simp) hkept
  rw [ready.sized.prices_eq] at hworks
  refine ⟨_, hworks, hworks.sized, ready.within, ?_, ?_⟩
  · exact ⟨{ block with paint := some paint },
      (live_commit_iff (List.pairwise_singleton _ _)).mpr (Or.inl ⟨List.mem_cons_self, rfl⟩), rfl⟩
  · intro id hne hid
    rw [getElem?_commit (by simpa using hne.symm) (by simp)]
    exact ready.alone id hne hid

lemma Ready.child (ready : b.Ready width height o rect) {block : Block}
    (hlive : b.live[o]? = some block) {i : Instruction} {parts : List Rect} {ids : IdSupply}
    (legal : b.Legal i ⟨[block.id], parts.mapIdx block.part, .keep, ids, cost⟩)
    (tiles : Rect.Tiles parts rect) (k : Nat) (hk : k < parts.length) :
    (b.commit ⟨[block.id], parts.mapIdx block.part, .keep, ids, cost⟩).Ready width height
      (o.child k) parts[k] := by
  obtain rfl := ready.sized.keyed o block hlive
  have hlive_iff := @live_commit_iff b _ legal.distinct
  refine ⟨ready.sized.commit legal.distinct, ?_, ?_, ?_⟩
  · refine Rect.within_of_mem ?_
    intro p hp
    exact ready.within.lt ((tiles.mem_iff p).mpr ⟨parts[k], List.getElem_mem hk, hp⟩)
  · exact ⟨block.part k parts[k],
      hlive_iff.mpr (Or.inl ⟨List.mem_mapIdx.mpr ⟨k, hk, rfl⟩, rfl⟩), rfl⟩
  · intro id hne hid
    rw [Option.eq_none_iff_forall_ne_some]
    intro other hother
    rcases hlive_iff.mp hother with ⟨hmem, rfl⟩ | ⟨_, hremoved, hold⟩
    · obtain ⟨j, _, rfl⟩ := List.mem_mapIdx.mp hmem
      have hjk : j ≠ k := fun heq => hne (heq ▸ rfl)
      exact (block.id.child_unrelated hjk).1 hid
    · have hnone := ready.alone id (by simpa using hremoved)
        (hid.trans (block.id.child_extends k))
      rw [hnone] at hold
      cases hold

lemma Ready.cut (ready : b.Ready width height o rect) {block : Block}
    (hlive : b.live[o]? = some block) {i : Instruction} {parts : List Rect} {ids : IdSupply}
    (legal : b.Legal i ⟨[block.id], parts.mapIdx block.part, .keep, ids, cost⟩)
    (tiles : Rect.Tiles parts rect) :
    ∃ b', b.Works b' width height o rect [i] cost ∧
      ∀ (k : Nat) (hk : k < parts.length), b'.Ready width height (o.child k) parts[k] := by
  obtain rfl := ready.sized.keyed o block hlive
  refine ⟨_, works_commit ready.sized legal ?_ ?_ fun _ _ _ _ _ => rfl,
    ready.child hlive legal tiles⟩
  · intro a ha
    obtain ⟨k, _, rfl⟩ := List.mem_mapIdx.mp ha
    exact block.id.child_extends k
  · simpa using BlockId.Extends.refl block.id

lemma Ready.lineCut (ready : b.Ready width height o rect) {axis : Axis} {position : Nat}
    {low high : Rect} (cut : rect.cut axis position = .ok (low, high)) :
    ∃ b', b.Works b' width height o rect [.lineCut o axis position]
        ((Pricing.contest width height).cost .lineCut rect.area) ∧
      b'.Ready width height (o.child 0) low ∧ b'.Ready width height (o.child 1) high := by
  obtain ⟨block, hlive, rfl⟩ := ready.live
  have legal : b.Legal (.lineCut o axis position)
      ⟨[block.id], [low, high].mapIdx block.part, .keep, b.ids,
        b.prices.cost .lineCut block.rect.area⟩ := .lineCut hlive cut
  obtain ⟨b', works, hparts⟩ := ready.cut hlive legal (Rect.cut_tiles cut)
  rw [ready.sized.prices_eq] at works
  exact ⟨b', works, hparts 0 (by simp), hparts 1 (by simp)⟩

lemma Ready.merge {low high : Rect} (ready : b.Ready width height o low)
    (ready' : b.Ready width height o' high) (rooted : b.Rooted)
    (join : low.join high = .ok rect) (left : b.ids.next ≤ maxRoot) :
    ∃ next, b.applyAll [.merge o o'] = .ok next ∧
      next.cost = b.cost + (Pricing.contest width height).mergeCost low.area high.area ∧
      next.painted = b.painted ∧ next.Ready width height (.top b.ids.next) rect := by
  obtain ⟨first, hfirst, rfl⟩ := ready.live
  obtain ⟨second, hsecond, rfl⟩ := ready'.live
  obtain rfl := ready.sized.keyed o first hfirst
  obtain rfl := ready.sized.keyed o' second hsecond
  have legal := Legal.merge hfirst hsecond join left
  have hlive := @live_commit_iff b _ legal.distinct
  refine ⟨_, legal.applyAll, ?_, rfl, ?_⟩
  · rw [← ready.sized.prices_eq]
    rfl
  · refine ⟨ready.sized.commit legal.distinct, ?_, ?_, ?_⟩
    · refine Rect.within_of_mem ?_
      intro p hp
      rcases (Rect.join_mem_iff join p).mp hp with hp | hp
      · exact ready.within.lt hp
      · exact ready'.within.lt hp
    · exact ⟨_, hlive.mpr (Or.inl ⟨List.mem_cons_self, rfl⟩), rfl⟩
    · intro id hne hid
      have hfree : b.live[id]? = none := rooted.free (Nat.le_of_eq hid.1.symm)
      rw [Option.eq_none_iff_forall_ne_some]
      intro block hblock
      rcases hlive.mp hblock with ⟨hadded, rfl⟩ | ⟨_, _, hold⟩
      · obtain rfl := List.mem_singleton.mp hadded
        exact hne rfl
      · rw [hfree] at hold
        cases hold

end

end BlockPainting.Board
