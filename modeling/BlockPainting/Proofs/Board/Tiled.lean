import BlockPainting.Proofs.Board.Step
import BlockPainting.Proofs.Layout.Tiling
import BlockPainting.Proofs.Raster.Strokes

/-!
# The live blocks tile the raster

Every instruction regroups the pixels of a few live blocks under ids that are not taken. This keeps
the tiling, the order among the ids, and the agreement between the paint of a block and the painted
pixels, so that they hold on every board that is reached from an accepted layout.
-/

namespace BlockPainting

/-- Neither id is the other or a descendant of it. -/
def BlockId.Unrelated (a b : BlockId) : Prop :=
  ¬ a.Extends b ∧ ¬ b.Extends a

instance (a b : BlockId) : Decidable (a.Unrelated b) :=
  inferInstanceAs (Decidable (_ ∧ _))

lemma BlockId.Unrelated.symm {a b : BlockId} (h : a.Unrelated b) : b.Unrelated a :=
  ⟨h.2, h.1⟩

instance : Std.Symm BlockId.Unrelated where
  symm _ _ := BlockId.Unrelated.symm

lemma BlockId.Unrelated.ne {a b : BlockId} (h : a.Unrelated b) : a ≠ b :=
  fun heq => h.1 (heq ▸ BlockId.Extends.refl a)

lemma BlockId.unrelated_of_top {a b : BlockId} (ha : a.path = []) (hb : b.path = [])
    (hne : a ≠ b) : a.Unrelated b := by
  have hroot : a.root ≠ b.root := by
    intro heq
    cases a
    cases b
    simp only at ha hb heq
    exact hne (by rw [ha, hb, heq])
  exact ⟨fun h => hroot h.1, fun h => hroot h.1.symm⟩

lemma BlockId.Unrelated.of_extends {a b c : BlockId} (h : a.Unrelated b) (hc : c.Extends a) :
    c.Unrelated b := by
  refine ⟨?_, fun hb => h.2 (hb.trans hc)⟩
  rintro ⟨hroot, hpath⟩
  rcases List.prefix_or_prefix_of_prefix hpath hc.2 with hp | hp
  · exact h.1 ⟨hc.1.symm.trans hroot, hp⟩
  · exact h.2 ⟨hroot.symm.trans hc.1, hp⟩

lemma BlockId.child_extends (a : BlockId) (k : Nat) : (a.child k).Extends a :=
  ⟨rfl, List.prefix_append a.path [k]⟩

lemma BlockId.not_extends_child (a : BlockId) (k : Nat) : ¬ a.Extends (a.child k) := by
  rintro ⟨_, hpath⟩
  have hlength := hpath.length_le
  simp only [BlockId.child, List.length_append, List.length_singleton] at hlength
  omega

lemma BlockId.child_ne (a : BlockId) (k : Nat) : a.child k ≠ a := by
  intro heq
  refine a.not_extends_child k ?_
  rw [heq]
  exact BlockId.Extends.refl a

lemma BlockId.child_unrelated (a : BlockId) {j k : Nat} (hne : j ≠ k) :
    (a.child j).Unrelated (a.child k) := by
  have h : ∀ j k : Nat, j ≠ k → ¬ (a.child j).Extends (a.child k) := by
    rintro j k hne ⟨_, hpath⟩
    have heq := hpath.eq_of_length (by simp [BlockId.child])
    exact hne (List.singleton_inj.mp (List.append_cancel_left heq)).symm
  exact ⟨h j k hne, h k j hne.symm⟩

namespace Board

/-- The board belongs to a raster of the given size, and its blocks are filed under their ids. -/
structure Sized (b : Board) (width height : Nat) : Prop where
  prices_eq : b.prices = .contest width height
  width_eq : b.painted.width = width
  height_eq : b.painted.height = height
  keyed : ∀ (id : BlockId) (block : Block), b.live[id]? = some block → block.id = id

@[simp] lemma part_id (block : Block) (k : Nat) (rect : Rect) :
    (block.part k rect).id = block.id.child k :=
  rfl

@[simp] lemma part_rect (block : Block) (k : Nat) (rect : Rect) : (block.part k rect).rect = rect :=
  rfl

lemma Legal.distinct {b : Board} {i : Instruction} {c : Change} (legal : b.Legal i c) :
    c.added.Pairwise fun a a' => a.id ≠ a'.id := by
  cases legal with
  | color paint live => exact List.pairwise_singleton _ _
  | @lineCut id block axis position low high live cut =>
    simpa using (block.id.child_unrelated Nat.zero_ne_one).ne
  | @pointCut id block x y quarters live cut =>
    have hne : ∀ j k : Nat, j ≠ k → block.id.child j ≠ block.id.child k :=
      fun j k h => (block.id.child_unrelated h).ne
    simp [Quarters.mapIdx, Quarters.toList, hne]
  | merge live live' join left => exact List.pairwise_singleton _ _
  | swap live live' different same => simpa using different

/-- The live blocks tile the raster, their ids are unrelated and below the next fresh number, and
the pixels of a block of one paint show this paint. -/
structure Tiled (b : Board) (width height : Nat) : Prop extends Sized b width height where
  within : ∀ (id : BlockId) (block : Block), b.live[id]? = some block →
    block.rect.Within width height
  apart : ∀ (id id' : BlockId) (block block' : Block), b.live[id]? = some block →
    b.live[id']? = some block' → id ≠ id' → block.rect.Apart block'.rect
  covers : ∀ p : Nat × Nat, p.1 < width → p.2 < height →
    ∃ (id : BlockId) (block : Block), b.live[id]? = some block ∧ p ∈ block.rect
  unrelated : ∀ (id id' : BlockId) (block block' : Block), b.live[id]? = some block →
    b.live[id']? = some block' → id ≠ id' → id.Unrelated id'
  fresh : ∀ (id : BlockId) (block : Block), b.live[id]? = some block → id.root < b.ids.next
  shown : ∀ (id : BlockId) (block : Block) (c : Color), b.live[id]? = some block →
    block.paint = some c → ∀ p : Nat × Nat, p ∈ block.rect → b.painted.pixel p.1 p.2 = c

@[simp] lemma width_stroke (r : Raster) (s : Stroke) : (r.stroke s).width = r.width := by
  cases s <;> rfl

@[simp] lemma height_stroke (r : Raster) (s : Stroke) : (r.stroke s).height = r.height := by
  cases s <;> rfl

/-- A change that puts the pixels of the blocks `old` into new blocks. -/
structure Regroups (b : Board) (c : Change) (old : List Block) : Prop where
  holds : ∀ o ∈ old, b.live[o.id]? = some o
  removed : ∀ id ∈ c.removed, ∃ o ∈ old, o.id = id
  replaced : ∀ o ∈ old, o.id ∈ c.removed ∨ ∃ a ∈ c.added, a.id = o.id
  pixels : ∀ p : Nat × Nat, (∃ a ∈ c.added, p ∈ a.rect) ↔ ∃ o ∈ old, p ∈ o.rect
  apart : c.added.Pairwise fun a a' => a.rect.Apart a'.rect
  unrelated : c.added.Pairwise fun a a' => a.id.Unrelated a'.id
  others : ∀ a ∈ c.added, ∀ (id : BlockId) (block : Block), b.live[id]? = some block →
    (∀ o ∈ old, o.id ≠ id) → a.id.Unrelated id
  fresh : ∀ a ∈ c.added, a.id.root < c.ids.next
  next_le : b.ids.next ≤ c.ids.next
  kept : ∀ x y, x < b.painted.width → y < b.painted.height → (∀ o ∈ old, (x, y) ∉ o.rect) →
    (b.painted.stroke c.stroke).pixel x y = b.painted.pixel x y
  shown : ∀ a ∈ c.added, ∀ paint, a.paint = some paint → ∀ p : Nat × Nat, p ∈ a.rect →
    (b.painted.stroke c.stroke).pixel p.1 p.2 = paint

section

variable {b : Board} {c : Change} {old : List Block}

lemma Regroups.live_iff (h : Regroups b c old) {id : BlockId} {block : Block} :
    (b.commit c).live[id]? = some block ↔
      (block ∈ c.added ∧ block.id = id) ∨
        ((∀ o ∈ old, o.id ≠ id) ∧ b.live[id]? = some block) := by
  rw [live_commit_iff (h.unrelated.imp BlockId.Unrelated.ne)]
  refine or_congr_right ?_
  constructor
  · rintro ⟨hadded, hremoved, hlive⟩
    refine ⟨?_, hlive⟩
    rintro o ho rfl
    rcases h.replaced o ho with hr | ⟨a, ha, heq⟩
    · exact hremoved hr
    · exact hadded a ha heq
  · rintro ⟨hold, hlive⟩
    refine ⟨fun a ha => (h.others a ha id block hlive hold).ne, ?_, hlive⟩
    intro hr
    obtain ⟨o, ho, heq⟩ := h.removed id hr
    exact hold o ho heq

lemma Sized.commit {width height : Nat} (sized : b.Sized width height)
    (distinct : c.added.Pairwise fun a a' => a.id ≠ a'.id) : (b.commit c).Sized width height := by
  refine ⟨sized.prices_eq, ?_, ?_, ?_⟩
  · exact (width_stroke b.painted c.stroke).trans sized.width_eq
  · exact (height_stroke b.painted c.stroke).trans sized.height_eq
  · intro id block h
    rcases (live_commit_iff distinct).mp h with ⟨_, hid⟩ | ⟨_, _, hlive⟩
    · exact hid
    · exact sized.keyed id block hlive

theorem Tiled.regroup {width height : Nat} (tiled : b.Tiled width height)
    (h : b.Regroups c old) : (b.commit c).Tiled width height := by
  -- A block that is not regrouped has no pixel in common with those that are.
  have hclear : ∀ (id : BlockId) (block : Block), b.live[id]? = some block →
      (∀ o ∈ old, o.id ≠ id) → ∀ o ∈ old, o.rect.Apart block.rect := by
    intro id block hlive hold o ho
    exact tiled.apart _ _ _ _ (h.holds o ho) hlive (hold o ho)
  have hnew : ∀ a ∈ c.added, ∀ (id : BlockId) (block : Block), b.live[id]? = some block →
      (∀ o ∈ old, o.id ≠ id) → a.rect.Apart block.rect := by
    intro a ha id block hlive hold p hp hblock
    obtain ⟨o, ho, hpo⟩ := (h.pixels p).mp ⟨a, ha, hp⟩
    exact hclear id block hlive hold o ho p hpo hblock
  constructor
  · exact tiled.toSized.commit (h.unrelated.imp BlockId.Unrelated.ne)
  · intro id block hlive
    rcases h.live_iff.mp hlive with ⟨hadded, _⟩ | ⟨_, hlive⟩
    · refine Rect.within_of_mem ?_
      intro p hp
      obtain ⟨o, ho, hpo⟩ := (h.pixels p).mp ⟨block, hadded, hp⟩
      exact (tiled.within _ _ (h.holds o ho)).lt hpo
    · exact tiled.within id block hlive
  · intro id id' block block' hlive hlive' hne
    rcases h.live_iff.mp hlive with ⟨ha, rfl⟩ | ⟨hold, hlive⟩
    · rcases h.live_iff.mp hlive' with ⟨ha', rfl⟩ | ⟨hold', hlive'⟩
      · exact h.apart.forall ha ha' fun heq => hne (heq ▸ rfl)
      · exact hnew _ ha _ _ hlive' hold'
    · rcases h.live_iff.mp hlive' with ⟨ha', rfl⟩ | ⟨hold', hlive'⟩
      · exact Std.Symm.symm _ _ (hnew _ ha' _ _ hlive hold)
      · exact tiled.apart id id' block block' hlive hlive' hne
  · intro p hx hy
    obtain ⟨id, block, hlive, hp⟩ := tiled.covers p hx hy
    by_cases hold : ∃ o ∈ old, o.id = id
    · obtain ⟨o, ho, rfl⟩ := hold
      obtain rfl := Option.some.inj ((h.holds o ho).symm.trans hlive)
      obtain ⟨a, ha, hpa⟩ := (h.pixels p).mpr ⟨o, ho, hp⟩
      exact ⟨a.id, a, h.live_iff.mpr (Or.inl ⟨ha, rfl⟩), hpa⟩
    · simp only [not_exists, not_and] at hold
      exact ⟨id, block, h.live_iff.mpr (Or.inr ⟨hold, hlive⟩), hp⟩
  · intro id id' block block' hlive hlive' hne
    rcases h.live_iff.mp hlive with ⟨ha, rfl⟩ | ⟨hold, hlive⟩
    · rcases h.live_iff.mp hlive' with ⟨ha', rfl⟩ | ⟨hold', hlive'⟩
      · exact h.unrelated.forall ha ha' fun heq => hne (heq ▸ rfl)
      · exact h.others _ ha _ _ hlive' hold'
    · rcases h.live_iff.mp hlive' with ⟨ha', rfl⟩ | ⟨hold', hlive'⟩
      · exact (h.others _ ha' _ _ hlive hold).symm
      · exact tiled.unrelated id id' block block' hlive hlive' hne
  · intro id block hlive
    rcases h.live_iff.mp hlive with ⟨ha, rfl⟩ | ⟨_, hlive⟩
    · exact h.fresh block ha
    · exact Nat.lt_of_lt_of_le (tiled.fresh id block hlive) h.next_le
  · intro id block paint hlive hpaint p hp
    rcases h.live_iff.mp hlive with ⟨ha, rfl⟩ | ⟨hold, hlive⟩
    · exact h.shown block ha paint hpaint p hp
    · have hlt := (tiled.within id block hlive).lt hp
      have hkept := h.kept p.1 p.2 (tiled.width_eq ▸ hlt.1) (tiled.height_eq ▸ hlt.2)
        fun o ho hpo => hclear id block hlive hold o ho p hpo hp
      exact hkept.trans (tiled.shown id block paint hlive hpaint p hp)

end

section

variable {b : Board} {width height : Nat}

lemma Tiled.regroups_color (tiled : b.Tiled width height) {id : BlockId} {block : Block}
    (live : b.live[id]? = some block) (paint : Color) (cost : Nat) :
    b.Regroups ⟨[], [{ block with paint := some paint }], .fill block.rect paint, b.ids, cost⟩
      [block] := by
  obtain rfl := tiled.keyed id block live
  have hwithin := tiled.within _ _ live
  rw [← tiled.width_eq, ← tiled.height_eq] at hwithin
  constructor
  · simpa using live
  · simp
  · simp
  · simp
  · simp
  · simp
  · simp only [List.mem_singleton, forall_eq]
    intro id' block' hlive' hne
    exact tiled.unrelated _ _ _ _ live hlive' hne
  · simpa using tiled.fresh _ _ live
  · exact Nat.le_refl _
  · intro x y hx hy hout
    simp only [List.mem_singleton, forall_eq] at hout
    exact (Raster.pixel_fill paint hwithin.1 hx hy).trans (if_neg hout)
  · simp only [List.mem_singleton, forall_eq, Option.some.injEq]
    rintro _ rfl p hp
    have hlt := hwithin.lt hp
    exact (Raster.pixel_fill paint hwithin.1 hlt.1 hlt.2).trans (if_pos hp)

lemma exists_part_iff {block : Block} {parts : List Rect} (tiles : Rect.Tiles parts block.rect)
    (p : Nat × Nat) : (∃ a ∈ parts.mapIdx block.part, p ∈ a.rect) ↔ p ∈ block.rect := by
  rw [tiles.mem_iff p]
  constructor
  · rintro ⟨a, ha, hp⟩
    obtain ⟨k, hk, rfl⟩ := List.mem_mapIdx.mp ha
    exact ⟨parts[k], List.getElem_mem hk, hp⟩
  · rintro ⟨rect, hrect, hp⟩
    obtain ⟨k, hk, rfl⟩ := List.mem_iff_getElem.mp hrect
    exact ⟨block.part k parts[k], List.mem_mapIdx.mpr ⟨k, hk, rfl⟩, hp⟩

lemma Tiled.regroups_parts (tiled : b.Tiled width height) {id : BlockId} {block : Block}
    (live : b.live[id]? = some block) {parts : List Rect} (tiles : Rect.Tiles parts block.rect)
    (cost : Nat) :
    b.Regroups ⟨[block.id], parts.mapIdx block.part, .keep, b.ids, cost⟩ [block] := by
  obtain rfl := tiled.keyed id block live
  constructor
  · simpa using live
  · simp
  · simp
  · intro p
    simp only [List.mem_singleton, exists_eq_left]
    exact exists_part_iff tiles p
  · refine List.pairwise_iff_getElem.mpr ?_
    intro j k hj hk hjk
    simp only [List.length_mapIdx] at hj hk
    simpa using List.pairwise_iff_getElem.mp tiles.apart j k hj hk hjk
  · refine List.pairwise_iff_getElem.mpr ?_
    intro j k hj hk hjk
    simpa using block.id.child_unrelated (Nat.ne_of_lt hjk)
  · intro a ha id' block' hlive' hne
    obtain ⟨k, _, rfl⟩ := List.mem_mapIdx.mp ha
    exact (tiled.unrelated _ _ _ _ live hlive' (hne block List.mem_cons_self)).of_extends
      (block.id.child_extends k)
  · intro a ha
    obtain ⟨k, _, rfl⟩ := List.mem_mapIdx.mp ha
    exact tiled.fresh block.id block live
  · exact Nat.le_refl _
  · intro x y _ _ _
    rfl
  · intro a ha paint hpaint p hp
    have hmem : p ∈ block.rect := (exists_part_iff tiles p).mp ⟨a, ha, hp⟩
    obtain ⟨k, _, rfl⟩ := List.mem_mapIdx.mp ha
    exact tiled.shown _ _ paint live hpaint p hmem

lemma commonPaint_eq_some {first second : Block} {paint : Color}
    (h : Block.commonPaint first second = some paint) :
    first.paint = some paint ∧ second.paint = some paint := by
  simp only [Block.commonPaint] at h
  split at h
  · rename_i c d hc hd
    split at h
    · rename_i heq
      subst heq
      cases h
      exact ⟨hc, hd⟩
    · cases h
  · cases h

lemma Tiled.regroups_merge (tiled : b.Tiled width height) {id id' : BlockId}
    {first second : Block} (live : b.live[id]? = some first) (live' : b.live[id']? = some second)
    {rect : Rect} (join : first.rect.join second.rect = .ok rect) (cost : Nat) :
    b.Regroups ⟨[first.id, second.id], [⟨.top b.ids.next, rect, Block.commonPaint first second⟩],
      .keep, ⟨b.ids.next + 1⟩, cost⟩ [first, second] := by
  obtain rfl := tiled.keyed id first live
  obtain rfl := tiled.keyed id' second live'
  constructor
  · simpa using ⟨live, live'⟩
  · simp
  · simp
  · intro p
    simpa using Rect.join_mem_iff join p
  · simp
  · simp
  · simp only [List.mem_singleton, forall_eq]
    intro id block hlive _
    -- The number of the new block is larger than all live ones.
    have hlt := tiled.fresh id block hlive
    exact ⟨fun h => Nat.ne_of_gt hlt h.1, fun h => Nat.ne_of_lt hlt h.1⟩
  · simp [BlockId.top]
  · exact Nat.le_succ _
  · intro x y _ _ _
    rfl
  · simp only [List.mem_singleton, forall_eq]
    intro paint hpaint p hp
    obtain ⟨hfirst, hsecond⟩ := commonPaint_eq_some hpaint
    rcases (Rect.join_mem_iff join p).mp hp with hp | hp
    · exact tiled.shown _ _ paint live hfirst p hp
    · exact tiled.shown _ _ paint live' hsecond p hp

lemma Tiled.regroups_swap (tiled : b.Tiled width height) {id id' : BlockId}
    {first second : Block} (live : b.live[id]? = some first) (live' : b.live[id']? = some second)
    (different : first.id ≠ second.id) (same : first.rect.sameSize second.rect) (cost : Nat) :
    b.Regroups ⟨[], [{ first with rect := second.rect }, { second with rect := first.rect }],
      .exchange second.rect first.rect, b.ids, cost⟩ [first, second] := by
  obtain rfl := tiled.keyed id first live
  obtain rfl := tiled.keyed id' second live'
  have hapart := tiled.apart _ _ _ _ live' live different.symm
  have hfirst := tiled.within _ _ live
  have hsecond := tiled.within _ _ live'
  rw [← tiled.width_eq, ← tiled.height_eq] at hfirst hsecond
  have same' : second.rect.sameSize first.rect := Rect.sameSize_comm.symm.trans same
  obtain ⟨hmoved, hkept⟩ := Raster.pixel_exchange same' hapart hsecond hfirst
  constructor
  · simpa using ⟨live, live'⟩
  · simp
  · simp
  · simp [or_comm]
  · simpa using hapart
  · simpa using tiled.unrelated _ _ _ _ live live' different
  · simp only [List.mem_cons, List.not_mem_nil, or_false, forall_eq_or_imp, forall_eq]
    constructor
    · intro id block hlive hne
      exact tiled.unrelated _ _ _ _ live hlive hne.1
    · intro id block hlive hne
      exact tiled.unrelated _ _ _ _ live' hlive hne.2
  · simpa using ⟨tiled.fresh _ _ live, tiled.fresh _ _ live'⟩
  · exact Nat.le_refl _
  · intro x y hx hy hout
    simp only [List.mem_cons, List.not_mem_nil, or_false, forall_eq_or_imp, forall_eq] at hout
    exact hkept x y hx hy hout.2 hout.1
  · simp only [List.mem_cons, List.not_mem_nil, or_false, forall_eq_or_imp, forall_eq]
    constructor
    · intro paint hpaint p hp
      rw [Raster.stroke, (hmoved p hp).1]
      exact tiled.shown _ _ paint live hpaint _ (Raster.moved_mem same' hp)
    · intro paint hpaint p hp
      have hback := (hmoved _ (Raster.moved_mem same hp)).2
      rw [Raster.moved_moved hp] at hback
      rw [Raster.stroke, hback]
      exact tiled.shown _ _ paint live' hpaint _ (Raster.moved_mem same hp)

theorem Tiled.regroups (tiled : b.Tiled width height) {i : Instruction} {c : Change}
    (legal : b.Legal i c) : ∃ old, b.Regroups c old := by
  cases legal with
  | color paint live => exact ⟨_, tiled.regroups_color live paint _⟩
  | lineCut live cut => exact ⟨_, tiled.regroups_parts live (Rect.cut_tiles cut) _⟩
  | pointCut live cut => exact ⟨_, tiled.regroups_parts live (Rect.cutPoint_tiles cut) _⟩
  | merge live live' join left => exact ⟨_, tiled.regroups_merge live live' join _⟩
  | swap live live' different same => exact ⟨_, tiled.regroups_swap live live' different same _⟩

theorem Tiled.attemptAll (tiled : b.Tiled width height) (program : List Instruction) :
    (b.attemptAll program).Tiled width height := by
  refine attemptAll_induction (P := (Tiled · width height)) tiled ?_ program
  intro b i c tiled legal
  obtain ⟨old, regroups⟩ := tiled.regroups legal
  exact tiled.regroup regroups

end

end Board

end BlockPainting
