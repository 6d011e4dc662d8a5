import BlockPainting.Layout.Merging
import BlockPainting.Proofs.Board.Reached
import BlockPainting.Proofs.Board.Works

/-!
# Joining all initial blocks

Joining blocks predicts what a board would do, down to the numbers of the joined blocks. `Holds`
says which blocks a board holds. Where blocks can be joined, a board that holds them carries out the
merges. Every merge takes one number and leaves one block less, so numbers and blocks balance.
-/

namespace BlockPainting

namespace Board

open Success

/-- The live blocks are these, each under its id, and all lie on the raster. -/
structure Holds (b : Board) (width height : Nat) (blocks : List Block) : Prop where
  sized : b.Sized width height
  rooted : b.Rooted
  within : ∀ block ∈ blocks, block.rect.Within width height
  live_iff : ∀ (id : BlockId) (block : Block),
    b.live[id]? = some block ↔ block ∈ blocks ∧ block.id = id
  distinct : blocks.Pairwise fun a a' => a.id ≠ a'.id

/-- The program leads from `b` to a board with the blocks `joined`, and every number it takes is
paid for by a block. -/
structure Joins (b b' : Board) (width height : Nat) (blocks joined : List Block)
    (program : List Instruction) : Prop where
  run : b.applyAll program = .ok b'
  holds : b'.Holds width height joined
  balance : b'.ids.next + joined.length = b.ids.next + blocks.length

variable {b mid b' : Board} {width height : Nat} {blocks joined rest initial : List Block}
variable {program program' : List Instruction} {first second block : Block}

lemma holds_start (tiling : Layout.Tiling initial width height)
    (h : start width height initial = .ok b) : b.Holds width height initial where
  sized := Reached.sized ⟨b, h, [], rfl⟩
  rooted := rooted_of_start h
  within := tiling.within
  live_iff _ _ := live_start_iff h
  distinct := tiling.distinct

lemma Holds.perm (holds : b.Holds width height blocks) (perm : blocks.Perm joined) :
    b.Holds width height joined where
  sized := holds.sized
  rooted := holds.rooted
  within block hblock := holds.within block (perm.mem_iff.mpr hblock)
  live_iff id block := by
    rw [holds.live_iff, perm.mem_iff]
  distinct := (perm.pairwise_iff fun hne => Ne.symm hne).mp holds.distinct

lemma Holds.live (holds : b.Holds width height blocks) (h : block ∈ blocks) :
    b.live[block.id]? = some block :=
  (holds.live_iff block.id block).mpr ⟨h, rfl⟩

lemma Holds.ready (holds : b.Holds width height [block]) :
    b.Ready width height block.id block.rect := by
  refine ⟨holds.sized, holds.within block List.mem_cons_self,
    ⟨block, holds.live List.mem_cons_self, rfl⟩, ?_⟩
  intro id hne _
  rw [Option.eq_none_iff_forall_ne_some]
  intro other hother
  obtain ⟨hmem, rfl⟩ := (holds.live_iff id other).mp hother
  obtain rfl := List.mem_singleton.mp hmem
  exact hne rfl

lemma Joins.refl (holds : b.Holds width height blocks) : b.Joins b width height blocks blocks [] :=
  ⟨rfl, holds, rfl⟩

lemma Joins.trans {mids : List Block} (h : b.Joins mid width height blocks mids program)
    (h' : mid.Joins b' width height mids joined program') :
    b.Joins b' width height blocks joined (program ++ program') :=
  ⟨applyAll_append_eq_ok.mpr ⟨mid, h.run, h'.run⟩, h'.holds, h'.balance.trans h.balance⟩

lemma Joins.perm {blocks' joined' : List Block}
    (h : b.Joins b' width height blocks joined program) (perm : blocks.Perm blocks')
    (perm' : joined.Perm joined') : b.Joins b' width height blocks' joined' program :=
  ⟨h.run, h.holds.perm perm', by rw [← perm'.length_eq, ← perm.length_eq, h.balance]⟩

lemma Holds.merge (holds : b.Holds width height (first :: second :: rest)) {rect : Rect}
    (join : first.rect.join second.rect = .ok rect) (left : b.ids.next ≤ maxRoot) :
    ∃ b', b.Joins b' width height (first :: second :: rest)
      (⟨.top b.ids.next, rect, Block.commonPaint first second⟩ :: rest)
      [.merge first.id second.id] ∧ b'.ids = ⟨b.ids.next + 1⟩ := by
  have hlive : b.live[first.id]? = some first := holds.live List.mem_cons_self
  have hlive' : b.live[second.id]? = some second := holds.live (by simp)
  have legal := Legal.merge hlive hlive' join left
  have hdistinct := holds.distinct
  simp only [List.pairwise_cons, List.forall_mem_cons] at hdistinct
  obtain ⟨⟨_, hfirst⟩, hsecond, hrest⟩ := hdistinct
  have hfresh : ∀ block ∈ rest, BlockId.top b.ids.next ≠ block.id := by
    intro block hblock heq
    have hmem : block ∈ first :: second :: rest := by simp [hblock]
    have hlt := holds.rooted _ _ (holds.live hmem)
    rw [← heq] at hlt
    exact Nat.lt_irrefl _ hlt
  refine ⟨_, ⟨legal.applyAll, ?_, ?_⟩, rfl⟩
  · refine ⟨holds.sized.commit legal.distinct, holds.rooted.commit holds.sized legal, ?_, ?_, ?_⟩
    · rw [List.forall_mem_cons]
      refine ⟨Rect.within_of_mem ?_, fun block hblock => holds.within block (by simp [hblock])⟩
      intro p hp
      rcases (Rect.join_mem_iff join p).mp hp with hp | hp
      · exact (holds.within first (by simp)).lt hp
      · exact (holds.within second (by simp)).lt hp
    · intro id block
      rw [live_commit_iff legal.distinct, holds.live_iff]
      simp only [List.mem_cons, List.not_mem_nil, or_false, forall_eq, not_or]
      constructor
      · rintro (⟨rfl, rfl⟩ | ⟨_, ⟨hne, hne'⟩, rfl | rfl | hmem, rfl⟩)
        · exact ⟨Or.inl rfl, rfl⟩
        · exact absurd rfl hne
        · exact absurd rfl hne'
        · exact ⟨Or.inr hmem, rfl⟩
      · rintro ⟨rfl | hmem, rfl⟩
        · exact Or.inl ⟨rfl, rfl⟩
        · exact Or.inr ⟨hfresh block hmem, ⟨(hfirst block hmem).symm, (hsecond block hmem).symm⟩,
            Or.inr (Or.inr hmem), rfl⟩
    · exact List.pairwise_cons.mpr ⟨hfresh, hrest⟩
  · change b.ids.next + 1 + (rest.length + 1) = b.ids.next + (rest.length + 1 + 1)
    omega

end Board

namespace Layout

open Board Success

variable {b : Board} {width height : Nat} {ids : IdSupply} {blocks list rest initial : List Block}
variable {cols : List (List Block)} {first second merged : Block} {program : List Instruction}
variable {prices : Pricing}

lemma joinTwo_eq_ok {start : IdSupply} {move : Move Block} :
    runFrom start (joinTwo prices first second) = (.ok move, ids) ↔
      first.merge second start prices = .ok (move, ids) := by
  have hget : runFrom start (get : Merging IdSupply) = (.ok start, start) := rfl
  rw [joinTwo, runFrom_bind_of_ok hget]
  rcases first.merge second start prices with e | ⟨move', ids'⟩
  · change (Except.error _, start) = _ ↔ _
    simp
  · change (Except.ok move', ids') = _ ↔ _
    simp

/-- The board carries out the merge that was predicted. -/
lemma joins_of_joinTwo (holds : b.Holds width height (first :: second :: rest)) {move : Move Block}
    (h : runFrom b.ids (joinTwo prices first second) = (.ok move, ids)) :
    ∃ b', b.Joins b' width height (first :: second :: rest) (move.blocks :: rest)
      [move.instruction] ∧ b'.ids = ids := by
  obtain ⟨rect, join, left, heq⟩ := Block.merge_eq_ok.mp (joinTwo_eq_ok.mp h)
  cases heq
  exact holds.merge join left

lemma joins_of_joinAll (holds : b.Holds width height (first :: (list ++ rest)))
    (h : runFrom b.ids (joinAll prices first list) = (.ok (program, merged), ids)) :
    ∃ b', b.Joins b' width height (first :: (list ++ rest)) (merged :: rest) program ∧
      b'.ids = ids := by
  induction list generalizing b first program with
  | nil =>
    cases h
    exact ⟨b, Joins.refl holds, rfl⟩
  | cons next list ih =>
    rw [joinAll, runFrom_bind_eq_ok] at h
    obtain ⟨move, mid, hmove, h⟩ := h
    obtain ⟨⟨more, last⟩, _, hmore, h⟩ := runFrom_bind_eq_ok.mp h
    cases h
    obtain ⟨b₁, hjoins, rfl⟩ := joins_of_joinTwo holds hmove
    obtain ⟨b₂, hjoins', rfl⟩ := ih hjoins.holds hmore
    exact ⟨b₂, hjoins.trans hjoins', rfl⟩

lemma joins_of_joinColumns (holds : b.Holds width height (cols.flatten ++ rest))
    (h : runFrom b.ids (joinColumns prices cols) = (.ok (program, blocks), ids)) :
    ∃ b', b.Joins b' width height (cols.flatten ++ rest) (blocks ++ rest) program ∧
      b'.ids = ids := by
  induction cols generalizing b rest program blocks with
  | nil =>
    cases h
    exact ⟨b, Joins.refl holds, rfl⟩
  | cons column cols ih =>
    cases column with
    | nil => exact ih holds h
    | cons first above =>
      rw [joinColumns, runFrom_bind_eq_ok] at h
      obtain ⟨⟨more, merged⟩, mid, hcolumn, h⟩ := h
      obtain ⟨⟨others, joined⟩, _, hothers, h⟩ := runFrom_bind_eq_ok.mp h
      cases h
      rw [List.flatten_cons, List.append_assoc, List.cons_append] at holds ⊢
      obtain ⟨b₁, hjoins, rfl⟩ := joins_of_joinAll holds hcolumn
      -- The joined column waits behind the columns still to be joined.
      have hperm : (merged :: (cols.flatten ++ rest)).Perm (cols.flatten ++ merged :: rest) :=
        List.perm_middle.symm
      obtain ⟨b₂, hjoins', rfl⟩ := ih (hjoins.holds.perm hperm) hothers
      exact ⟨b₂, hjoins.trans (hjoins'.perm hperm.symm List.perm_middle), rfl⟩

lemma flatten_columns (blocks : List Block) : (columns blocks).flatten.Perm blocks := by
  rw [columns, List.flatten_splitBy]
  exact List.mergeSort_perm _ _

theorem joins_of_mergeGrid (holds : b.Holds width height blocks)
    (h : mergeGrid blocks b.ids prices = (.ok (program, merged), ids)) :
    ∃ b', b.Joins b' width height blocks [merged] program ∧ b'.ids = ids := by
  change runFrom b.ids (joinGrid prices blocks) = _ at h
  rw [joinGrid, runFrom_bind_eq_ok] at h
  obtain ⟨⟨some_merges, joined⟩, mid, hcolumns, h⟩ := h
  have hperm := flatten_columns blocks
  have hholds : b.Holds width height ((columns blocks).flatten ++ []) := by
    rw [List.append_nil]
    exact holds.perm hperm.symm
  obtain ⟨b₁, hjoins, rfl⟩ := joins_of_joinColumns hholds hcolumns
  rw [List.append_nil, List.append_nil] at hjoins
  cases joined with
  | nil => cases h
  | cons first others =>
    obtain ⟨⟨more, last⟩, _, hmore, h⟩ := runFrom_bind_eq_ok.mp h
    cases h
    have hjoined : b₁.Holds width height (first :: (others ++ [])) := by
      rw [List.append_nil]
      exact hjoins.holds
    obtain ⟨b₂, hjoins', rfl⟩ := joins_of_joinAll hjoined hmore
    rw [List.append_nil] at hjoins'
    exact ⟨b₂, (hjoins.trans hjoins').perm hperm (List.Perm.refl _), rfl⟩

end Layout

end BlockPainting
