import BlockPainting.Proofs.Layout.Joining
import BlockPainting.Proofs.Rect.Fusing

/-!
# What joining blocks comes to

Every merge takes a number and leaves one block less, and what is joined has a paint only if all its
parts have it. Given enough numbers, blocks can be joined exactly if their rectangles can.
-/

namespace BlockPainting.Layout

open Success

variable {ids mid after : IdSupply} {prices : Pricing} {program program' : List Instruction}
variable {blocks blocks' joined joined' list : List Block} {cols : List (List Block)}
variable {first merged : Block}

/-- The program makes the blocks `joined` out of `blocks` by merges alone, each of which takes the
next number. -/
structure Merges (blocks joined : List Block) (program : List Instruction)
    (ids after : IdSupply) : Prop where
  merges : ∀ i ∈ program, ∃ a b, i = .merge a b
  taken : after.next = ids.next + program.length
  count : program.length + joined.length = blocks.length
  paint_iff : ∀ c, (∀ b ∈ joined, b.paint = some c) ↔ ∀ b ∈ blocks, b.paint = some c

namespace Merges

lemma refl (blocks : List Block) (ids : IdSupply) : Merges blocks blocks [] ids ids :=
  ⟨by simp, rfl, by simp, fun _ => Iff.rfl⟩

lemma trans (h : Merges blocks joined program ids mid)
    (h' : Merges joined joined' program' mid after) :
    Merges blocks joined' (program ++ program') ids after where
  merges := List.forall_mem_append.mpr ⟨h.merges, h'.merges⟩
  taken := by
    rw [h'.taken, h.taken, List.length_append, Nat.add_assoc]
  count := by
    rw [List.length_append, Nat.add_assoc, h'.count, h.count]
  paint_iff c := (h'.paint_iff c).trans (h.paint_iff c)

lemma append (h : Merges blocks joined program ids mid)
    (h' : Merges blocks' joined' program' mid after) :
    Merges (blocks ++ blocks') (joined ++ joined') (program ++ program') ids after where
  merges := List.forall_mem_append.mpr ⟨h.merges, h'.merges⟩
  taken := by
    rw [h'.taken, h.taken, List.length_append, Nat.add_assoc]
  count := by
    have hcount := h.count
    have hcount' := h'.count
    simp only [List.length_append]
    omega
  paint_iff c := by
    rw [List.forall_mem_append, List.forall_mem_append, h.paint_iff, h'.paint_iff]

lemma perm (h : Merges blocks joined program ids after) (perm : blocks.Perm blocks') :
    Merges blocks' joined program ids after where
  merges := h.merges
  taken := h.taken
  count := h.count.trans perm.length_eq
  paint_iff c := (h.paint_iff c).trans (by simp only [perm.mem_iff])

end Merges

lemma commonPaint_eq_some_iff {a b : Block} {c : Color} :
    Block.commonPaint a b = some c ↔ a.paint = some c ∧ b.paint = some c := by
  refine ⟨Board.commonPaint_eq_some, ?_⟩
  rintro ⟨ha, hb⟩
  simp [Block.commonPaint, ha, hb]

lemma merges_of_joinTwo {a b : Block} {move : Move Block}
    (h : runFrom ids (joinTwo prices a b) = (.ok move, after)) :
    Merges [a, b] [move.blocks] [move.instruction] ids after ∧
      a.rect.join b.rect = .ok move.blocks.rect := by
  obtain ⟨rect, join, _, heq⟩ := Block.merge_eq_ok.mp (joinTwo_eq_ok.mp h)
  cases heq
  refine ⟨⟨by simp, rfl, rfl, ?_⟩, join⟩
  intro c
  simp [commonPaint_eq_some_iff]

lemma exists_joinTwo {a b : Block} {rect : Rect} (join : a.rect.join b.rect = .ok rect)
    (left : ids.next ≤ maxRoot) :
    ∃ move : Move Block, move.blocks.rect = rect ∧
      runFrom ids (joinTwo prices a b) = (.ok move, ⟨ids.next + 1⟩) :=
  ⟨_, rfl, joinTwo_eq_ok.mpr (Block.merge_eq_ok.mpr ⟨rect, join, left, rfl⟩)⟩

lemma merges_of_joinAll
    (h : runFrom ids (joinAll prices first list) = (.ok (program, merged), after)) :
    Merges (first :: list) [merged] program ids after ∧
      Rect.Fuses ((first :: list).map Block.rect) merged.rect := by
  induction list generalizing ids first program with
  | nil =>
    cases h
    exact ⟨Merges.refl _ _, Rect.Fuses.one _⟩
  | cons next list ih =>
    rw [joinAll, runFrom_bind_eq_ok] at h
    obtain ⟨move, mid, hmove, h⟩ := h
    obtain ⟨⟨more, last⟩, _, hmore, h⟩ := runFrom_bind_eq_ok.mp h
    cases h
    obtain ⟨hstep, hjoin⟩ := merges_of_joinTwo hmove
    obtain ⟨hrest, hfuses⟩ := ih hmore
    exact ⟨(hstep.append (Merges.refl list mid)).trans hrest, Rect.Fuses.more hjoin hfuses⟩

lemma exists_joinAll {r : Rect} (fuses : Rect.Fuses ((first :: list).map Block.rect) r)
    (enough : list.length ≤ maxRoot + 1 - ids.next) :
    ∃ program merged after,
      runFrom ids (joinAll prices first list) = (.ok (program, merged), after) := by
  induction list generalizing ids first with
  | nil => exact ⟨[], first, ids, rfl⟩
  | cons next list ih =>
    rw [List.length_cons] at enough
    cases fuses with
    | more join fuses =>
      have left : ids.next ≤ maxRoot := by omega
      have hroom : list.length ≤ maxRoot + 1 - (ids.next + 1) := by omega
      obtain ⟨move, rfl, hmove⟩ := @exists_joinTwo ids prices _ _ _ join left
      obtain ⟨program, merged, after, hrest⟩ := @ih ⟨ids.next + 1⟩ move.blocks fuses hroom
      refine ⟨move.instruction :: program, merged, after, ?_⟩
      rw [joinAll, runFrom_bind_of_ok hmove, runFrom_bind_of_ok hrest, runFrom_pure]

/-- The rectangle of `b` is made by joining those of a column. -/
def Stacked (column : List Block) (b : Block) : Prop :=
  Rect.Fuses (column.map Block.rect) b.rect

lemma merges_of_joinColumns (hne : ∀ column ∈ cols, column ≠ [])
    (h : runFrom ids (joinColumns prices cols) = (.ok (program, joined), after)) :
    Merges cols.flatten joined program ids after ∧ List.Forall₂ Stacked cols joined := by
  induction cols generalizing ids program joined with
  | nil =>
    cases h
    exact ⟨Merges.refl _ _, List.Forall₂.nil⟩
  | cons column cols ih =>
    obtain ⟨hcolumn, hcols⟩ := List.forall_mem_cons.mp hne
    obtain ⟨first, above, rfl⟩ := List.exists_cons_of_ne_nil hcolumn
    rw [joinColumns, runFrom_bind_eq_ok] at h
    obtain ⟨⟨more, merged⟩, mid, hjoin, h⟩ := h
    obtain ⟨⟨others, rest⟩, _, hothers, h⟩ := runFrom_bind_eq_ok.mp h
    cases h
    obtain ⟨hmerges, hstacked⟩ := merges_of_joinAll hjoin
    obtain ⟨hmerges', hstacked'⟩ := ih hcols hothers
    exact ⟨hmerges.append hmerges', List.Forall₂.cons hstacked hstacked'⟩

lemma length_le_flatten (hne : ∀ column ∈ cols, column ≠ []) :
    cols.length ≤ cols.flatten.length := by
  rw [List.length_flatten, ← List.length_map List.length]
  refine List.length_le_sum_of_one_le _ ?_
  simpa [List.length_pos_iff, Nat.one_le_iff_ne_zero] using hne

lemma exists_joinColumns (hne : ∀ column ∈ cols, column ≠ [])
    (fuses : ∀ column ∈ cols, ∃ r, Rect.Fuses (column.map Block.rect) r)
    (enough : cols.flatten.length ≤ cols.length + (maxRoot + 1 - ids.next)) :
    ∃ program joined after,
      runFrom ids (joinColumns prices cols) = (.ok (program, joined), after) := by
  induction cols generalizing ids with
  | nil => exact ⟨[], [], ids, rfl⟩
  | cons column cols ih =>
    obtain ⟨hcolumn, hcols⟩ := List.forall_mem_cons.mp hne
    obtain ⟨⟨r, hr⟩, hfuses⟩ := List.forall_mem_cons.mp fuses
    obtain ⟨first, above, rfl⟩ := List.exists_cons_of_ne_nil hcolumn
    simp only [List.flatten_cons, List.length_append, List.length_cons] at enough
    have hlength := length_le_flatten hcols
    have hroom : above.length ≤ maxRoot + 1 - ids.next := by omega
    obtain ⟨program, merged, mid, hjoin⟩ := @exists_joinAll ids prices _ _ _ hr hroom
    obtain ⟨hmerges, _⟩ := merges_of_joinAll hjoin
    have htaken := hmerges.taken
    have hcount := hmerges.count
    simp only [List.length_cons, List.length_nil] at hcount
    have hroom' : cols.flatten.length ≤ cols.length + (maxRoot + 1 - mid.next) := by omega
    obtain ⟨others, rest, after, hothers⟩ := ih hcols hfuses hroom'
    refine ⟨program ++ others, merged :: rest, after, ?_⟩
    rw [joinColumns, runFrom_bind_of_ok hjoin, runFrom_bind_of_ok hothers, runFrom_pure]

lemma ne_nil_of_mem_columns {column : List Block} (h : column ∈ columns blocks) : column ≠ [] :=
  List.ne_nil_of_mem_splitBy h

/-- Where all blocks were joined, first those of each column and then the columns were. -/
lemma merges_of_mergeGrid (h : mergeGrid blocks ids prices = (.ok (program, merged), after)) :
    Merges blocks [merged] program ids after ∧
      ∃ joined, List.Forall₂ Stacked (columns blocks) joined ∧ Stacked joined merged := by
  change runFrom ids (joinGrid prices blocks) = _ at h
  rw [joinGrid, runFrom_bind_eq_ok] at h
  obtain ⟨⟨program, joined⟩, mid, hcolumns, h⟩ := h
  obtain ⟨hmerges, hstacked⟩ := merges_of_joinColumns (fun _ => ne_nil_of_mem_columns) hcolumns
  cases joined with
  | nil => cases h
  | cons first rest =>
    obtain ⟨⟨more, last⟩, _, hmore, h⟩ := runFrom_bind_eq_ok.mp h
    cases h
    obtain ⟨hmerges', hfuses⟩ := merges_of_joinAll hmore
    exact ⟨(hmerges.trans hmerges').perm (flatten_columns blocks), first :: rest, hstacked, hfuses⟩

lemma exists_mergeGrid (hne : blocks ≠ [])
    (fuses : ∀ column ∈ columns blocks, ∃ r, Rect.Fuses (column.map Block.rect) r)
    (fuses' : ∀ joined, List.Forall₂ Stacked (columns blocks) joined →
      ∃ r, Rect.Fuses (joined.map Block.rect) r)
    (enough : blocks.length - 1 ≤ maxRoot + 1 - ids.next) :
    ∃ program merged, (mergeGrid blocks ids prices).1 = .ok (program, merged) := by
  have hperm := flatten_columns blocks
  have hlength := hperm.length_eq
  have hblocks := List.length_pos_iff.mpr hne
  have hcolumns : columns blocks ≠ [] := by
    intro hnil
    rw [hnil] at hlength
    simp only [List.flatten_nil, List.length_nil] at hlength
    omega
  have hcount := List.length_pos_iff.mpr hcolumns
  have hroom : (columns blocks).flatten.length ≤
      (columns blocks).length + (maxRoot + 1 - ids.next) := by
    omega
  obtain ⟨program, joined, mid, hjoin⟩ :=
    @exists_joinColumns ids prices _ (fun _ => ne_nil_of_mem_columns) fuses hroom
  obtain ⟨hmerges, hstacked⟩ := merges_of_joinColumns (fun _ => ne_nil_of_mem_columns) hjoin
  have htaken := hmerges.taken
  have hcount' := hmerges.count
  rw [hstacked.length_eq] at hcount
  obtain ⟨first, rest, rfl⟩ := List.exists_cons_of_ne_nil (List.length_pos_iff.mp hcount)
  obtain ⟨r, hr⟩ := fuses' _ hstacked
  rw [List.length_cons] at hcount'
  have hroom' : rest.length ≤ maxRoot + 1 - mid.next := by omega
  obtain ⟨more, merged, after, hmore⟩ := @exists_joinAll mid prices _ _ _ hr hroom'
  have hgrid : runFrom ids (joinGrid prices blocks) = (.ok (program ++ more, merged), after) := by
    rw [joinGrid, runFrom_bind_of_ok hjoin]
    change runFrom mid (joinAll prices first rest >>= _) = _
    rw [runFrom_bind_of_ok hmore, runFrom_pure]
  exact ⟨program ++ more, merged, congrArg Prod.fst hgrid⟩

end BlockPainting.Layout
