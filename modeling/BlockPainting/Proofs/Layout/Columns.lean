import BlockPainting.Proofs.Layout.Merges

/-!
# Which tilings can be merged column by column

Sorted by left edge, blocks fall into columns. In a tiling in which blocks with the same left edge
have the same width, every column reaches from the bottom to the top and the next begins where it
ends, so all joins go through. In all other tilings some column cannot be joined.
-/

namespace BlockPainting.Layout

open Success

variable {blocks listed joined column column' : List Block} {a b : Block} {width height : Nat}

/-- Blocks with the same left edge have the same width. -/
def Columnar (blocks : List Block) : Prop :=
  ∀ a ∈ blocks, ∀ b ∈ blocks, a.rect.x = b.rect.x → a.rect.width = b.rect.width

lemma leftBelow_iff : leftBelow a b ↔
    a.rect.x < b.rect.x ∨ a.rect.x = b.rect.x ∧ a.rect.y ≤ b.rect.y := by
  simp [leftBelow]

lemma pairwise_leftBelow (blocks : List Block) :
    (blocks.mergeSort leftBelow).Pairwise fun a b => leftBelow a b := by
  refine List.pairwise_mergeSort ?_ ?_ blocks
  · intro a b c
    simp only [leftBelow_iff]
    omega
  · intro a b
    rw [Bool.or_eq_true, leftBelow_iff, leftBelow_iff]
    omega

lemma eq_of_mem_rect (apart : blocks.Pairwise fun a b => a.rect.Apart b.rect) (ha : a ∈ blocks)
    (hb : b ∈ blocks) {p : Nat × Nat} (hpa : p ∈ a.rect) (hpb : p ∈ b.rect) : a = b := by
  by_contra hne
  exact apart.forall ha hb hne p hpa hpb

lemma columns_perm (apart : blocks.Pairwise fun a b => a.rect.Apart b.rect)
    (perm : listed.Perm blocks) : columns listed = columns blocks := by
  have hsort : listed.mergeSort leftBelow = blocks.mergeSort leftBelow := by
    refine List.Perm.eq_of_pairwise ?_ (pairwise_leftBelow listed) (pairwise_leftBelow blocks)
      ((List.mergeSort_perm _ _).trans (perm.trans (List.mergeSort_perm _ _).symm))
    intro a b ha hb hab hba
    rw [List.mem_mergeSort] at ha hb
    rw [leftBelow_iff] at hab hba
    -- Two different blocks never have one bottom-left corner.
    have hcorner : (a.rect.x, a.rect.y) = (b.rect.x, b.rect.y) := by
      rw [Prod.mk.injEq]
      omega
    refine eq_of_mem_rect apart (perm.mem_iff.mp ha) hb a.rect.bottomLeft_mem ?_
    rw [hcorner]
    exact b.rect.bottomLeft_mem
  rw [columns, columns, hsort]

lemma exists_mem_columns_iff : (∃ column ∈ columns blocks, a ∈ column) ↔ a ∈ blocks := by
  rw [← List.mem_flatten, (flatten_columns blocks).mem_iff]

lemma pairwise_columns (blocks : List Block) :
    (∀ column ∈ columns blocks, column.Pairwise fun a b => leftBelow a b) ∧
      (columns blocks).Pairwise fun c c' => ∀ a ∈ c, ∀ b ∈ c', leftBelow a b := by
  rw [← List.pairwise_flatten, columns, List.flatten_splitBy]
  exact pairwise_leftBelow blocks

lemma same_left (hcolumn : column ∈ columns blocks) (ha : a ∈ column) (hb : b ∈ column) :
    a.rect.x = b.rect.x := by
  have hchain : (column.map fun a => a.rect.x).IsChain Eq := by
    simpa [List.isChain_map] using List.isChain_of_mem_splitBy hcolumn
  exact hchain.pairwise.forall_of_forall (fun _ _ => rfl) (List.mem_map_of_mem ha)
    (List.mem_map_of_mem hb)

/-- A column begins to the right of another. -/
structure Before (c c' : List Block) : Prop where
  ne_nil : c' ≠ []
  left_lt : ∀ a ∈ c, ∀ b ∈ c', a.rect.x < b.rect.x

instance : Trans Before Before Before where
  trans h h' := by
    obtain ⟨m, hm⟩ := List.exists_mem_of_ne_nil _ h.ne_nil
    exact ⟨h'.ne_nil, fun a ha b hb => (h.left_lt a ha m hm).trans (h'.left_lt m hm b hb)⟩

lemma pairwise_before (blocks : List Block) : (columns blocks).Pairwise Before := by
  refine List.IsChain.pairwise (List.isChain_iff_getElem.mpr ?_)
  intro i hi
  have hsplit := List.isChain_getLast_head_splitBy (fun a b : Block => a.rect.x == b.rect.x)
    (blocks.mergeSort leftBelow)
  obtain ⟨hne, hne', hdiffer⟩ := List.isChain_iff_getElem.mp hsplit i hi
  have hlast := List.getLast_mem hne
  have hhead := List.head_mem hne'
  have hsorted := List.pairwise_iff_getElem.mp (pairwise_columns blocks).2 i (i + 1) _ hi
    (Nat.lt_succ_self i) _ hlast _ hhead
  refine ⟨hne', ?_⟩
  intro a ha b hb
  have hax := same_left (List.getElem_mem _) ha hlast
  have hbx := same_left (List.getElem_mem _) hb hhead
  rw [leftBelow_iff] at hsorted
  rw [beq_eq_false_iff_ne] at hdiffer
  omega

lemma mem_of_same_left (hcolumn : column ∈ columns blocks) (ha : a ∈ column) (hb : b ∈ blocks)
    (hx : a.rect.x = b.rect.x) : b ∈ column := by
  obtain ⟨column', hcolumn', hb⟩ := exists_mem_columns_iff.mpr hb
  by_cases heq : column = column'
  · rwa [heq]
  · obtain ⟨i, hi, rfl⟩ := List.mem_iff_getElem.mp hcolumn
    obtain ⟨j, hj, rfl⟩ := List.mem_iff_getElem.mp hcolumn'
    have hbefore := List.pairwise_iff_getElem.mp (pairwise_before blocks)
    rcases Nat.lt_trichotomy i j with hlt | rfl | hlt
    · exact absurd hx ((hbefore i j hi hj hlt).left_lt a ha b hb).ne
    · exact absurd rfl heq
    · exact absurd hx ((hbefore j i hj hi hlt).left_lt b hb a ha).ne'

lemma Stacked.mem_iff (stacked : Stacked column b) (p : Nat × Nat) :
    p ∈ b.rect ↔ ∃ a ∈ column, p ∈ a.rect := by
  rw [Rect.Fuses.mem_iff stacked p]
  simp

lemma Stacked.width_eq (stacked : Stacked column b) (hcolumn : column ∈ columns blocks)
    (ha : a ∈ column) : b.rect.x = a.rect.x ∧ b.rect.width = a.rect.width := by
  have hsame : ∀ rect ∈ column.map Block.rect, rect.x = a.rect.x := by
    simp only [List.forall_mem_map]
    exact fun c hc => same_left hcolumn hc ha
  obtain ⟨hx, hwidth⟩ := Rect.Fuses.width_eq stacked hsame
  exact ⟨hx, (hwidth a.rect (List.mem_map_of_mem ha)).symm⟩

lemma columnar_of_stacked (stacked : List.Forall₂ Stacked (columns blocks) joined) :
    Columnar blocks := by
  intro a ha b hb hx
  obtain ⟨column, hcolumn, ha⟩ := exists_mem_columns_iff.mpr ha
  have hb := mem_of_same_left hcolumn ha hb hx
  obtain ⟨merged, _, hmerged⟩ := exists_of_mem_left stacked hcolumn
  exact (hmerged.width_eq hcolumn ha).2.symm.trans (hmerged.width_eq hcolumn hb).2

/-- To the left of a block lies one that ends where it begins. -/
lemma exists_left (tiling : Tiling blocks width height) (ha : a ∈ blocks) (hx : 0 < a.rect.x) :
    ∃ c ∈ blocks, c.rect.x < a.rect.x ∧ c.rect.right = a.rect.x := by
  have hpa := a.rect.bottomLeft_mem
  have hlt := (tiling.within a ha).lt hpa
  obtain ⟨c, hc, hpc⟩ := tiling.covers (a.rect.x - 1, a.rect.y) (by simp only; omega) hlt.2
  obtain ⟨⟨hcx, hcright⟩, hcy⟩ := hpc
  simp only at hcx hcright
  refine ⟨c, hc, by omega, ?_⟩
  by_contra hne
  have hpc : (a.rect.x, a.rect.y) ∈ c.rect := ⟨⟨by simp only; omega, by simp only; omega⟩, hcy⟩
  have heq := eq_of_mem_rect tiling.apart hc ha hpc hpa
  rw [heq] at hcx
  omega

/-- Beside a block, others with its left edge go on from the bottom to the top. -/
lemma exists_beside (tiling : Tiling blocks width height) (columnar : Columnar blocks)
    (ha : a ∈ blocks) {y : Nat} (hy : y < height) :
    ∃ b ∈ blocks, b.rect.x = a.rect.x ∧ (a.rect.x, y) ∈ b.rect := by
  induction hx : a.rect.x using Nat.strong_induction_on generalizing a with
  | _ x ih =>
    subst hx
    have hpa := a.rect.bottomLeft_mem
    have hlt := (tiling.within a ha).lt hpa
    obtain ⟨b, hb, hpb⟩ := tiling.covers (a.rect.x, y) hlt.1 hy
    rcases Nat.eq_or_lt_of_le hpb.1.1 with heq | hbx
    · exact ⟨b, hb, heq, hpb⟩
    -- Otherwise `b` crosses the left edge of `a`, where the column to the left ends.
    have hbx : b.rect.x < a.rect.x := hbx
    obtain ⟨c, hc, hcx, hedge⟩ := exists_left tiling ha (Nat.zero_lt_of_lt hbx)
    obtain ⟨d, hd, hdx, hpd⟩ := ih c.rect.x hcx hc rfl
    have hdright : d.rect.right = a.rect.x := by
      rw [← hedge, Rect.right, Rect.right, hdx, columnar d hd c hc hdx]
    have hmem : (a.rect.x - 1, y) ∈ d.rect ∧ (a.rect.x - 1, y) ∈ b.rect := by
      simp only [Rect.mem_iff] at hpb hpd ⊢
      omega
    have heq := eq_of_mem_rect tiling.apart hd hb hmem.1 hmem.2
    have hcross := hpb.1.2
    rw [← heq, hdright] at hcross
    exact absurd hcross (Nat.lt_irrefl _)

lemma within_of_stacked (tiling : Tiling blocks width height) (hcolumn : column ∈ columns blocks)
    (stacked : Stacked column b) : b.rect.Within width height := by
  refine Rect.within_of_mem fun p hp => ?_
  obtain ⟨a, ha, hpa⟩ := (stacked.mem_iff p).mp hp
  exact (tiling.within a (exists_mem_columns_iff.mp ⟨column, hcolumn, ha⟩)).lt hpa

/-- A joined column reaches from the bottom to the top of the raster. -/
lemma height_of_stacked (tiling : Tiling blocks width height) (columnar : Columnar blocks)
    (hcolumn : column ∈ columns blocks) (stacked : Stacked column b) :
    b.rect.y = 0 ∧ b.rect.height = height := by
  obtain ⟨a, ha⟩ := List.exists_mem_of_ne_nil column (ne_nil_of_mem_columns hcolumn)
  have hbeside : ∀ y < height, (a.rect.x, y) ∈ b.rect := by
    intro y hy
    obtain ⟨c, hc, hcx, hpc⟩ :=
      exists_beside tiling columnar (exists_mem_columns_iff.mp ⟨column, hcolumn, ha⟩) hy
    exact (stacked.mem_iff _).mpr ⟨c, mem_of_same_left hcolumn ha hc hcx.symm, hpc⟩
  have hwithin := within_of_stacked tiling hcolumn stacked
  have hheight := (hwithin.lt b.rect.bottomLeft_mem).2
  have hbottom := (hbeside 0 (by omega)).2.1
  have htop := (hbeside (height - 1) (by omega)).2.2
  have hle := hwithin.2
  simp only [Rect.top] at hbottom htop hle
  omega

lemma exists_fuses_column (tiling : Tiling blocks width height) (columnar : Columnar blocks)
    (hcolumn : column ∈ columns blocks) : ∃ r, Rect.Fuses (column.map Block.rect) r := by
  have hmem : ∀ a ∈ column, a ∈ blocks :=
    fun a ha => exists_mem_columns_iff.mp ⟨column, hcolumn, ha⟩
  have hapart : column.Pairwise fun a b => a.rect.Apart b.rect := by
    have hall := tiling.apart.perm (flatten_columns blocks).symm fun h => symm h
    exact (List.pairwise_flatten.mp hall).1 column hcolumn
  have hsorted : column.Pairwise fun a b => a.rect.top ≤ b.rect.y := by
    refine List.Pairwise.imp_of_mem ?_ (hapart.and ((pairwise_columns blocks).1 column hcolumn))
    rintro a b ha hb ⟨hapart, hbelow⟩
    have hx := same_left hcolumn ha hb
    by_contra hlt
    refine hapart (b.rect.x, b.rect.y) ?_ b.rect.bottomLeft_mem
    have hwidth := a.rect.width_pos
    rw [leftBelow_iff] at hbelow
    simp only [Rect.mem_iff, Rect.right]
    omega
  have hchain : column.IsChain fun a b => a.rect.top = b.rect.y := by
    refine Rect.isChain_of_covers height ?_ hsorted ?_
    · intro a ha
      exact ⟨Nat.lt_add_of_pos_right a.rect.height_pos, (tiling.within a (hmem a ha)).2⟩
    · rintro y hy ⟨a, ha, _⟩
      obtain ⟨b, hb, hbx, hpb⟩ := exists_beside tiling columnar (hmem a ha) hy
      exact ⟨b, mem_of_same_left hcolumn ha hb hbx.symm, hpb.2⟩
  refine Rect.exists_fuses Rect.exists_join_of_below (by simpa using ne_nil_of_mem_columns hcolumn)
    ((List.isChain_map _).mpr (hchain.imp_of_mem_imp ?_))
  intro a b ha hb hedge
  have hx := same_left hcolumn ha hb
  exact ⟨hx, columnar a (hmem a ha) b (hmem b hb) hx, hedge⟩

lemma pairwise_of_forall₂ {α β : Type} {R : α → β → Prop} {S : α → α → Prop} {T : β → β → Prop}
    {as : List α} {bs : List β} (h : List.Forall₂ R as bs) (sorted : as.Pairwise S)
    (carry : ∀ a ∈ as, ∀ a' ∈ as, ∀ b b', R a b → R a' b' → S a a' → T b b') : bs.Pairwise T := by
  induction h with
  | nil => exact List.Pairwise.nil
  | @cons a b as bs hab rest ih =>
    obtain ⟨hfirst, hsorted⟩ := List.pairwise_cons.mp sorted
    refine List.pairwise_cons.mpr ⟨?_, ih hsorted fun a ha a' ha' =>
      carry a (List.mem_cons_of_mem _ ha) a' (List.mem_cons_of_mem _ ha')⟩
    intro b' hb'
    obtain ⟨a', ha', hab'⟩ := exists_of_mem_right rest hb'
    exact carry a List.mem_cons_self a' (List.mem_cons_of_mem _ ha') b b' hab hab' (hfirst a' ha')

lemma right_le_of_before (tiling : Tiling blocks width height) (columnar : Columnar blocks)
    (hcolumn : column ∈ columns blocks) (hcolumn' : column' ∈ columns blocks)
    (stacked : Stacked column a) (stacked' : Stacked column' b) (before : Before column column') :
    a.rect.right ≤ b.rect.x := by
  obtain ⟨hy, hheight⟩ := height_of_stacked tiling columnar hcolumn stacked
  obtain ⟨hy', _⟩ := height_of_stacked tiling columnar hcolumn' stacked'
  obtain ⟨c, hc⟩ := List.exists_mem_of_ne_nil column (ne_nil_of_mem_columns hcolumn)
  obtain ⟨c', hc'⟩ := List.exists_mem_of_ne_nil column' before.ne_nil
  have hx := (stacked.width_eq hcolumn hc).1
  have hx' := (stacked'.width_eq hcolumn' hc').1
  have hlt := before.left_lt c hc c' hc'
  by_contra hcross
  have hp : (b.rect.x, b.rect.y) ∈ a.rect := by
    have hpos := a.rect.height_pos
    simp only [Rect.mem_iff, Rect.top]
    omega
  obtain ⟨d, hd, hpd⟩ := (stacked.mem_iff _).mp hp
  obtain ⟨d', hd', hpd'⟩ := (stacked'.mem_iff _).mp b.rect.bottomLeft_mem
  have heq := eq_of_mem_rect tiling.apart (exists_mem_columns_iff.mp ⟨column, hcolumn, hd⟩)
    (exists_mem_columns_iff.mp ⟨column', hcolumn', hd'⟩) hpd hpd'
  have hless := before.left_lt d hd d' hd'
  rw [heq] at hless
  exact Nat.lt_irrefl _ hless

lemma isChain_of_stacked (tiling : Tiling blocks width height) (columnar : Columnar blocks)
    (stacked : List.Forall₂ Stacked (columns blocks) joined) :
    joined.IsChain fun a b => a.rect.LeftOf b.rect := by
  have hrect : ∀ b ∈ joined, b.rect.y = 0 ∧ b.rect.height = height ∧ b.rect.right ≤ width := by
    intro b hb
    obtain ⟨column, hcolumn, hstacked⟩ := exists_of_mem_right stacked hb
    obtain ⟨hy, hheight⟩ := height_of_stacked tiling columnar hcolumn hstacked
    exact ⟨hy, hheight, (within_of_stacked tiling hcolumn hstacked).1⟩
  have hsorted : joined.Pairwise fun a b => a.rect.right ≤ b.rect.x :=
    pairwise_of_forall₂ stacked (pairwise_before blocks) fun _ hcolumn _ hcolumn' _ _ =>
      right_le_of_before tiling columnar hcolumn hcolumn'
  have hchain : joined.IsChain fun a b => a.rect.right = b.rect.x := by
    refine Rect.isChain_of_covers width ?_ hsorted ?_
    · intro b hb
      exact ⟨Nat.lt_add_of_pos_right b.rect.width_pos, (hrect b hb).2.2⟩
    · rintro x hx ⟨b, hb, _⟩
      have hheight : 0 < height := (hrect b hb).2.1 ▸ b.rect.height_pos
      obtain ⟨a, ha, hpa⟩ := tiling.covers (x, 0) hx hheight
      obtain ⟨column, hcolumn, ha⟩ := exists_mem_columns_iff.mpr ha
      obtain ⟨b', hb', hstacked⟩ := exists_of_mem_left stacked hcolumn
      exact ⟨b', hb', ((hstacked.mem_iff (x, 0)).mpr ⟨a, ha, hpa⟩).1⟩
  refine hchain.imp_of_mem_imp fun a b ha hb hedge => ?_
  obtain ⟨hy, hheight, _⟩ := hrect a ha
  obtain ⟨hy', hheight', _⟩ := hrect b hb
  exact ⟨hy.trans hy'.symm, hheight.trans hheight'.symm, hedge⟩

lemma exists_fuses_columns (tiling : Tiling blocks width height) (columnar : Columnar blocks)
    (stacked : List.Forall₂ Stacked (columns blocks) joined) (hne : blocks ≠ []) :
    ∃ r, Rect.Fuses (joined.map Block.rect) r := by
  obtain ⟨a, ha⟩ := List.exists_mem_of_ne_nil blocks hne
  obtain ⟨column, hcolumn, _⟩ := exists_mem_columns_iff.mpr ha
  obtain ⟨b, hb, _⟩ := exists_of_mem_left stacked hcolumn
  exact Rect.exists_fuses Rect.exists_join_of_leftOf (by simpa using List.ne_nil_of_mem hb)
    ((List.isChain_map _).mpr (isChain_of_stacked tiling columnar stacked))

lemma mem_merged_iff {merged : Block} (stacked : List.Forall₂ Stacked (columns blocks) joined)
    (merges : Stacked joined merged) (p : Nat × Nat) :
    p ∈ merged.rect ↔ ∃ b ∈ blocks, p ∈ b.rect := by
  rw [merges.mem_iff]
  constructor
  · rintro ⟨b, hb, hp⟩
    obtain ⟨column, hcolumn, hstacked⟩ := exists_of_mem_right stacked hb
    obtain ⟨a, ha, hp⟩ := (hstacked.mem_iff p).mp hp
    exact ⟨a, exists_mem_columns_iff.mp ⟨column, hcolumn, ha⟩, hp⟩
  · rintro ⟨a, ha, hp⟩
    obtain ⟨column, hcolumn, ha⟩ := exists_mem_columns_iff.mpr ha
    obtain ⟨b, hb, hstacked⟩ := exists_of_mem_left stacked hcolumn
    exact ⟨b, hb, (hstacked.mem_iff p).mpr ⟨a, ha, hp⟩⟩

lemma bounds_eq_ok_of_mem_iff {r : Raster} {rect : Rect}
    (h : ∀ p : Nat × Nat, p ∈ rect ↔ p.1 < r.width ∧ p.2 < r.height) : r.bounds = .ok rect := by
  have hcorner := (h _).mp rect.bottomLeft_mem
  have hwidth : 0 < r.width := Nat.zero_lt_of_lt hcorner.1
  have hheight : 0 < r.height := Nat.zero_lt_of_lt hcorner.2
  rw [Raster.bounds, Rect.ofSize, dif_pos ⟨hwidth, hheight⟩, Except.ok.injEq]
  refine Rect.eq_of_mem_iff fun p => ?_
  rw [h, Rect.mem_iff]
  simp [Rect.right, Rect.top]

/-- The program merges all blocks into one that covers the raster. It takes a number for every block
but one, and carried out on the blocks it leaves just the merged one. -/
structure MergesAll (blocks : List Block) (r : Raster) (ids after : IdSupply)
    (program : List Instruction) (merged : Block) : Prop where
  length_eq : program.length = blocks.length - 1
  merges : ∀ i ∈ program, ∃ a b, i = .merge a b
  covers : r.bounds = .ok merged.rect
  paint_iff : ∀ c, merged.paint = some c ↔ ∀ b ∈ blocks, b.paint = some c
  taken : after.next = ids.next + (blocks.length - 1)
  replays : ids = .after (Block.largestRoot blocks) →
    ∃ first last, Board.start r.width r.height blocks = .ok first ∧
      first.applyAll program = .ok last ∧
      ∀ id block, last.live[id]? = some block ↔ block = merged ∧ merged.id = id

lemma mergesAll_of_mergeGrid {r : Raster} {ids after : IdSupply} {prices : Pricing}
    {program : List Instruction} {merged : Block} (tiling : Tiling blocks r.width r.height)
    (h : mergeGrid blocks ids prices = (.ok (program, merged), after)) :
    MergesAll blocks r ids after program merged := by
  obtain ⟨hmerges, joined, hstacked, hmerged⟩ := merges_of_mergeGrid h
  have hcount : program.length = blocks.length - 1 := by
    rw [← hmerges.count, List.length_singleton, Nat.add_sub_cancel]
  refine ⟨hcount, hmerges.merges, bounds_eq_ok_of_mem_iff fun p => ?_, ?_, ?_, ?_⟩
  · rw [mem_merged_iff hstacked hmerged]
    constructor
    · rintro ⟨b, hb, hp⟩
      exact (tiling.within b hb).lt hp
    · rintro ⟨hx, hy⟩
      exact tiling.covers p hx hy
  · intro c
    simpa using hmerges.paint_iff c
  · rw [hmerges.taken, hcount]
  · intro hids
    obtain ⟨first, hfirst⟩ := @Board.exists_start r.width r.height blocks tiling.distinct
    rw [hids, ← (Board.counters_of_start hfirst).1] at h
    obtain ⟨last, hjoins, _⟩ := joins_of_mergeGrid (Board.holds_start tiling hfirst) h
    refine ⟨first, last, hfirst, hjoins.run, ?_⟩
    intro id block
    rw [hjoins.holds.live_iff, List.mem_singleton]
    exact and_congr_right fun hblock => by rw [hblock]

/-- Exactly the column layouts can be merged, in whatever order their blocks are listed. -/
theorem mergeGrid_merges_columns {l : Layout} {r : Raster} {blocks : List Block}
    (accepted : l.validate r = .ok blocks) (prices : Pricing) {ids : IdSupply}
    (enough : blocks.length - 1 ≤ maxRoot + 1 - ids.next) :
    ((∃ program merged, (mergeGrid blocks ids prices).1 = .ok (program, merged)) ↔
        Columnar blocks) ∧
      (∀ program merged after, mergeGrid blocks ids prices = (.ok (program, merged), after) →
        MergesAll blocks r ids after program merged) ∧
      ∀ listed, listed.Perm blocks → mergeGrid listed ids prices = mergeGrid blocks ids prices := by
  have htiling := validate_tiling accepted
  refine ⟨⟨?_, ?_⟩, fun _ _ _ => mergesAll_of_mergeGrid htiling, ?_⟩
  · rintro ⟨program, merged, h⟩
    obtain ⟨_, joined, hstacked, _⟩ := merges_of_mergeGrid (Prod.ext h rfl)
    exact columnar_of_stacked hstacked
  · intro columnar
    have hne := ne_nil_of_validate accepted
    exact exists_mergeGrid hne (fun _ => exists_fuses_column htiling columnar)
      (fun _ hstacked => exists_fuses_columns htiling columnar hstacked hne) enough
  · intro listed perm
    rw [mergeGrid, mergeGrid, joinGrid, joinGrid, columns_perm htiling.apart perm]

/-- One block as high as the raster, and to the left of it two others, the upper one first. -/
def twoColumns : Layout where
  width := 2
  height := 2
  blocks := [⟨.top 2, 1, 0, 2, 2, .black⟩, ⟨.top 1, 0, 1, 1, 2, .white⟩,
    ⟨.top 0, 0, 0, 1, 1, .white⟩]

theorem mergeGrid_merges_columns_of_twoColumns :
    ∃ blocks program merged after, twoColumns.validate (.filled 2 2 .white) = .ok blocks ∧
      mergeGrid blocks (.after 2) (.contest 2 2) = (.ok (program, merged), after) ∧
      MergesAll blocks (.filled 2 2 .white) (.after 2) after program merged := by
  obtain ⟨hcolumnar, hmerges, _⟩ := mergeGrid_merges_columns (l := twoColumns)
    (r := .filled 2 2 .white) rfl (.contest 2 2) (show 3 - 1 ≤ maxRoot + 1 - 3 by decide)
  obtain ⟨program, merged, h⟩ := hcolumnar.mpr (by unfold Columnar; decide)
  exact ⟨_, program, merged, _, rfl, Prod.ext h rfl, hmerges program merged _ (Prod.ext h rfl)⟩

end BlockPainting.Layout
