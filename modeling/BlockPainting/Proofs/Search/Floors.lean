import BlockPainting.Proofs.Board.History
import BlockPainting.Proofs.Number.Quotient
import BlockPainting.Proofs.Search.Levels

/-!
# What painting inside a block costs at least

However a block is painted and cut, what comes of it lies inside it, and nothing costs more on a
larger block. So every instruction costs at least what it would cost on the whole block. A search
gives a block up where its penalty is below the price of painting all of it, and then no program that
paints anything inside is worth its price.
-/

namespace BlockPainting

namespace Board

variable {b b' : Board} {width height : Nat} {o : BlockId} {rect : Rect}
variable {i : Instruction} {program : List Instruction} {c : Change}

/-- The instruction paints or cuts, and all it names is `o` or below it. -/
def StaysBelow (o : BlockId) (i : Instruction) : Prop :=
  (i.operation = .color ∨ i.isCut = true) ∧ ∀ id ∈ i.named, id.Extends o

instance (o : BlockId) (i : Instruction) : Decidable (StaysBelow o i) :=
  inferInstanceAs (Decidable (_ ∧ _))

/-- What is live under the id `o` and below it lies inside the rectangle. -/
def Confined (b : Board) (o : BlockId) (rect : Rect) : Prop :=
  ∀ (id : BlockId) (part : Block), id.Extends o → b.live[id]? = some part →
    ∀ p : Nat × Nat, p ∈ part.rect → p ∈ rect

lemma Legal.exists_whole (legal : b.Legal i c)
    (paints : i.operation = .color ∨ i.isCut = true) :
    ∃ id ∈ i.named, ∃ whole, b.live[id]? = some whole ∧
      c.cost = b.prices.cost i.operation whole.rect.area ∧
      ∀ part ∈ c.added, ∀ p : Nat × Nat, p ∈ part.rect → p ∈ whole.rect := by
  cases legal with
  | @color id whole paint live =>
    refine ⟨id, List.mem_singleton_self id, whole, live, rfl, ?_⟩
    intro part hpart
    obtain rfl := List.mem_singleton.mp hpart
    exact fun _ hp => hp
  | @lineCut id whole axis position low high live cut =>
    refine ⟨id, List.mem_singleton_self id, whole, live, rfl, ?_⟩
    intro part hpart p hp
    refine ((Rect.cut_tiles cut).mem_iff p).mpr ?_
    simp only [List.mem_cons, List.not_mem_nil, or_false] at hpart
    rcases hpart with rfl | rfl
    · exact ⟨low, List.mem_cons_self, hp⟩
    · exact ⟨high, List.mem_cons_of_mem low (List.mem_singleton_self high), hp⟩
  | @pointCut id whole x y quarters live cut =>
    refine ⟨id, List.mem_singleton_self id, whole, live, rfl, ?_⟩
    intro part hpart p hp
    change part ∈ quarters.toList.mapIdx whole.part at hpart
    obtain ⟨k, hk, rfl⟩ := List.mem_mapIdx.mp hpart
    exact ((Rect.cutPoint_tiles cut).mem_iff p).mpr ⟨_, List.getElem_mem hk, hp⟩
  | merge => simp [Instruction.operation, Instruction.isCut] at paints
  | swap => simp [Instruction.operation, Instruction.isCut] at paints

lemma confined_of_alone {block : Block} (live : b.live[o]? = some block)
    (alone : ∀ id, id ≠ o → id.Extends o → b.live[id]? = none) : b.Confined o block.rect := by
  intro id part below hpart
  by_cases heq : id = o
  · subst heq
    obtain rfl := Option.some.inj (live.symm.trans hpart)
    exact fun _ hp => hp
  · rw [alone id heq below] at hpart
    cases hpart

/-- Painting and cutting below `o` costs at least what it costs on the whole block, and nothing
leaves the block. -/
lemma Confined.step (confined : b.Confined o rect) (small : rect.area ≤ maxLong)
    (below : StaysBelow o i) (h : b.apply i = .ok b') :
    b'.Confined o rect ∧ b'.prices = b.prices ∧
      b.cost + b.prices.cost i.operation rect.area ≤ b'.cost := by
  obtain ⟨c, legal, rfl⟩ := apply_eq_ok_iff.mp h
  obtain ⟨id, hnamed, whole, live, hcost, hparts⟩ := legal.exists_whole below.1
  have hwhole := confined id whole (below.2 id hnamed) live
  refine ⟨?_, rfl, ?_⟩
  · intro other part hother hpart p hp
    rcases (live_commit_iff legal.distinct).mp hpart with ⟨hadded, _⟩ | ⟨_, _, hold⟩
    · exact hwhole p (hparts part hadded p hp)
    · exact confined other part hother hold p hp
  · have hpos : 0 < whole.rect.area := Nat.mul_pos whole.rect.width_pos whole.rect.height_pos
    change _ ≤ b.cost + c.cost
    rw [hcost]
    exact Nat.add_le_add_left
      (b.prices.cost_antitone i.operation hpos (Rect.area_le_of_mem hwhole) small) _

/-- A program that paints and cuts below `o` costs at least what all its instructions cost on the
whole block. -/
theorem Confined.run (confined : b.Confined o rect) (small : rect.area ≤ maxLong)
    (below : ∀ i ∈ program, StaysBelow o i) (h : b.applyAll program = .ok b') :
    b'.Confined o rect ∧ b'.prices = b.prices ∧
      b.cost + (program.map fun i => b.prices.cost i.operation rect.area).sum ≤ b'.cost := by
  induction program generalizing b with
  | nil =>
    cases h
    exact ⟨confined, rfl, Nat.le_refl _⟩
  | cons i rest ih =>
    rw [List.forall_mem_cons] at below
    obtain ⟨mid, hmid, hrest⟩ := applyAll_cons_eq_ok.mp h
    obtain ⟨hconfined, hprices, hcost⟩ := confined.step small below.1 hmid
    obtain ⟨hconfined', hprices', hcost'⟩ := ih hconfined below.2 hrest
    rw [hprices] at hprices' hcost'
    refine ⟨hconfined', hprices', ?_⟩
    rw [List.map_cons, List.sum_cons]
    omega

end Board

namespace Subdivision

variable {target : Raster} {b b' : Board} {o : BlockId} {block : Block}
variable {program : List Instruction}

/-- Where there is no hope for a block, whoever spends the price of painting it spends more than the
score of leaving it. -/
lemma score_leave_lt {rect : Rect} {current : Color} {spent : Nat}
    (hopeless : Hopeless target rect current)
    (floor : target.pricing.cost .color rect.area ≤ spent) :
    units (Recipe.leave (target.similarity rect current)).score < spent * 2 ^ unitBits ∧
      (spent ≤ maxLong →
        (Recipe.leave (target.similarity rect current)).score < countToFloat spent) := by
  have hpenalty := Raster.nonneg_similarity target rect current
  have hleave : 0.0 ≤ (Recipe.leave (target.similarity rect current)).score :=
    nonneg_exactScore 0 hpenalty
  have hscore : units (Recipe.leave (target.similarity rect current)).score =
      units (target.similarity rect current) := units_zero_add hpenalty
  refine ⟨?_, fun hfits => ?_⟩
  · rw [hscore]
    exact (units_lt_of_lt_countToFloat hpenalty hopeless).trans_le (Nat.mul_le_mul_right _ floor)
  · have hmono := countToFloat_mono floor hfits
    unfold Hopeless at hopeless
    rw [le_iff_units (nonneg_countToFloat _) (nonneg_countToFloat _)] at hmono
    rw [lt_iff_units hpenalty (nonneg_countToFloat _)] at hopeless
    rw [lt_iff_units hleave (nonneg_countToFloat _), hscore]
    exact hopeless.trans_le hmono

/-- On a board with the prices of a raster whose sides fit a word, a program that only paints and
cuts a block on the raster and what comes of it, and that paints anything at all, costs at least what
it costs to paint the whole block. So if a search gives the block up, whatever it remembers and
however deep it is, the program costs more than the whole score of the recipe that leaves the block
alone: in exact numbers, and also when the costs, which fit a long word, are compared as doubles. -/
theorem pruning_loses_nothing
    (sides : target.width ≤ maxCoordinate ∧ target.height ≤ maxCoordinate)
    (priced : b.prices = target.pricing) (live : b.live[o]? = some block)
    (onRaster : block.rect.Within target.width target.height)
    (alone : ∀ id, id ≠ o → id.Extends o → b.live[id]? = none)
    (below : ∀ i ∈ program, Board.StaysBelow o i) (paints : ∃ i ∈ program, i.operation = .color)
    (h : b.applyAll program = .ok b') :
    b.cost + target.pricing.cost .color block.rect.area ≤ b'.cost ∧
    ∀ (σ : Type) (s : Surroundings σ) (current : Color) (tryRecolor : Bool) (start next : σ)
      (leave : Recipe),
      (searchBlock target s block.rect current tryRecolor).run start = .ok (.pruned leave, next) →
      leave = .leave (target.similarity block.rect current) ∧
        units leave.score < (b'.cost - b.cost) * 2 ^ unitBits ∧
        (b'.cost - b.cost ≤ maxLong → leave.score < countToFloat (b'.cost - b.cost)) := by
  have hsmall : block.rect.area ≤ maxLong :=
    onRaster.area_le.trans (Nat.mul_le_mul sides.1 sides.2 |>.trans (by decide))
  have hfloor : b.cost + target.pricing.cost .color block.rect.area ≤ b'.cost := by
    obtain ⟨i, hi, hcolor⟩ := paints
    have hrun := ((Board.confined_of_alone live alone).run hsmall below h).2.2
    -- The one coloring costs at least what it would on the whole block.
    have hone := List.le_sum_of_mem
      (List.mem_map_of_mem (f := fun i => b.prices.cost i.operation block.rect.area) hi)
    rw [hcolor, priced] at hone
    rw [priced] at hrun
    exact (Nat.add_le_add_left hone _).trans hrun
  refine ⟨hfloor, ?_⟩
  intro σ s current tryRecolor start next leave hsearch
  obtain ⟨hopeless, heq⟩ | ⟨_, others, hcompared⟩ :=
    searchBlock_finding target s block.rect current tryRecolor start _ next hsearch
  · obtain rfl := Finding.pruned.inj heq
    exact ⟨rfl, score_leave_lt hopeless (Nat.le_sub_of_add_le' hfloor)⟩
  · cases hcompared

open Board in
/-- On a white raster a search gives a white block up, and cutting it and painting one part of it
costs more than leaving it alone. -/
theorem pruning_loses_nothing_of_wholeBlock :
    ∃ first last, Board.start 20 1 [wholeBlock] = .ok first ∧
      first.applyAll [.lineCut (.top 0) .x 15, .color ⟨0, [1]⟩ ⟨0, 0, 0, 255⟩] = .ok last ∧
      first.cost + (Pricing.contest 20 1).cost .color 20 ≤ last.cost ∧
      ∃ leave, (searchBlock (.filled 20 1 .white)
          ⟨fun _ => (pure .white : SearchM Unit Color), none⟩ wholeBlock.rect .white true).run () =
            .ok (.pruned leave, ()) ∧
        leave = .leave (Raster.similarity (.filled 20 1 .white) wholeBlock.rect .white) ∧
        units leave.score < (last.cost - first.cost) * 2 ^ unitBits := by
  have onRaster : wholeBlock.rect.Within 20 1 := by decide
  obtain ⟨first, hfirst⟩ := @exists_start 20 1 [wholeBlock] (List.pairwise_singleton _ _)
  have hlive := (live_start_single hfirst).1
  have hready := ready_of_start hfirst onRaster
  have hcut : wholeBlock.rect.cut .x 15 = .ok (_, _) := rfl
  obtain ⟨mid, hworks, _, hhigh⟩ := hready.lineCut hcut
  obtain ⟨last, hworks', _⟩ := hhigh.color ⟨0, 0, 0, 255⟩
  have hrun : first.applyAll [.lineCut (.top 0) .x 15, .color ⟨0, [1]⟩ ⟨0, 0, 0, 255⟩] = .ok last :=
    applyAll_append_eq_ok.mpr ⟨mid, hworks.run, hworks'.run⟩
  obtain ⟨hfloor, hpruned⟩ := @pruning_loses_nothing (.filled 20 1 .white) _ _ _ _ _ (by decide)
    hready.sized.prices_eq hlive onRaster hready.alone (by decide) (by decide) hrun
  have hopeless : Hopeless (.filled 20 1 .white) wholeBlock.rect .white := by
    unfold Hopeless
    decide +kernel
  have hsearch := congrArg (StateT.run · ()) (searchBlock_of_hopeless hopeless
    ⟨fun _ => (pure .white : SearchM Unit Color), none⟩ true)
  obtain ⟨hleave, hless, _⟩ := hpruned Unit _ .white true () () _ hsearch
  exact ⟨first, last, hfirst, hrun, hfloor, _, hsearch, hleave, hless⟩

end Subdivision

end BlockPainting
