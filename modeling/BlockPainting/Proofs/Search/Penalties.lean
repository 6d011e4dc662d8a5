import BlockPainting.Proofs.Layout.Settling
import BlockPainting.Proofs.Raster.Distances
import BlockPainting.Proofs.Refinement.Descent
import BlockPainting.Proofs.Search.Accounts
import BlockPainting.Proofs.Search.Levels

/-!
# Search and replay measure alike

A search measures what is wrong with a block by comparing its pixels with one color, a replay by
comparing the pixels of two rasters. Where the painting has one color both are the same sum, added
up in the same order: the distance of two colors is symmetric to the last bit. A program of cuts and
merges paints nothing, so it ends with exactly the penalty of leaving the first block alone.
-/

namespace BlockPainting

namespace Board

open Layout

variable {b last : Board} {program : List Instruction}

theorem painted_of_regroupings
    (regroups : ∀ i ∈ program, i.isCut = true ∨ i.operation = .merge)
    (h : b.applyAll program = .ok last) : last.painted = b.painted := by
  induction program generalizing b with
  | nil =>
    cases h
    rfl
  | cons i rest ih =>
    rw [List.forall_mem_cons] at regroups
    obtain ⟨mid, hmid, hrest⟩ := applyAll_cons_eq_ok.mp h
    rw [ih regroups.2 hrest, GridWalk.painted_of_regrouping hmid regroups.1]

lemma packing_of_bounds {target : Raster} {block : Block}
    (covers : target.bounds = .ok block.rect) : Packing [block] target.width target.height := by
  refine ⟨List.pairwise_singleton _ _, List.pairwise_singleton _ _, ?_⟩
  intro b hb
  obtain rfl := List.mem_singleton.mp hb
  unfold Raster.bounds Rect.ofSize at covers
  split at covers
  · rw [← Except.ok.inj covers]
    simp [Rect.Within, Rect.right, Rect.top]
  · cases covers

/-- Cut and merged in whatever way, a painting of one color is as far from the target as at the
beginning. -/
theorem similarity_of_regroupings {target : Raster} {block : Block} {c : Color}
    {outcome : Outcome} (covers : target.bounds = .ok block.rect) (paint_eq : block.paint = some c)
    (regroups : ∀ i ∈ program, i.isCut = true ∨ i.operation = .merge)
    (h : replay target [block] program = .ok outcome) :
    outcome.similarity = target.similarity block.rect c := by
  obtain ⟨first, last, hfirst, hprogram, rfl⟩ := replay_eq_ok.mp h
  have uniform : ∀ p : Nat × Nat, p ∈ block.rect → first.painted.pixel p.1 p.2 = c := by
    intro p hp
    rw [pixel_start (packing_of_bounds covers) hfirst (List.mem_singleton_self block) hp, startPaint,
      paint_eq, Option.getD_some]
  simp only [finish, covers, painted_of_regroupings regroups hprogram]
  exact Raster.similarityTo_of_uniform uniform

end Board

namespace Subdivision

/-- On a region where a painting has one color, comparing it with the target pixel by pixel gives
the very double that a search gets by comparing the target with this color. So a program of cuts and
merges on one block over the whole raster ends with the penalty of the recipe that leaves this block
alone, which is the first that any search of the block compares. -/
theorem replay_measures_leaving (target : Raster) :
    (∀ (painted : Raster) (rect : Rect) (c : Color),
      (∀ p : Nat × Nat, p ∈ rect → painted.pixel p.1 p.2 = c) →
      painted.similarityTo target rect = target.similarity rect c) ∧
    ∀ (block : Block) (c : Color) (program : List Instruction) (outcome : Outcome),
      target.bounds = .ok block.rect → block.paint = some c →
      (∀ i ∈ program, i.isCut = true ∨ i.operation = .merge) →
      replay target [block] program = .ok outcome →
      outcome.similarity = target.similarity block.rect c ∧
      ∀ (σ : Type) (s : Surroundings σ) (tryRecolor : Bool) (start next : σ) (finding : Finding),
        (searchBlock target s block.rect c tryRecolor).run start = .ok (finding, next) →
        ∃ others, finding.candidates = .leave outcome.similarity :: others := by
  constructor
  · intro painted rect c uniform
    exact Raster.similarityTo_of_uniform uniform
  · intro block c program outcome covers paint_eq regroups h
    have hpenalty := Board.similarity_of_regroupings covers paint_eq regroups h
    refine ⟨hpenalty, ?_⟩
    intro σ s tryRecolor start next finding hsearch
    rw [hpenalty]
    exact searchBlock_head target s block.rect c tryRecolor start finding next hsearch

open Board in
lemma regrouping_runs : ∃ outcome,
    replay halfBlack [wholeBlock] [.lineCut (.top 0) .x 10, .merge ⟨0, [0]⟩ ⟨0, [1]⟩] =
      .ok outcome := by
  obtain ⟨first, hfirst⟩ := @exists_start 20 1 [wholeBlock] (List.pairwise_singleton _ _)
  have hreached : Reached 20 1 [wholeBlock] first := ⟨first, hfirst, [], rfl⟩
  have hready := ready_of_start hfirst (by decide)
  have hcut : wholeBlock.rect.cut .x 10 = .ok (_, _) := rfl
  obtain ⟨halves, works, hlow, hhigh⟩ := hready.lineCut hcut
  have hrooted := rooted_of_applyAll hreached.rooted hreached.sized works.run
  have hnext := ids_of_applyAll works.run
  rw [(counters_of_start hfirst).1] at hnext
  obtain ⟨merged, hmerge, _⟩ :=
    @Ready.merge _ _ _ _ _ wholeBlock.rect _ _ hlow hhigh hrooted rfl (by rw [hnext]; decide)
  have hall : first.applyAll ([_] ++ [_]) = .ok merged :=
    applyAll_append_eq_ok.mpr ⟨halves, works.run, hmerge⟩
  exact ⟨merged.finish halfBlack, replay_eq_ok.mpr ⟨first, merged, hfirst, hall, rfl⟩⟩

/-- The regrouped half black raster is as far from the white painting as a search says before it cuts
anything. -/
theorem replay_measures_leaving_of_halfBlack :
    halfBlack.bounds = .ok wholeBlock.rect ∧ wholeBlock.paint = some .white ∧
    ∃ outcome, replay halfBlack [wholeBlock]
        [.lineCut (.top 0) .x 10, .merge ⟨0, [0]⟩ ⟨0, [1]⟩] = .ok outcome ∧
      outcome.similarity = halfBlack.similarity wholeBlock.rect .white := by
  have covers : halfBlack.bounds = .ok wholeBlock.rect := rfl
  obtain ⟨outcome, h⟩ := regrouping_runs
  refine ⟨covers, rfl, outcome, h, ?_⟩
  exact ((replay_measures_leaving halfBlack).2 wholeBlock .white _ outcome covers rfl
    (by decide) h).1

end Subdivision

end BlockPainting
