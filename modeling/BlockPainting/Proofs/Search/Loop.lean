import BlockPainting.Proofs.Search.Passes

/-!
# The loop of a grid walk

`Walks` is the loop without a bound on its passes. Every pass that is followed by another takes at
least one column off the block, so the loop ends within as many passes as the block is wide. The
numbers that passes take are paid for by the pixels left behind, so that a walk that runs out of
numbers started with fewer than its block has pixels.
-/

namespace BlockPainting.GridWalk

open Success

/-- What passes one after the other come to. -/
inductive Walks (target : Raster) (epsilon : Float) (direction : Direction) (size : Nat) :
    Walk → Milestone → ColorCache → Except GeometryError (Walk × Milestone) → ColorCache → Prop
  | refused {w : Walk} {best : Milestone} {cache cache' : ColorCache} {e : GeometryError}
      (h : runFrom cache (pass target epsilon direction size w) = (.error e, cache')) :
      Walks target epsilon direction size w best cache (.error e) cache'
  | done {w w' : Walk} {best : Milestone} {cache cache' : ColorCache}
      (h : runFrom cache (pass target epsilon direction size w) = (.ok w', cache'))
      (small : w'.block.rect.width ≤ size ∨ w'.block.rect.height ≤ size) :
      Walks target epsilon direction size w best cache
        (.ok (w', best.better (w'.milestone target))) cache'
  | stuck {w w' : Walk} {best : Milestone} {cache cache' : ColorCache} {e : GeometryError}
      (h : runFrom cache (pass target epsilon direction size w) = (.ok w', cache'))
      (large : ¬ (w'.block.rect.width ≤ size ∨ w'.block.rect.height ≤ size))
      (next : w'.advance target direction size target.pricing = .error e) :
      Walks target epsilon direction size w best cache (.error e) cache'
  | onward {w w' w'' : Walk} {best : Milestone} {cache cache' cache'' : ColorCache}
      {result : Except GeometryError (Walk × Milestone)}
      (h : runFrom cache (pass target epsilon direction size w) = (.ok w', cache'))
      (large : ¬ (w'.block.rect.width ≤ size ∨ w'.block.rect.height ≤ size))
      (next : w'.advance target direction size target.pricing = .ok w'')
      (rest : Walks target epsilon direction size w'' (best.better (w'.milestone target)) cache'
        result cache'') :
      Walks target epsilon direction size w best cache result cache''

variable {target : Raster} {epsilon : Float} {direction : Direction} {size fuel : Nat}
variable {w w' w'' : Walk} {best : Milestone} {cache cache' : ColorCache}
variable {result : Except GeometryError (Walk × Milestone)}

lemma lingers_of_pass (positive : 0 < size)
    (h : runFrom cache (pass target epsilon direction size w) = (.ok w', cache')) :
    Lingers target direction size (w.block.rect.width - 1 + (w.block.rect.height - 1)) w w' := by
  have hpass := @spends_pass target direction size epsilon positive w cache
  rw [h] at hpass
  exact hpass

lemma exhausted_of_pass (positive : 0 < size) {e : GeometryError}
    (h : runFrom cache (pass target epsilon direction size w) = (.error e, cache')) :
    Exhausted target direction size (w.block.rect.width - 1 + (w.block.rect.height - 1)) w e := by
  have hpass := @spends_pass target direction size epsilon positive w cache
  rw [h] at hpass
  exact hpass

/-- As many passes as the block has columns are enough. -/
theorem walks_passes (positive : 0 < size) (enough : w.block.rect.width ≤ fuel) :
    Walks target epsilon direction size w best cache
      (runFrom cache (passes target epsilon direction size fuel w best)).1
      (runFrom cache (passes target epsilon direction size fuel w best)).2 := by
  induction fuel generalizing w best cache with
  | zero =>
    have hpos := w.block.rect.width_pos
    omega
  | succ fuel ih =>
    rw [passes, runFrom_bind]
    rcases hpass : runFrom cache (pass target epsilon direction size w) with ⟨e | w', cache'⟩
    · exact .refused hpass
    · have hrect := (lingers_of_pass positive hpass).rect_eq
      by_cases small : w'.block.rect.width ≤ size ∨ w'.block.rect.height ≤ size
      · simp only [small, if_true]
        exact .done hpass small
      · simp only [small, if_false, runFrom_bind]
        obtain ⟨w'', hnext⟩ : ∃ w'', w'.advance target direction size target.pricing = .ok w'' :=
          exists_advance positive (by omega)
        obtain ⟨quarters, advanced⟩ := advanced_of_advance hnext
        have hsmaller := (continuation_smaller direction advanced.cut).1
        rw [← advanced.rect_eq] at hsmaller
        rw [hnext]
        refine .onward hpass small hnext (ih ?_)
        rw [hsmaller, hrect]
        omega

lemma edges_le_area (r : Rect) :
    (r.width - 1) * (r.height - 1) + (r.width - 1 + (r.height - 1)) ≤ r.area := by
  obtain ⟨m, hm⟩ := Nat.exists_eq_add_of_lt r.width_pos
  obtain ⟨n, hn⟩ := Nat.exists_eq_add_of_lt r.height_pos
  have hproduct : (m + 1) * (n + 1) = m * n + (m + n) + 1 := by ring
  rw [Rect.area, hm, hn, Nat.zero_add, Nat.zero_add, Nat.add_sub_cancel, Nat.add_sub_cancel,
    hproduct]
  omega

/-- The columns and rows beyond the first are paid for by the pixels left behind. -/
lemma area_of_advanced {prices : Pricing} {quarters : Quarters Rect} (positive : 0 < size)
    (advanced : Advanced prices direction size quarters w w') :
    w'.block.rect.area + (w.block.rect.width - 1 + (w.block.rect.height - 1)) ≤
      w.block.rect.area := by
  have hsmaller := continuation_smaller direction advanced.cut
  rw [← advanced.rect_eq] at hsmaller
  have hle : w'.block.rect.area ≤ (w.block.rect.width - 1) * (w.block.rect.height - 1) := by
    rw [Rect.area, hsmaller.1, hsmaller.2]
    exact Nat.mul_le_mul (by omega) (by omega)
  have hedges := edges_le_area w.block.rect
  omega

/-- Of the walks that have come this far some may be kept: what `best` tells is the state of one of
them, or what was known before. -/
def Kept (target : Raster) (direction : Direction) (size : Nat) (w : Walk) (best : Milestone)
    (w' : Walk) (best' : Milestone) : Prop :=
  Trail target direction size w w' ∧ (best' = best ∨ ∃ v, Trail target direction size w v ∧
    Trail target direction size v w' ∧ best' = v.milestone target)

lemma kept_better (trail : Trail target direction size w w') :
    Kept target direction size w best w' (best.better (w'.milestone target)) := by
  refine ⟨trail, ?_⟩
  unfold Milestone.better
  split
  · exact Or.inr ⟨w', trail, .refl, rfl⟩
  · exact Or.inl rfl

lemma Kept.trans {best' best'' : Milestone} (kept : Kept target direction size w best w' best')
    (kept' : Kept target direction size w' best' w'' best'') :
    Kept target direction size w best w'' best'' := by
  refine ⟨kept.1.trans kept'.1, ?_⟩
  rcases kept'.2 with rfl | ⟨v, hv, hv', heq⟩
  · rcases kept.2 with heq | ⟨v, hv, hv', heq⟩
    · exact Or.inl heq
    · exact Or.inr ⟨v, hv, hv'.trans kept'.1, heq⟩
  · exact Or.inr ⟨v, kept.1.trans hv, hv', heq⟩

/-- The loop fails only if it runs out of numbers, and then fewer were left than the block has
pixels. Otherwise a beginning of the walk is kept. -/
def Settles (target : Raster) (direction : Direction) (size : Nat) (w : Walk) (best : Milestone) :
    Except GeometryError (Walk × Milestone) → Prop
  | .error e => Exhausted target direction size w.block.rect.area w e
  | .ok (w', best') => Kept target direction size w best w' best'

theorem Walks.settles (positive : 0 < size)
    (walks : Walks target epsilon direction size w best cache result cache') :
    Settles target direction size w best result := by
  induction walks with
  | @refused w best cache cache' e h =>
    have hedges := edges_le_area w.block.rect
    exact (exhausted_of_pass positive h).mono (by omega)
  | @done w w' best cache cache' h small => exact kept_better (lingers_of_pass positive h).trail
  | @stuck w w' best cache cache' e h large next =>
    obtain ⟨w'', hnext⟩ : ∃ w'', w'.advance target direction size target.pricing = .ok w'' :=
      exists_advance positive (by omega)
    cases hnext.symm.trans next
  | @onward w w' w'' best cache cache' cache'' result h large next rest ih =>
    have hlingers := lingers_of_pass positive h
    obtain ⟨quarters, advanced⟩ := advanced_of_advance next
    have harea := area_of_advanced positive advanced
    rw [hlingers.rect_eq] at harea
    have hnext := hlingers.next_le
    have hids := congrArg IdSupply.next advanced.ids_eq
    rcases result with e | ⟨last, best'⟩
    · have hexhausted := Exhausted.after ih (hlingers.trail.tail (.advance next)) (hids ▸ hnext)
      exact hexhausted.mono (by omega)
    · have hbetter : Kept target direction size w best w' (best.better (w'.milestone target)) :=
        kept_better hlingers.trail
      exact (hbetter.trans ⟨.single (.advance next), Or.inl rfl⟩).trans ih

end BlockPainting.GridWalk
