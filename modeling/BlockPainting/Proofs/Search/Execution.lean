import BlockPainting.Proofs.Board.Works
import BlockPainting.Proofs.Search.Order

/-!
# Recipes of a search can be carried out

A planned recipe runs on every live block of its rectangle below which no id is taken. Its price is
what the run costs, nothing outside the block changes, and the blocks it leaves are descendants.
-/

namespace BlockPainting.Subdivision

open Board Success

variable {width height remaining : Nat} {rect : Rect} {tryRecolor : Bool} {recipe : Recipe}
variable {b : Board} {o : BlockId}

lemma descend_nil (o : BlockId) : o.descend [] = o := by
  simp [BlockId.descend]

lemma legal_of_splits {block : Block} {action : Action} {parts : List Rect}
    (hlive : b.live[block.id]? = some block) (splits : Splits block.rect action parts) :
    b.Legal (Step.instruction block.id ⟨[], action⟩)
      ⟨[block.id], parts.mapIdx block.part, .keep, b.ids,
        b.prices.cost action.operation block.rect.area⟩ := by
  cases splits with
  | line cut =>
    simp only [Step.instruction, descend_nil]
    exact .lineCut hlive cut
  | point cut =>
    simp only [Step.instruction, descend_nil]
    exact .pointCut hlive cut

lemma works_of_splits (ready : b.Ready width height o rect) {action : Action} {parts : List Rect}
    (splits : Splits rect action parts) :
    ∃ b', b.Works b' width height o rect [Step.instruction o ⟨[], action⟩]
        ((Pricing.contest width height).cost action.operation rect.area) ∧
      ∀ (k : Nat) (hk : k < parts.length), b'.Ready width height (o.child k) parts[k] := by
  obtain ⟨block, hlive, rfl⟩ := ready.live
  obtain rfl := ready.sized.keyed o block hlive
  rw [← ready.sized.prices_eq]
  exact ready.cut hlive (legal_of_splits hlive splits) splits.tiles

/-- The recipe can be carried out wherever its block is ready, at its own price. -/
def Performs (width height : Nat) (rect : Rect) (recipe : Recipe) : Prop :=
  ∀ (b : Board) (o : BlockId), b.Ready width height o rect →
    ∃ b', b.Works b' width height o rect (recipe.bind o) recipe.cost

lemma bind_under (o : BlockId) (index : Nat) (steps : List Step) :
    (steps.map (Step.under index)).map (Step.instruction o) =
      steps.map (Step.instruction (o.child index)) := by
  simp [Function.comp_def, Step.under, Step.instruction, BlockId.descend, BlockId.child]

lemma works_children {parts : List Rect} {subs : List Recipe}
    (performs : List.Forall₂ (Performs width height) parts subs)
    (inside : ∀ part ∈ parts, ∀ p : Nat × Nat, p ∈ part → p ∈ rect) {index : Nat}
    (sized : b.Sized width height)
    (ready : ∀ (k : Nat) (hk : k < parts.length),
      b.Ready width height (o.child (index + k)) parts[k]) :
    ∃ b', b.Works b' width height o rect
      ((Recipe.childSteps index subs).map (Step.instruction o)) (subs.map Recipe.cost).sum := by
  induction performs generalizing b index with
  | nil => exact ⟨b, Works.refl sized o rect⟩
  | @cons part sub rest subs hsub _ ih =>
    rw [List.forall_mem_cons] at inside
    obtain ⟨mid, hmid⟩ := hsub b (o.child index) (ready 0 (Nat.succ_pos _))
    have hready : ∀ (k : Nat) (hk : k < rest.length),
        mid.Ready width height (o.child (index + 1 + k)) rest[k] := by
      intro k hk
      have hnext := ready (k + 1) (Nat.succ_lt_succ hk)
      rw [← Nat.add_assoc, Nat.add_right_comm] at hnext
      exact hmid.ready hnext (o.child_unrelated (by omega))
    obtain ⟨b', hb'⟩ := ih inside.2 hmid.sized hready
    refine ⟨b', ?_⟩
    rw [Recipe.childSteps, List.map_append, bind_under, List.map_cons, List.sum_cons]
    exact (hmid.widen (o.child_extends index) inside.1).trans hb'

lemma cost_appendChildren (r : Recipe) (index : Nat) (subs : List Recipe) :
    (r.appendChildren index subs).cost = r.cost + (subs.map Recipe.cost).sum := by
  induction subs generalizing r index with
  | nil => rfl
  | cons sub rest ih =>
    rw [Recipe.appendChildren, ih, List.map_cons, List.sum_cons, ← Nat.add_assoc]
    rfl

theorem Planned.performs
    (h : Planned (.contest width height) remaining rect tryRecolor recipe) :
    Performs width height rect recipe := by
  induction h with
  | leave similarity =>
    intro b o ready
    exact ⟨b, Works.refl ready.sized o _⟩
  | recolor paint similarity =>
    intro b o ready
    obtain ⟨b', hworks, _⟩ := ready.color paint
    refine ⟨b', ?_⟩
    simpa [Recipe.bind, Recipe.append, Recipe.begin, Recipe.leave, Step.instruction, descend_nil]
      using hworks
  | @recolorThen remaining rect paint nested planned ih =>
    intro b o ready
    obtain ⟨mid, hpaint, hmid⟩ := ready.color paint
    obtain ⟨b', hnested⟩ := ih mid o hmid
    refine ⟨b', ?_⟩
    have hboth := hpaint.trans hnested
    simpa [Recipe.bind, Recipe.append, Recipe.begin, Step.instruction, descend_nil] using hboth
  | @cut remaining rect tryRecolor action parts subs splits length_eq planned ih =>
    intro b o ready
    obtain ⟨mid, hcut, hmid⟩ := works_of_splits ready splits
    have hinside : ∀ part ∈ parts, ∀ p : Nat × Nat, p ∈ part → p ∈ rect :=
      fun part hpart p hp => (splits.tiles.mem_iff p).mpr ⟨part, hpart, hp⟩
    have hready : ∀ (k : Nat) (hk : k < parts.length),
        mid.Ready width height (o.child (0 + k)) parts[k] := by
      intro k hk
      rw [Nat.zero_add]
      exact hmid k hk
    obtain ⟨b', hchildren⟩ := works_children (List.forall₂_iff_get.mpr ⟨length_eq, ih⟩) hinside
      hcut.sized hready
    refine ⟨b', ?_⟩
    rw [Recipe.bind, Recipe.steps_appendChildren, List.map_append, cost_appendChildren]
    exact hcut.trans hchildren

/-- Whatever a session was asked before, the recipe it returns runs, bound to any block, on every
board of the same size on which this block is live with the rectangle and has the ids below it to
itself: no instruction is refused, the price of the recipe is what they cost, the pixels outside the
rectangle and all other live blocks stay, and everything else that is live is the block or below it.
No step goes deeper than subdivisions are left, cuts stay above this depth, and two steps on one
target are first a painting, then a cut. -/
theorem improve_executable {target : Raster} {estimator : Estimator} {maxDepth depth : Nat}
    {history : List Query} {current : Color} {next : Session}
    (h : improve target estimator maxDepth rect current depth
      (.after target estimator maxDepth history) = .ok (recipe, next)) :
    (∀ (initial : List Block) (b : Board) (o : BlockId) (block : Block),
      Reached target.width target.height initial b → b.live[o]? = some block →
      block.rect = rect → (∀ id, id ≠ o → id.Extends o → b.live[id]? = none) →
      ∃ b', b.applyAll (recipe.bind o) = .ok b' ∧ b'.cost = b.cost + recipe.cost ∧
        (∀ x y, x < target.width → y < target.height → (x, y) ∉ rect →
          b'.painted.pixel x y = b.painted.pixel x y) ∧
        (∀ (id : BlockId) (other : Block), id ≠ o → b.live[id]? = some other →
          b'.live[id]? = some other) ∧
        ∀ (id : BlockId) (other : Block), b'.live[id]? = some other →
          b.live[id]? = some other ∧ id ≠ o ∨ id.Extends o) ∧
    (∀ s ∈ recipe.steps, s.target.length ≤ maxDepth - depth ∧
      (¬ s.action.paints → s.target.length < maxDepth - depth)) ∧
    recipe.steps.Pairwise Orderly := by
  obtain ⟨hwithin, hplanned⟩ := planned_of_improve h
  have hshaped := hplanned.shaped
  refine ⟨?_, fun s hs => ⟨hshaped.length_le s hs, hshaped.cut_length_lt s hs⟩, hshaped.orderly⟩
  intro initial b o block hreached hlive hrect halone
  obtain ⟨b', hworks⟩ :=
    hplanned.performs b o ⟨hreached.sized, hwithin, ⟨block, hlive, hrect⟩, halone⟩
  refine ⟨b', hworks.run, hworks.cost_eq, hworks.kept, ?_, ?_⟩
  · intro id other hne hother
    rw [hworks.others id ?_]
    · exact hother
    · intro hid
      rw [halone id hne hid] at hother
      cases hother
  · intro id other hother
    by_cases hid : id.Extends o
    · exact Or.inr hid
    · refine Or.inl ⟨(hworks.others id hid).symm.trans hother, ?_⟩
      rintro rfl
      exact hid (.refl id)

/-- A raster with a black left and a white right half. -/
def halfBlack : Raster := .ofFn 20 1 fun x _ => if x < 10 then ⟨0, 0, 0, 255⟩ else .white

lemma halfBlack_width_pos : 0 < halfBlack.width := by decide

def wholeBlock : Block := ⟨.top 0, ⟨0, 0, 20, 1, halfBlack_width_pos, Nat.one_pos⟩, some .white⟩

theorem improve_executable_of_halfBlack :
    ∃ recipe next, improve halfBlack (.exact 0.5) 1 wholeBlock.rect .white 0
        (.after halfBlack (.exact 0.5) 1 []) = .ok (recipe, next) ∧
      recipe.steps = [⟨[], .lineCut .x 10⟩, ⟨[0], .color ⟨0, 0, 0, 255⟩⟩] ∧
      ∃ first b', start 20 1 [wholeBlock] = .ok first ∧
        first.applyAll (recipe.bind (.top 0)) = .ok b' ∧ b'.cost = first.cost + recipe.cost := by
  have hsteps : ((searchAfresh halfBlack (.exact 0.5) 1 wholeBlock.rect .white true).run
      ()).toOption.map (fun r => r.1.steps) =
        some [⟨[], .lineCut .x 10⟩, ⟨[0], .color ⟨0, 0, 0, 255⟩⟩] := by decide +kernel
  have hcheck : halfBlack.check wholeBlock.rect = .ok () := rfl
  have hafresh := (improve_of_sound (sound_after halfBlack (.exact 0.5) 1 []) 1 wholeBlock.rect
    .white 0).1
  simp only [improveAfresh, searchAtDepth_eq, hcheck, Nat.sub_zero] at hafresh
  obtain ⟨found, hfound, hsteps⟩ := exists_of_toOption hsteps
  rw [hfound] at hafresh
  obtain ⟨⟨_, next⟩, himprove, rfl⟩ := map_eq_ok.mp hafresh
  obtain ⟨first, hfirst⟩ := @exists_start 20 1 [wholeBlock] (List.pairwise_singleton _ _)
  obtain ⟨hlive, halone⟩ := live_start_single hfirst
  obtain ⟨b', hrun, hcost, _⟩ := (improve_executable himprove).1 [wholeBlock] first wholeBlock.id
    wholeBlock ⟨first, hfirst, [], rfl⟩ hlive rfl fun id hne _ => halone id hne
  exact ⟨found.1, next, himprove, hsteps, first, b', hfirst, hrun, hcost⟩

end BlockPainting.Subdivision
