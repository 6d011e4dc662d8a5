import BlockPainting.Proofs.Search.Plans

/-!
# The order of the steps of a recipe

In a recipe of a search every block is painted at most once, then cut at most once, and no step goes
deeper than subdivisions were left.
-/

namespace BlockPainting

/-- Whether an action paints; all others cut. -/
def Action.paints : Action → Bool
  | .color .. => true
  | .lineCut .. => false
  | .pointCut .. => false

/-- The step as a step for the parent of its child with an index. -/
def Step.under (index : Nat) (s : Step) : Step :=
  { s with target := index :: s.target }

/-- The steps of recipes for the children, from the child with an index on. -/
def Recipe.childSteps : Nat → List Recipe → List Step
  | _, [] => []
  | index, sub :: rest => sub.steps.map (Step.under index) ++ childSteps (index + 1) rest

lemma Recipe.steps_appendChildren (r : Recipe) (index : Nat) (subs : List Recipe) :
    (r.appendChildren index subs).steps = r.steps ++ childSteps index subs := by
  induction subs generalizing r index with
  | nil => simp [appendChildren, childSteps]
  | cons sub rest ih =>
    rw [appendChildren, ih, childSteps, ← List.append_assoc]
    rfl

lemma Recipe.mem_childSteps {index : Nat} {subs : List Recipe} {s : Step}
    (h : s ∈ childSteps index subs) :
    ∃ k, ∃ hk : k < subs.length, ∃ t ∈ subs[k].steps, s = t.under (index + k) := by
  induction subs generalizing index with
  | nil => cases h
  | cons sub rest ih =>
    rcases List.mem_append.mp h with h | h
    · obtain ⟨t, ht, rfl⟩ := List.mem_map.mp h
      exact ⟨0, Nat.succ_pos _, t, ht, rfl⟩
    · obtain ⟨k, hk, t, ht, rfl⟩ := ih h
      refine ⟨k + 1, Nat.succ_lt_succ hk, t, ht, ?_⟩
      rw [Nat.add_right_comm, Nat.add_assoc]

/-- Where two steps have one target, the first one paints and the second one cuts. -/
def Orderly (s t : Step) : Prop :=
  s.target = t.target → s.action.paints ∧ ¬ t.action.paints

lemma Recipe.orderly_childSteps {subs : List Recipe}
    (h : ∀ sub ∈ subs, sub.steps.Pairwise Orderly) (index : Nat) :
    (childSteps index subs).Pairwise Orderly := by
  induction subs generalizing index with
  | nil => exact List.Pairwise.nil
  | cons sub rest ih =>
    rw [List.forall_mem_cons] at h
    refine List.pairwise_append.mpr ⟨?_, ih h.2 (index + 1), ?_⟩
    · refine List.pairwise_map.mpr (h.1.imp ?_)
      intro s t hst heq
      exact hst (List.cons.inj heq).2
    · intro s hs t ht heq
      obtain ⟨s', _, rfl⟩ := List.mem_map.mp hs
      obtain ⟨k, _, t', _, rfl⟩ := mem_childSteps ht
      have hindex := (List.cons.inj heq).1
      omega

namespace Subdivision

/-- What can be read off the steps of a recipe with so many subdivisions left. -/
structure Shaped (remaining : Nat) (tryRecolor : Bool) (steps : List Step) : Prop where
  length_le : ∀ s ∈ steps, s.target.length ≤ remaining
  cut_length_lt : ∀ s ∈ steps, ¬ s.action.paints → s.target.length < remaining
  orderly : steps.Pairwise Orderly
  unpainted : tryRecolor = false → ∀ s ∈ steps, s.action.paints → s.target ≠ []

lemma Shaped.recolorThen {remaining : Nat} {steps : List Step} (h : Shaped remaining false steps)
    (paint : Color) : Shaped (remaining + 1) true (⟨[], .color paint⟩ :: steps) := by
  constructor
  · refine List.forall_mem_cons.mpr ⟨Nat.zero_le _, ?_⟩
    exact fun s hs => Nat.le_succ_of_le (h.length_le s hs)
  · refine List.forall_mem_cons.mpr ⟨by simp [Action.paints], ?_⟩
    exact fun s hs hcut => Nat.lt_succ_of_lt (h.cut_length_lt s hs hcut)
  · refine List.pairwise_cons.mpr ⟨?_, h.orderly⟩
    intro s hs heq
    exact ⟨rfl, fun hpaint => h.unpainted rfl s hs hpaint heq.symm⟩
  · intro htry
    cases htry

lemma Shaped.cut {remaining : Nat} {tryRecolor : Bool} {action : Action} {subs : List Recipe}
    (hcut : ¬ action.paints) (h : ∀ sub ∈ subs, Shaped remaining true sub.steps) :
    Shaped (remaining + 1) tryRecolor (⟨[], action⟩ :: Recipe.childSteps 0 subs) := by
  have hchild : ∀ s ∈ Recipe.childSteps 0 subs, s.target ≠ [] ∧
      s.target.length ≤ remaining + 1 ∧ (¬ s.action.paints → s.target.length < remaining + 1) := by
    intro s hs
    obtain ⟨k, hk, t, ht, rfl⟩ := Recipe.mem_childSteps hs
    have hsub := h subs[k] (List.getElem_mem hk)
    refine ⟨List.cons_ne_nil _ _, Nat.succ_le_succ (hsub.length_le t ht), ?_⟩
    exact fun hcut => Nat.succ_lt_succ (hsub.cut_length_lt t ht hcut)
  constructor
  · exact List.forall_mem_cons.mpr ⟨Nat.zero_le _, fun s hs => (hchild s hs).2.1⟩
  · exact List.forall_mem_cons.mpr ⟨fun _ => Nat.succ_pos _, fun s hs => (hchild s hs).2.2⟩
  · refine List.pairwise_cons.mpr
      ⟨?_, Recipe.orderly_childSteps (fun sub hs => (h sub hs).orderly) 0⟩
    intro s hs heq
    exact False.elim ((hchild s hs).1 heq.symm)
  · intro _
    refine List.forall_mem_cons.mpr ⟨fun hpaint => False.elim (hcut hpaint), ?_⟩
    exact fun s hs _ => (hchild s hs).1

lemma Planned.shaped {prices : Pricing} {remaining : Nat} {rect : Rect} {tryRecolor : Bool}
    {recipe : Recipe} (h : Planned prices remaining rect tryRecolor recipe) :
    Shaped remaining tryRecolor recipe.steps := by
  induction h with
  | leave similarity => constructor <;> simp [Recipe.leave]
  | recolor paint similarity =>
    constructor <;> simp [Recipe.leave, Recipe.begin, Recipe.append, Action.paints]
  | recolorThen paint planned ih => exact ih.recolorThen paint
  | cut splits length_eq planned ih =>
    rw [Recipe.steps_appendChildren]
    refine Shaped.cut (by cases splits <;> simp [Action.paints]) ?_
    intro sub hsub
    obtain ⟨k, hk, rfl⟩ := List.mem_iff_getElem.mp hsub
    exact ih k (length_eq ▸ hk) hk

end Subdivision

end BlockPainting
