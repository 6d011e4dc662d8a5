import BlockPainting.Proofs.Rect.Pixels
import BlockPainting.Proofs.Search.Afresh

/-!
# What recipes a search returns

Every recipe of a search is built in one of four ways: it leaves the block, recolors it, recolors it
and goes on, or cuts it and goes on in all parts. Later arguments about recipes are inductions over
these four cases.
-/

namespace BlockPainting

def Action.operation : Action → Operation
  | .color .. => .color
  | .lineCut .. => .lineCut
  | .pointCut .. => .pointCut

/-- The action cuts the rectangle into these parts. -/
inductive Splits (rect : Rect) : Action → List Rect → Prop
  | line {axis : Axis} {position : Nat} {low high : Rect}
      (cut : rect.cut axis position = .ok (low, high)) :
      Splits rect (.lineCut axis position) [low, high]
  | point {x y : Nat} {quarters : Quarters Rect} (cut : rect.cutPoint x y = .ok quarters) :
      Splits rect (.pointCut x y) quarters.toList

lemma Splits.tiles {rect : Rect} {action : Action} {parts : List Rect}
    (splits : Splits rect action parts) : Rect.Tiles parts rect := by
  cases splits with
  | line cut => exact Rect.cut_tiles cut
  | point cut => exact Rect.cutPoint_tiles cut

/-- Goes on with a recipe for each child, from the child with an index on. -/
def Recipe.appendChildren (r : Recipe) (index : Nat) : List Recipe → Recipe
  | [] => r
  | sub :: rest => (r.appendChild index sub).appendChildren (index + 1) rest

namespace Subdivision

/-- The recipes for a block with so many subdivisions left that a search can return; recoloring it
first may be excluded. -/
inductive Planned (prices : Pricing) : Nat → Rect → Bool → Recipe → Prop
  | leave {remaining : Nat} {rect : Rect} {tryRecolor : Bool} (similarity : Float) :
      Planned prices remaining rect tryRecolor (.leave similarity)
  | recolor {remaining : Nat} {rect : Rect} (paint : Color) (similarity : Float) :
      Planned prices remaining rect true
        ((Recipe.begin (.color paint) (prices.cost .color rect.area)).append (.leave similarity))
  | recolorThen {remaining : Nat} {rect : Rect} (paint : Color) {nested : Recipe}
      (planned : Planned prices remaining rect false nested) :
      Planned prices (remaining + 1) rect true
        ((Recipe.begin (.color paint) (prices.cost .color rect.area)).append nested)
  | cut {remaining : Nat} {rect : Rect} {tryRecolor : Bool} {action : Action} {parts : List Rect}
      {subs : List Recipe} (splits : Splits rect action parts)
      (length_eq : parts.length = subs.length)
      (planned : ∀ (k : Nat) (h : k < parts.length) (h' : k < subs.length),
        Planned prices remaining parts[k] true subs[k]) :
      Planned prices (remaining + 1) rect tryRecolor
        ((Recipe.begin action (prices.cost action.operation rect.area)).appendChildren 0 subs)

section Yields

variable {σ α β : Type} {Q : α → Prop} {R : β → Prop}

def Yields (Q : α → Prop) (m : SearchM σ α) : Prop :=
  ∀ s a s', m.run s = .ok (a, s') → Q a

lemma yields_pure {a : α} (h : Q a) : Yields Q (pure a : SearchM σ α) := by
  intro s b s' hb
  cases hb
  exact h

lemma Yields.bind {m : SearchM σ α} {f : α → SearchM σ β} (h : Yields Q m)
    (hf : ∀ a, Q a → Yields R (f a)) : Yields R (m >>= f) := by
  intro s b s' hb
  rw [StateT.run_bind, Success.bind_eq_ok] at hb
  obtain ⟨⟨a, mid⟩, hm, hb⟩ := hb
  exact hf a (h s a mid hm) mid b s' hb

lemma Yields.ite {p : Prop} [Decidable p] {m m' : SearchM σ α} (h : p → Yields Q m)
    (h' : ¬ p → Yields Q m') : Yields Q (if p then m else m') := by
  by_cases hp : p
  · simpa only [if_pos hp] using h hp
  · simpa only [if_neg hp] using h' hp

lemma yields_any (m : SearchM σ α) : Yields (fun _ => True) m :=
  fun _ _ _ _ => trivial

lemma yields_lift (x : Except GeometryError α) :
    Yields (fun a => x = .ok a) (lift x : SearchM σ α) := by
  intro s a s' h
  cases x with
  | error e => cases h
  | ok a =>
    cases h
    rfl

lemma Yields.mapM {f : α → SearchM σ β} (h : ∀ a, Yields R (f a)) (as : List α) :
    Yields (fun bs => ∀ b ∈ bs, R b) (as.mapM f) := by
  induction as with
  | nil => exact yields_pure (by simp)
  | cons a as ih =>
    rw [List.mapM_cons]
    refine (h a).bind fun b hb => ih.bind fun bs hbs => yields_pure ?_
    exact List.forall_mem_cons.mpr ⟨hb, hbs⟩

end Yields

def Finding.candidates : Finding → List Recipe
  | .pruned leave => [leave]
  | .compared leave others => leave :: others

lemma cheapest_mem (first : Recipe) (others : List Recipe) :
    cheapest first others ∈ first :: others := by
  induction others using List.reverseRecOn with
  | nil => exact List.mem_cons_self
  | append_singleton others r ih =>
    rw [cheapest, List.foldl_append, List.foldl_cons, List.foldl_nil, ← List.cons_append]
    split
    · exact List.mem_append_right _ (List.mem_singleton_self r)
    · exact List.mem_append_left _ ih

lemma Finding.best_mem (finding : Finding) : finding.best ∈ finding.candidates := by
  cases finding with
  | pruned leave => exact List.mem_singleton_self leave
  | compared leave others => exact cheapest_mem leave others

/-- The penalty of leaving the block is below the price of painting it, so that nothing pays for
itself. -/
def Hopeless (target : Raster) (rect : Rect) (current : Color) : Prop :=
  target.similarity rect current < countToFloat (target.pricing.cost .color rect.area)

lemma searchBlock_of_hopeless {σ : Type} {target : Raster} {rect : Rect} {current : Color}
    (hopeless : Hopeless target rect current) (s : Surroundings σ) (tryRecolor : Bool) :
    searchBlock target s rect current tryRecolor =
      pure (.pruned (.leave (target.similarity rect current))) :=
  if_pos hopeless

/-- A search is given up exactly if there is no hope for the block. Otherwise leaving the block is the
first recipe that is compared. -/
lemma searchBlock_finding {σ : Type} (target : Raster) (s : Surroundings σ) (rect : Rect)
    (current : Color) (tryRecolor : Bool) :
    Yields (fun finding =>
        (Hopeless target rect current ∧
          finding = .pruned (.leave (target.similarity rect current))) ∨
        (¬ Hopeless target rect current ∧
          ∃ others, finding = .compared (.leave (target.similarity rect current)) others))
      (searchBlock target s rect current tryRecolor) := by
  refine Yields.ite (fun hopeless => yields_pure (Or.inl ⟨hopeless, rfl⟩)) fun hopeful => ?_
  refine Yields.ite (fun _ => (yields_any _).bind ?_) fun _ => (yields_any _).bind ?_
  all_goals
    rintro ⟨recolored, least⟩ _
    obtain ⟨color, _ | deeper⟩ := s
    · exact yields_pure (Or.inr ⟨hopeful, recolored, rfl⟩)
    · exact (yields_any _).bind fun cut _ => yields_pure (Or.inr ⟨hopeful, recolored ++ cut, rfl⟩)

/-- A family of recipes, by what is left and what they are for, to which every recipe belongs that a
search builds from its members. -/
structure Closed (target : Raster) (F : Nat → Rect → Bool → Recipe → Prop) : Prop where
  leave : ∀ (remaining : Nat) (rect : Rect) (tryRecolor : Bool) (paint : Color),
    F remaining rect tryRecolor (.leave (target.similarity rect paint))
  recolor : ∀ (remaining : Nat) (rect : Rect) (paint : Color),
    F remaining rect true ((Recipe.begin (.color paint)
      (target.pricing.cost .color rect.area)).append (.leave (target.similarity rect paint)))
  recolorThen : ∀ {remaining : Nat} {rect : Rect} (paint : Color) {nested : Recipe},
    F remaining rect false nested →
    F (remaining + 1) rect true ((Recipe.begin (.color paint)
      (target.pricing.cost .color rect.area)).append nested)
  cut : ∀ {remaining : Nat} {rect : Rect} (tryRecolor : Bool) {action : Action}
    {parts : List Rect} {subs : List Recipe}, Splits rect action parts →
    List.Forall₂ (fun part sub => F remaining part true sub) parts subs →
    F (remaining + 1) rect tryRecolor ((Recipe.begin action
      (target.pricing.cost action.operation rect.area)).appendChildren 0 subs)

lemma closed_planned (target : Raster) : Closed target (Planned target.pricing) where
  leave _ _ _ _ := .leave _
  recolor _ _ paint := .recolor paint _
  recolorThen paint _ planned := .recolorThen paint planned
  cut _ _ _ _ splits planned := by
    rw [List.forall₂_iff_get] at planned
    exact .cut splits planned.1 planned.2

section Plans

variable {σ : Type} {target : Raster} {F : Nat → Rect → Bool → Recipe → Prop} {remaining : Nat}
variable {deeper : Rect → Color → Bool → SearchM σ Recipe}

/-- A way to search parts that returns members of the family. -/
def DeeperPlans (F : Nat → Rect → Bool → Recipe → Prop) (remaining : Nat)
    (deeper : Rect → Color → Bool → SearchM σ Recipe) : Prop :=
  ∀ rect current tryRecolor,
    Yields (F remaining rect tryRecolor) (deeper rect current tryRecolor)

lemma searchParts_yields (h : DeeperPlans F remaining deeper) (current : Color) (r : Recipe)
    (index : Nat) (parts : List Rect) :
    Yields (fun out => ∃ subs,
        List.Forall₂ (fun part sub => F remaining part true sub) parts subs ∧
          out = r.appendChildren index subs)
      (searchParts deeper current r index parts) := by
  induction parts generalizing r index with
  | nil => exact yields_pure ⟨[], .nil, rfl⟩
  | cons part rest ih =>
    refine (h part current true).bind fun sub hsub => ?_
    intro s out s' hout
    obtain ⟨subs, hsubs, rfl⟩ := ih (r.appendChild index sub) (index + 1) s out s' hout
    exact ⟨sub :: subs, .cons hsub hsubs, rfl⟩

variable (closed : Closed target F)
include closed

lemma splits_yields {rect : Rect} {action : Action} {parts : List Rect}
    (h : DeeperPlans F remaining deeper) (splits : Splits rect action parts) (current : Color)
    (tryRecolor : Bool) :
    Yields (F (remaining + 1) rect tryRecolor)
      (searchParts deeper current
        (.begin action (target.pricing.cost action.operation rect.area)) 0 parts) := by
  intro s out s' hout
  obtain ⟨subs, hsubs, rfl⟩ := searchParts_yields h current _ 0 parts s out s' hout
  exact closed.cut tryRecolor splits hsubs

lemma cuttings_yields (h : DeeperPlans F remaining deeper) (rect : Rect) (current : Color)
    (least : Float) (tryRecolor : Bool) :
    Yields (fun out => ∀ r ∈ out, F (remaining + 1) rect tryRecolor r)
      (cuttings target.pricing deeper rect current (target.pricing.cost .color rect.area)
        least) := by
  have hline : ∀ cut, Yields (F (remaining + 1) rect tryRecolor)
      (lineCutRecipe deeper rect current (target.pricing.cost .lineCut rect.area) cut) := by
    intro cut
    refine (yields_lift _).bind ?_
    rintro ⟨low, high⟩ hcut
    exact splits_yields closed h (.line hcut) current tryRecolor
  have hpoint : Yields (F (remaining + 1) rect tryRecolor)
      (pointCutRecipe deeper rect current (target.pricing.cost .pointCut rect.area)) :=
    (yields_lift _).bind fun quarters hcut =>
      splits_yields closed h (.point hcut) current tryRecolor
  have hnone : Yields (fun out => ∀ r ∈ out, F (remaining + 1) rect tryRecolor r)
      (pure [] : SearchM σ (List Recipe)) := yields_pure (by simp)
  refine Yields.ite (fun _ => (Yields.mapM hline _).bind ?_) fun _ => hnone.bind ?_
  all_goals
    intro lines hlines
    refine Yields.ite (fun _ => hpoint.bind fun point hp => yields_pure ?_)
      fun _ => yields_pure hlines
    exact List.forall_mem_append.mpr ⟨hlines, by simpa using hp⟩

lemma recolorings_yields {s : Surroundings σ} {rect : Rect}
    (h : ∀ deeper ∈ s.deeper, ∃ n, remaining = n + 1 ∧ DeeperPlans F n deeper)
    (current : Color) (similarity : Float) :
    Yields (fun out => ∀ r ∈ out.1, F remaining rect true r)
      (recolorings target s rect current (target.pricing.cost .color rect.area) similarity) := by
  refine (yields_any _).bind fun estimate _ =>
    Yields.ite (fun _ => yields_pure (by simp)) fun _ => ?_
  obtain ⟨color, _ | deeper⟩ := s
  · refine yields_pure ?_
    simpa using closed.recolor remaining rect estimate
  · obtain ⟨n, rfl, hdeeper⟩ := h deeper rfl
    refine (hdeeper rect estimate false).bind fun nested hnested => yields_pure ?_
    simpa using ⟨closed.recolor (n + 1) rect estimate, closed.recolorThen estimate hnested⟩

lemma searchBlock_yields {s : Surroundings σ} {rect : Rect}
    (h : ∀ deeper ∈ s.deeper, ∃ n, remaining = n + 1 ∧ DeeperPlans F n deeper)
    (current : Color) (tryRecolor : Bool) :
    Yields (fun finding => ∀ r ∈ finding.candidates, F remaining rect tryRecolor r)
      (searchBlock target s rect current tryRecolor) := by
  have hleave := closed.leave remaining rect tryRecolor current
  have hcompared : ∀ others, (∀ r ∈ others, F remaining rect tryRecolor r) →
      ∀ r ∈ (Finding.compared (.leave (target.similarity rect current)) others).candidates,
        F remaining rect tryRecolor r :=
    fun others hothers => List.forall_mem_cons.mpr ⟨hleave, hothers⟩
  have hnone : Yields (fun out => ∀ r ∈ out.1, F remaining rect tryRecolor r)
      (pure ([], target.similarity rect current) : SearchM σ (List Recipe × Float)) :=
    yields_pure (by simp)
  have hrecolored : tryRecolor = true → Yields
      (fun out => ∀ r ∈ out.1, F remaining rect tryRecolor r)
      (recolorings target s rect current (target.pricing.cost .color rect.area)
        (target.similarity rect current)) := by
    rintro rfl
    exact recolorings_yields closed h current _
  refine Yields.ite (fun _ => yields_pure (by simpa [Finding.candidates] using hleave)) fun _ => ?_
  refine Yields.ite (fun htry => (hrecolored htry).bind ?_) fun _ => hnone.bind ?_
  -- With and without recoloring, the cuts are searched in the same way.
  all_goals
    rintro ⟨recolored, least⟩ hrec
    obtain ⟨color, _ | deeper⟩ := s
    · exact yields_pure (hcompared recolored hrec)
    · obtain ⟨n, rfl, hdeeper⟩ := h deeper rfl
      refine (cuttings_yields closed hdeeper rect current least tryRecolor).bind fun cut hcut => ?_
      exact yields_pure (hcompared _ (List.forall_mem_append.mpr ⟨hrec, hcut⟩))

lemma searchAfresh_yields (estimator : Estimator) (remaining : Nat) (rect : Rect)
    (current : Color) (tryRecolor : Bool) :
    Yields (F remaining rect tryRecolor)
      (searchAfresh target estimator remaining rect current tryRecolor) := by
  induction remaining generalizing rect current tryRecolor with
  | zero =>
    rw [searchAfresh, map_eq_pure_bind]
    exact (searchBlock_yields closed (by simp) current tryRecolor).bind
      fun finding h => yields_pure (h _ finding.best_mem)
  | succ remaining ih =>
    rw [searchAfresh, map_eq_pure_bind]
    refine (searchBlock_yields closed ?_ current tryRecolor).bind
      fun finding h => yields_pure (h _ finding.best_mem)
    intro deeper hdeeper
    obtain rfl := Option.some.inj hdeeper
    exact ⟨remaining, rfl, ih⟩

omit closed

lemma search_of_improve {estimator : Estimator} {maxDepth depth : Nat} {rect : Rect}
    {current : Color} {recipe : Recipe} {s next : Session}
    (h : improve target estimator maxDepth rect current depth s = .ok (recipe, next)) :
    rect.Within target.width target.height ∧
      (search target estimator (maxDepth - depth) rect current true).run s =
        .ok (recipe, next) := by
  simp only [improve, Raster.check] at h
  split at h
  · cases h
  · rename_i hcheck
    split at h
    · cases h
    · rename_i result hsearch
      cases h
      split at hcheck
      · rename_i hwithin
        exact ⟨hwithin, hsearch⟩
      · cases hcheck

lemma afresh_of_improve {estimator : Estimator} {maxDepth depth : Nat} {history : List Query}
    {rect : Rect} {current : Color} {recipe : Recipe} {next : Session}
    (h : improve target estimator maxDepth rect current depth
      (.after target estimator maxDepth history) = .ok (recipe, next)) :
    (searchAfresh target estimator (maxDepth - depth) rect current true).run () =
      .ok (recipe, ()) := by
  have hsearch := (search_of_improve h).2
  rcases agrees_search (maxDepth - depth) rect current true _ ()
    (sound_after target estimator maxDepth history) with
    ⟨e, hrun, _⟩ | ⟨answer, s', _, hrun, hplain, _⟩
  · rw [hsearch] at hrun
    cases hrun
  · rw [hsearch] at hrun
    cases hrun
    exact hplain

theorem planned_of_improve {estimator : Estimator} {maxDepth depth : Nat} {history : List Query}
    {rect : Rect} {current : Color} {recipe : Recipe} {next : Session}
    (h : improve target estimator maxDepth rect current depth
      (.after target estimator maxDepth history) = .ok (recipe, next)) :
    rect.Within target.width target.height ∧
      Planned target.pricing (maxDepth - depth) rect true recipe := by
  have hfound := afresh_of_improve h
  exact ⟨(search_of_improve h).1,
    searchAfresh_yields (closed_planned target) _ _ _ _ _ _ _ _ hfound⟩

end Plans

end Subdivision

end BlockPainting
