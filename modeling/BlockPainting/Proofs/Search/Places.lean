import BlockPainting.Proofs.Number.Dyadic
import BlockPainting.Proofs.Rect.Cuts
import BlockPainting.Proofs.Search.Plans

/-!
# Where a search cuts

A search computes the places of its cuts in doubles, at quarters of a side. As long as coordinates
fit a word these doubles are exact, so every place lies strictly inside the side and no cut is
refused. Hence a search always comes to a recipe.
-/

namespace BlockPainting.Subdivision

open Success

lemma dyadic_oneQuarter : Dyadic 0.25 1 (-2) :=
  ⟨by decide, by decide, by decide, by rfl⟩

lemma dyadic_twoQuarters : Dyadic 0.5 2 (-2) :=
  ⟨by decide, by decide, by decide, by rfl⟩

lemma dyadic_threeQuarters : Dyadic 0.75 3 (-2) :=
  ⟨by decide, by decide, by decide, by rfl⟩

variable {start length quarters : Nat} {ratio : Float}

lemma dyadic_cutPosition (h : Dyadic ratio quarters (-2)) (few : quarters < 4) (pos : 0 < length)
    (small : start + length ≤ maxCoordinate) :
    Dyadic (countToFloat start + countToFloat length * ratio) (start * 4 + length * quarters)
      (-2) := by
  simp only [maxCoordinate, maxWord] at small
  have hpart : length * quarters ≤ length * 3 := Nat.mul_le_mul_left _ (by omega)
  have hproduct : Dyadic (countToFloat length * ratio) (length * quarters) (-2) := by
    have hmul := (dyadic_countToFloat pos (by omega)).mul h (by omega) (by decide) (by decide)
    rwa [Int.zero_add] at hmul
  rcases Nat.eq_zero_or_pos start with rfl | hstart
  · rw [Nat.zero_mul, Nat.zero_add]
    exact zero_add_dyadic hproduct (by decide) (by decide)
  · have hscaled : Dyadic (countToFloat start) (start * 4) (-2) :=
      (dyadic_countToFloat hstart (by omega)).scale (c := 2) (by omega)
    exact hscaled.add hproduct (by omega) (by decide) (by decide)

theorem cutPosition_eq (h : Dyadic ratio quarters (-2)) (few : quarters < 4) (pos : 0 < length)
    (small : start + length ≤ maxCoordinate) :
    cutPosition start length ratio = start + (length * quarters + 2) / 4 := by
  have hpart : length * quarters ≤ length * 3 := Nat.mul_le_mul_left _ (by omega)
  have hdyadic : Dyadic (countToFloat start + countToFloat length * ratio)
      (start * 4 + length * quarters) (-(2 : Nat)) := dyadic_cutPosition h few pos small
  rw [cutPosition, hdyadic.roundClamped_eq]
  omega

lemma cutPosition_inside (h : Dyadic ratio quarters (-2)) (some_quarters : 0 < quarters)
    (few : quarters < 4) (long : narrowSide < length) (small : start + length ≤ maxCoordinate) :
    start < cutPosition start length ratio ∧ cutPosition start length ratio < start + length := by
  have hlow : length * 1 ≤ length * quarters := Nat.mul_le_mul_left _ some_quarters
  have hhigh : length * quarters ≤ length * 3 := Nat.mul_le_mul_left _ (by omega)
  unfold narrowSide at long
  rw [cutPosition_eq h few (by omega) small]
  omega

lemma cutPosition_inside_of_mem (h : ratio ∈ cutRatios length)
    (small : start + length ≤ maxCoordinate) :
    start < cutPosition start length ratio ∧ cutPosition start length ratio < start + length := by
  unfold cutRatios at h
  split at h
  · rename_i hwide
    have hlong : narrowSide < length := by
      unfold wideSide at hwide
      unfold narrowSide
      omega
    simp only [List.mem_cons, List.not_mem_nil, or_false] at h
    rcases h with rfl | rfl | rfl
    · exact cutPosition_inside dyadic_oneQuarter (by decide) (by decide) hlong small
    · exact cutPosition_inside dyadic_twoQuarters (by decide) (by decide) hlong small
    · exact cutPosition_inside dyadic_threeQuarters (by decide) (by decide) hlong small
  · split at h
    · rename_i hlong
      obtain rfl := List.mem_singleton.mp h
      exact cutPosition_inside dyadic_twoQuarters (by decide) (by decide) hlong small
    · cases h

def Moderate (rect : Rect) : Prop :=
  rect.Within maxCoordinate maxCoordinate

def PartOf (whole rect : Rect) : Prop :=
  ∀ p : Nat × Nat, p ∈ rect → p ∈ whole

variable {whole rect : Rect}

lemma PartOf.of_splits {action : Action} {parts : List Rect} (part_of : PartOf whole rect)
    (splits : Splits rect action parts) : ∀ part ∈ parts, PartOf whole part := by
  intro part hpart p hp
  exact part_of p ((splits.tiles.mem_iff p).mpr ⟨part, hpart, hp⟩)

lemma PartOf.moderate (part_of : PartOf whole rect) (moderate : Moderate whole) :
    Moderate rect :=
  Rect.within_of_mem fun p hp => moderate.lt (part_of p hp)

/-- Every line that a search tries runs strictly inside. -/
lemma inside_of_mem_lineCuts (moderate : Moderate rect) {cut : Axis × Nat}
    (h : cut ∈ lineCuts rect) : rect.Inside cut.1 cut.2 := by
  rcases List.mem_append.mp h with h | h
  · obtain ⟨ratio, hratio, rfl⟩ := List.mem_map.mp h
    exact cutPosition_inside_of_mem hratio moderate.1
  · obtain ⟨ratio, hratio, rfl⟩ := List.mem_map.mp h
    exact cutPosition_inside_of_mem hratio moderate.2

lemma inside_middle (moderate : Moderate rect)
    (wide : wideSide < rect.width ∧ wideSide < rect.height) :
    rect.Inside .x (cutPosition rect.x rect.width 0.5) ∧
      rect.Inside .y (cutPosition rect.y rect.height 0.5) := by
  have hlong : narrowSide < rect.width ∧ narrowSide < rect.height := by
    unfold wideSide at wide
    unfold narrowSide
    omega
  exact ⟨cutPosition_inside dyadic_twoQuarters (by decide) (by decide) hlong.1 moderate.1,
    cutPosition_inside dyadic_twoQuarters (by decide) (by decide) hlong.2 moderate.2⟩

section Succeeds

variable {σ α β : Type} {I : σ → Prop} {target : Raster}

/-- From every state with the invariant the computation comes to a result and to a state with the
invariant. -/
def Succeeds (I : σ → Prop) (m : SearchM σ α) : Prop :=
  ∀ s, I s → ∃ a s', m.run s = .ok (a, s') ∧ I s'

lemma succeeds_pure (a : α) : Succeeds I (pure a : SearchM σ α) :=
  fun s hs => ⟨a, s, rfl, hs⟩

lemma Succeeds.bind {m : SearchM σ α} {f : α → SearchM σ β} (h : Succeeds I m)
    (hf : ∀ a, Succeeds I (f a)) : Succeeds I (m >>= f) := by
  intro s hs
  obtain ⟨a, mid, hm, hmid⟩ := h s hs
  obtain ⟨b, s', hb, hs'⟩ := hf a mid hmid
  exact ⟨b, s', bind_eq_ok.mpr ⟨(a, mid), hm, hb⟩, hs'⟩

lemma Succeeds.ite {p : Prop} [Decidable p] {m m' : SearchM σ α} (h : p → Succeeds I m)
    (h' : ¬ p → Succeeds I m') : Succeeds I (if p then m else m') := by
  by_cases hp : p
  · simpa only [if_pos hp] using h hp
  · simpa only [if_neg hp] using h' hp

lemma Succeeds.mapM {f : α → SearchM σ β} {as : List α} (h : ∀ a ∈ as, Succeeds I (f a)) :
    Succeeds I (as.mapM f) := by
  induction as with
  | nil => exact succeeds_pure []
  | cons a as ih =>
    rw [List.forall_mem_cons] at h
    rw [List.mapM_cons]
    exact h.1.bind fun b => (ih h.2).bind fun bs => succeeds_pure (b :: bs)

/-- A way to search the parts of the whole that always comes to a recipe. -/
def DeeperSucceeds (I : σ → Prop) (whole : Rect)
    (deeper : Rect → Color → Bool → SearchM σ Recipe) : Prop :=
  ∀ rect current tryRecolor, PartOf whole rect → Succeeds I (deeper rect current tryRecolor)

structure Surroundings.Succeeds (I : σ → Prop) (whole : Rect) (s : Surroundings σ) : Prop where
  color : ∀ rect, Subdivision.Succeeds I (s.color rect)
  deeper : ∀ deeper ∈ s.deeper, DeeperSucceeds I whole deeper

variable {s : Surroundings σ} {deeper : Rect → Color → Bool → SearchM σ Recipe}

lemma succeeds_searchParts (h : DeeperSucceeds I whole deeper) (current : Color) (r : Recipe)
    (index : Nat) {parts : List Rect} (inside : ∀ part ∈ parts, PartOf whole part) :
    Succeeds I (searchParts deeper current r index parts) := by
  induction parts generalizing r index with
  | nil => exact succeeds_pure r
  | cons part rest ih =>
    rw [List.forall_mem_cons] at inside
    exact (h part current true inside.1).bind fun sub => ih _ _ inside.2

section

variable (moderate : Moderate whole) (inside : PartOf whole rect)

include moderate inside

lemma succeeds_lineCutRecipe (h : DeeperSucceeds I whole deeper) (current : Color) (cost : Nat)
    {cut : Axis × Nat} (hcut : cut ∈ lineCuts rect) :
    Succeeds I (lineCutRecipe deeper rect current cost cut) := by
  obtain ⟨low, high, hparts⟩ :=
    Rect.exists_cut_iff.mpr (inside_of_mem_lineCuts (inside.moderate moderate) hcut)
  rw [lineCutRecipe, hparts]
  exact succeeds_searchParts h current _ 0 (inside.of_splits (.line hparts))

lemma succeeds_pointCutRecipe (h : DeeperSucceeds I whole deeper)
    (wide : wideSide < rect.width ∧ wideSide < rect.height) (current : Color) (cost : Nat) :
    Succeeds I (pointCutRecipe deeper rect current cost) := by
  obtain ⟨quarters, hparts⟩ :=
    Rect.exists_cutPoint_iff.mpr (inside_middle (inside.moderate moderate) wide)
  simp only [pointCutRecipe, hparts]
  exact succeeds_searchParts h current _ 0 (inside.of_splits (.point hparts))

lemma succeeds_cuttings (h : DeeperSucceeds I whole deeper) (prices : Pricing) (current : Color)
    (colorCost : Nat) (least : Float) :
    Succeeds I (cuttings prices deeper rect current colorCost least) := by
  have hlines : Succeeds I
      ((lineCuts rect).mapM (lineCutRecipe deeper rect current (prices.cost .lineCut rect.area))) :=
    Succeeds.mapM fun cut hcut => succeeds_lineCutRecipe moderate inside h current _ hcut
  refine Succeeds.ite (fun _ => hlines.bind ?_) fun _ => (succeeds_pure []).bind ?_
  all_goals
    intro lines
    refine Succeeds.ite (fun large => ?_) fun _ => succeeds_pure lines
    exact (succeeds_pointCutRecipe moderate inside h large.2 current _).bind
      fun _ => succeeds_pure _

lemma succeeds_searchBlock (h : s.Succeeds I whole) (current : Color) (tryRecolor : Bool) :
    Succeeds I (searchBlock target s rect current tryRecolor) := by
  have hrecolorings : ∀ colorCost similarity,
      Succeeds I (recolorings target s rect current colorCost similarity) := by
    intro colorCost similarity
    refine (h.color rect).bind fun estimate => Succeeds.ite (fun _ => succeeds_pure _) fun _ => ?_
    obtain ⟨color, _ | deeper⟩ := s
    · exact succeeds_pure _
    · exact (h.deeper deeper rfl rect estimate false inside).bind fun nested => succeeds_pure _
  refine Succeeds.ite (fun _ => succeeds_pure _) fun _ => ?_
  refine Succeeds.ite (fun _ => (hrecolorings _ _).bind ?_) fun _ => (succeeds_pure ([], _)).bind ?_
  all_goals
    rintro ⟨recolored, least⟩
    obtain ⟨color, _ | deeper⟩ := s
    · exact succeeds_pure _
    · refine (succeeds_cuttings moderate inside (h.deeper deeper rfl) _ current _ least).bind
        fun cut => ?_
      exact succeeds_pure _

end

end Succeeds

variable {target : Raster} {estimator : Estimator}

def anySession (_ : Session) : Prop :=
  True

lemma succeeds_modify (f : Session → Session) :
    Succeeds anySession (modify f : SearchM Session Unit) :=
  fun s _ => ⟨(), f s, rfl, trivial⟩

lemma succeeds_conclude (key : Key) (finding : Finding) :
    Succeeds anySession (conclude key finding) := by
  cases finding with
  | pruned leave => exact (succeeds_modify _).bind fun _ => succeeds_pure leave
  | compared leave others => exact (succeeds_modify _).bind fun _ => succeeds_pure _

lemma succeeds_remember (key : Key) {search : SearchM Session Finding}
    (h : Succeeds anySession search) : Succeeds anySession (remember key search) := by
  have hget : Succeeds anySession (get : SearchM Session Session) := fun s hs => ⟨s, s, rfl, hs⟩
  refine hget.bind fun session => ?_
  split
  · exact (succeeds_modify _).bind fun _ => succeeds_pure _
  · exact (succeeds_modify _).bind fun _ => h.bind fun finding => succeeds_conclude key finding

lemma succeeds_cachedColor (rect : Rect) :
    Succeeds anySession (cachedColor target estimator rect) :=
  fun _ _ => ⟨_, _, rfl, trivial⟩

theorem succeeds_search (target : Raster) (estimator : Estimator) (moderate : Moderate whole)
    (remaining : Nat) : DeeperSucceeds anySession whole (search target estimator remaining) := by
  induction remaining with
  | zero =>
    intro rect current tryRecolor inside
    refine succeeds_remember _ (succeeds_searchBlock moderate inside ⟨succeeds_cachedColor, ?_⟩ _ _)
    simp
  | succ remaining ih =>
    intro rect current tryRecolor inside
    refine succeeds_remember _ (succeeds_searchBlock moderate inside ⟨succeeds_cachedColor, ?_⟩ _ _)
    intro deeper hdeeper
    obtain rfl := Option.some.inj hdeeper
    exact ih

lemma exists_estimator (onRaster : rect.Within target.width target.height)
    (settings : Settings) : ∃ estimator, Estimator.ofSettings target settings = .ok estimator := by
  have hlt := onRaster.lt rect.bottomLeft_mem
  have hsides : 0 < target.width ∧ 0 < target.height := by omega
  obtain ⟨bounds, hbounds⟩ : ∃ bounds, target.bounds = .ok bounds := ⟨_, dif_pos hsides⟩
  unfold Estimator.ofSettings
  split
  · exact ⟨_, rfl⟩
  · simp only [Quadtree.build, hbounds]
    exact ⟨_, rfl⟩

lemma moderate_of_within
    (sides : target.width ≤ maxCoordinate ∧ target.height ≤ maxCoordinate)
    (onRaster : rect.Within target.width target.height) : Moderate rect :=
  ⟨onRaster.1.trans sides.1, onRaster.2.trans sides.2⟩

theorem improve_succeeds (sides : target.width ≤ maxCoordinate ∧ target.height ≤ maxCoordinate)
    (onRaster : rect.Within target.width target.height) (estimator : Estimator)
    (maxDepth : Nat) (current : Color) (depth : Nat) (s : Session) :
    ∃ recipe next, improve target estimator maxDepth rect current depth s = .ok (recipe, next) := by
  have hcheck : target.check rect = .ok () := if_pos onRaster
  obtain ⟨recipe, next, hsearch, _⟩ :=
    succeeds_search target estimator (moderate_of_within sides onRaster) (maxDepth - depth) rect
      current true (fun _ hp => hp) s trivial
  refine ⟨recipe, next, ?_⟩
  simp only [improve, hcheck, hsearch]

end BlockPainting.Subdivision
