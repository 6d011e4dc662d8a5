import BlockPainting.Proofs.Search.Levels

/-!
# Every line of a search runs inside

The places of cuts are computed in doubles, and yet they are what exact arithmetic gives: the
coordinate nearest to a point part of the way along the side, a half going up. They lie strictly
inside the side. At every level of its recursion a search asks for parts of its block only, and
never with more subdivisions left than at the beginning, so no cut is refused and the search ends.
-/

namespace BlockPainting

/-- The real number written as a sign, a mantissa and a power of two. -/
def ExactDouble.value (v : ExactDouble) : ℚ :=
  (if v.negative then -1 else 1) * (v.mantissa * 2 ^ v.exponent)

def Denotes (x : Float) (q : ℚ) : Prop :=
  ∃ v, DoubleValue.ofFloat x = .finite v ∧ v.value = q

open Float.Model.UnpackedFloat in
lemma Dyadic.denotes {x : Float} {m : Nat} {e : Int} (h : Dyadic x m e) :
    Denotes x (m * 2 ^ e) := by
  obtain ⟨hpos, hunpack⟩ := h.unpack_eq
  refine ⟨_, ofFloat_of_unpack hunpack, ?_⟩
  have hsign : ((Sign.positive : Sign) == .negative) = false := rfl
  simp only [ExactDouble.value, hsign, Bool.false_eq_true, if_false, one_mul, fullMantissa,
    Nat.cast_mul, Nat.cast_pow, Nat.cast_ofNat]
  rw [mul_assoc, ← zpow_natCast, ← zpow_add₀ two_ne_zero]
  congr 2
  omega

namespace Subdivision

open Success

section Places

variable {start length quarters : Nat} {ratio : Float}

lemma exists_quarters (h : ratio ∈ cutRatios length ∨ wideSide < length ∧ ratio = 0.5) :
    ∃ quarters, Dyadic ratio quarters (-2) ∧ quarters < 4 := by
  have hratio : ratio = 0.25 ∨ ratio = 0.5 ∨ ratio = 0.75 := by
    rcases h with h | ⟨_, rfl⟩
    · unfold cutRatios at h
      split at h
      · simpa using h
      · split at h
        · exact Or.inr (Or.inl (List.mem_singleton.mp h))
        · cases h
    · exact Or.inr (Or.inl rfl)
  rcases hratio with rfl | rfl | rfl
  · exact ⟨1, dyadic_oneQuarter, by decide⟩
  · exact ⟨2, dyadic_twoQuarters, by decide⟩
  · exact ⟨3, dyadic_threeQuarters, by decide⟩

lemma mem_cutRatios (h : ratio ∈ cutRatios length ∨ wideSide < length ∧ ratio = 0.5) :
    ratio ∈ cutRatios length := by
  rcases h with h | ⟨wide, rfl⟩
  · exact h
  · simp [cutRatios, wide]

lemma cutPosition_exact (h : Dyadic ratio quarters (-2)) (few : quarters < 4) (pos : 0 < length)
    (small : start + length ≤ maxCoordinate) :
    cutPosition start length ratio =
      start + ⌊(length : ℚ) * (quarters * 2 ^ (-2 : ℤ)) + 1 / 2⌋₊ := by
  have hfraction : (length : ℚ) * (quarters * 2 ^ (-2 : ℤ)) + 1 / 2 =
      ((length * quarters + 2 : ℕ) : ℚ) / (4 : ℕ) := by
    push_cast
    ring
  rw [cutPosition_eq h few pos small, hfraction, Nat.floor_div_eq_div]

lemma pos_of_mem_cutRatios (h : ratio ∈ cutRatios length) : 0 < length := by
  unfold cutRatios wideSide narrowSide at h
  split at h
  · omega
  · split at h
    · omega
    · cases h

end Places

variable {target : Raster} {estimator : Estimator} {whole rect : Rect} {limit : Nat}

/-- The search of a level's block is that of a part of the whole, with at most so many subdivisions
left, and every line that it tries runs strictly inside the block. -/
structure Level.Interior (whole : Rect) (limit : Nat) (level : Level) : Prop where
  part_of : PartOf whole level.key.rect
  remaining_le : level.key.remaining ≤ limit
  lines : ∀ cut ∈ lineCuts level.key.rect, level.key.rect.Inside cut.1 cut.2
  middle : wideSide < level.key.rect.width ∧ wideSide < level.key.rect.height →
    level.key.rect.Inside .x (cutPosition level.key.rect.x level.key.rect.width 0.5) ∧
      level.key.rect.Inside .y (cutPosition level.key.rect.y level.key.rect.height 0.5)

lemma Level.interior (moderate : Moderate whole) {level : Level}
    (part_of : PartOf whole level.key.rect) (remaining_le : level.key.remaining ≤ limit) :
    level.Interior whole limit := by
  have hmoderate := part_of.moderate moderate
  exact ⟨part_of, remaining_le, fun _ hcut => inside_of_mem_lineCuts hmoderate hcut,
    inside_middle hmoderate⟩

def AllInterior (whole : Rect) (limit : Nat) (s : Session × List Level) : Prop :=
  ∀ level ∈ s.2, level.Interior whole limit

lemma succeeds_beside {α : Type} {m : SearchM Session α} (h : Succeeds anySession m) :
    Succeeds (AllInterior whole limit) (beside m) := by
  rintro ⟨s, levels⟩ hlevels
  obtain ⟨a, s', hm, _⟩ := h s trivial
  exact ⟨a, (s', levels), bind_eq_ok.mpr ⟨(a, s'), hm, rfl⟩, hlevels⟩

lemma succeeds_note {level : Level} (h : level.Interior whole limit) :
    Succeeds (AllInterior whole limit) (note level) := by
  rintro ⟨s, levels⟩ hlevels
  exact ⟨(), (s, levels ++ [level]), rfl, List.forall_mem_append.mpr ⟨hlevels, by simpa using h⟩⟩

lemma succeeds_rememberNoted (moderate : Moderate whole) {key : Key}
    (part_of : PartOf whole key.rect) (remaining_le : key.remaining ≤ limit)
    {find : SearchM (Session × List Level) Finding}
    (h : Succeeds (AllInterior whole limit) find) :
    Succeeds (AllInterior whole limit) (rememberNoted key find) := by
  have hnote : ∀ found answer,
      Succeeds (AllInterior whole limit) (note ⟨key, found, answer⟩) :=
    fun _ _ => succeeds_note (Level.interior moderate part_of remaining_le)
  have hget : Succeeds (AllInterior whole limit)
      (get : SearchM (Session × List Level) (Session × List Level)) := fun s hs => ⟨s, s, rfl, hs⟩
  refine hget.bind fun session => ?_
  split
  · refine (succeeds_beside (succeeds_modify _)).bind fun _ => ?_
    exact (hnote _ _).bind fun _ => succeeds_pure _
  · refine (succeeds_beside (succeeds_modify _)).bind fun _ => h.bind fun finding => ?_
    refine (succeeds_beside (succeeds_conclude key finding)).bind fun answer => ?_
    exact (hnote _ _).bind fun _ => succeeds_pure answer

lemma succeeds_searchNoted (moderate : Moderate whole) {remaining : Nat}
    (remaining_le : remaining ≤ limit) :
    DeeperSucceeds (AllInterior whole limit) whole (searchNoted target estimator remaining) := by
  have hcolor : ∀ rect, Succeeds (AllInterior whole limit)
      (beside (cachedColor target estimator rect)) :=
    fun rect => succeeds_beside (succeeds_cachedColor rect)
  induction remaining with
  | zero =>
    intro rect current tryRecolor part_of
    refine succeeds_rememberNoted moderate part_of remaining_le ?_
    exact succeeds_searchBlock moderate part_of ⟨hcolor, by simp⟩ _ _
  | succ remaining ih =>
    intro rect current tryRecolor part_of
    refine succeeds_rememberNoted moderate part_of remaining_le ?_
    refine succeeds_searchBlock moderate part_of ⟨hcolor, ?_⟩ _ _
    intro deeper hdeeper
    obtain rfl := Option.some.inj hdeeper
    exact ih (Nat.le_of_succ_le remaining_le)

/-- On a raster whose sides fit a word every search of a block on the raster comes to a recipe,
whatever the settings, the paint and the depth and whatever the session was asked before. At every
level of the recursion the lines that are tried run strictly inside the block of the level, and no
level has more subdivisions left than the search began with. The place of a cut is the exact one,
rounded to the nearest coordinate, a half going up, and it lies strictly inside the side, for all
sides that end at a word. -/
theorem search_never_refused
    (sides : target.width ≤ maxCoordinate ∧ target.height ≤ maxCoordinate)
    (onRaster : rect.Within target.width target.height) :
    (∀ settings, ∃ estimator, Estimator.ofSettings target settings = .ok estimator) ∧
    (∀ (estimator : Estimator) (maxDepth : Nat) (history : List Query) (current : Color)
        (depth : Nat), ∃ recipe next levels,
      improve target estimator maxDepth rect current depth
        (.after target estimator maxDepth history) = .ok (recipe, next) ∧
      (searchNoted target estimator (maxDepth - depth) rect current true).run
        (.after target estimator maxDepth history, []) = .ok (recipe, next, levels) ∧
      (∃ found, (⟨⟨rect, current, maxDepth - depth, true⟩, found, recipe⟩ : Level) ∈ levels) ∧
      ∀ level ∈ levels, level.Interior rect (maxDepth - depth)) ∧
    ∀ start length ratio, start + length ≤ maxCoordinate →
      ratio ∈ cutRatios length ∨ wideSide < length ∧ ratio = 0.5 →
      (start < cutPosition start length ratio ∧
        cutPosition start length ratio < start + length) ∧
      ∃ q, Denotes ratio q ∧
        cutPosition start length ratio = start + ⌊(length : ℚ) * q + 1 / 2⌋₊ := by
  refine ⟨exists_estimator onRaster, ?_, ?_⟩
  · intro estimator maxDepth history current depth
    obtain ⟨recipe, next, himprove⟩ := improve_succeeds sides onRaster estimator maxDepth current
      depth (.after target estimator maxDepth history)
    obtain ⟨levels, hnoted, hmem, _⟩ := exists_levels himprove
    obtain ⟨_, _, hrun, hinterior⟩ := succeeds_searchNoted (moderate_of_within sides onRaster)
      (Nat.le_refl _) rect current true (fun _ hp => hp)
      (.after target estimator maxDepth history, []) (by simp [AllInterior])
    obtain ⟨rfl, rfl⟩ := Prod.mk.inj (Except.ok.inj (hnoted.symm.trans hrun))
    exact ⟨recipe, next, levels, himprove, hnoted, hmem, hinterior⟩
  · intro start length ratio small hratio
    have hmem := mem_cutRatios hratio
    obtain ⟨quarters, hdyadic, few⟩ := exists_quarters hratio
    exact ⟨cutPosition_inside_of_mem hmem small, _, hdyadic.denotes,
      cutPosition_exact hdyadic few (pos_of_mem_cutRatios hmem) small⟩

theorem search_never_refused_of_halfBlack :
    (halfBlack.width ≤ maxCoordinate ∧ halfBlack.height ≤ maxCoordinate) ∧
    wholeBlock.rect.Within halfBlack.width halfBlack.height ∧
    (∃ recipe next, improve halfBlack (.exact 0.5) 3 wholeBlock.rect .white 0
      (.after halfBlack (.exact 0.5) 3 []) = .ok (recipe, next)) ∧
    maxCoordinate - 101 < cutPosition (maxCoordinate - 101) 101 0.5 ∧
      cutPosition (maxCoordinate - 101) 101 0.5 < maxCoordinate := by
  have sides : halfBlack.width ≤ maxCoordinate ∧ halfBlack.height ≤ maxCoordinate := by decide
  have onRaster : wholeBlock.rect.Within halfBlack.width halfBlack.height := by decide
  obtain ⟨_, hsearch, hplaces⟩ := search_never_refused sides onRaster
  obtain ⟨recipe, next, _, himprove, _⟩ := hsearch (.exact 0.5) 3 [] .white 0
  have hinside := (hplaces (maxCoordinate - 101) 101 0.5 (by decide) (Or.inr ⟨by decide, rfl⟩)).1
  exact ⟨sides, onRaster, ⟨recipe, next, himprove⟩, hinside.1, hinside.2⟩

end Subdivision

end BlockPainting
