import BlockPainting.Proofs.Number.Rounding
import BlockPainting.Raster

/-!
# Sums of doubles

A sum of two doubles without a minus sign is the sum of their numbers of units, rounded to 53 bits.
Rounding keeps the order, so addition does. Penalties and scores are built from such sums, products
and roots, and are therefore never negative and never undefined.
-/

namespace BlockPainting

open Float.Model Float.Model.UnpackedFloat

lemma unpack_pack_infinity (sign : Sign) :
    unpack Format.binary64 (pack Format.binary64 (.infinity sign)) = .infinity sign := by
  cases sign <;> rfl

lemma unpack_pack_zero (sign : Sign) :
    unpack Format.binary64 (pack Format.binary64 (.zero sign)) = .zero sign := by
  cases sign <;> rfl

lemma unsigned_packComponents {biased : BitVec 11} (fraction : BitVec 52) (h : biased ≠ -1#_) :
    Unsigned (unpack Format.binary64
      (packComponents Format.binary64 .positive biased fraction)) := by
  simp only [UnpackedFloat.unpack, unpackMantissa_packComponents, unpackExponent_packComponents,
    unpackSign_packComponents, Sign.ofBitVec_toBitVec, h, if_false]
  split
  · split <;> trivial
  · trivial

lemma unsigned_pack {u : UnpackedFloat} (h : Unsigned u) :
    Unsigned (unpack Format.binary64 (pack Format.binary64 u)) := by
  rcases u with (_ | _) | _ | sign | ⟨(_ | _), m, e, pos⟩
  · exact h.elim
  · trivial
  · exact h.elim
  · rw [unpack_pack_zero]
    trivial
  · exact h.elim
  · simp only [UnpackedFloat.pack]
    split
    · exact unpack_pack_infinity .positive ▸ trivial
    · rename_i hfinite
      split
      · refine unsigned_packComponents _ ?_
        refine ofNat_ne_of_ne_toNat ?_ ?_
        · change ¬ 2048 ≤ _ at hfinite
          omega
        · change ¬ 2048 ≤ _ at hfinite
          change _ ≠ 2047
          omega
      · exact unsigned_packComponents _ (by decide)

/-- A number below `2 ^ 52` units is packed as its mantissa alone. -/
lemma unpack_pack_subnormal {m : Nat} (pos : 0 < m) (small : m < 2 ^ 52) :
    unpack Format.binary64 (pack Format.binary64 (.finite .positive m (-1074) pos)) =
      .finite .positive m (-1074) pos := by
  have hlog : m.log2 + 1 ≠ Format.binary64.mantissaBits := by
    have := (Nat.log2_lt pos.ne').mpr small
    change m.log2 + 1 ≠ 53
    omega
  have hfraction : (BitVec.ofNat 52 m).toNat = m := Nat.mod_eq_of_lt small
  have hne : BitVec.ofNat 52 m ≠ 0#_ := by
    intro h
    rw [h] at hfraction
    exact pos.ne hfraction
  have hpack : pack Format.binary64 (.finite .positive m (-1074) pos) =
      packComponents Format.binary64 .positive 0#_ (BitVec.ofNat 52 m) := by
    simp only [UnpackedFloat.pack, hlog, if_false]
    rfl
  rw [hpack]
  simp only [UnpackedFloat.unpack, unpackMantissa_packComponents, unpackExponent_packComponents,
    unpackSign_packComponents, Sign.ofBitVec_toBitVec, hne]
  simp only [hfraction]
  rfl

lemma overflow_le {n s : Nat} (full : 2 ^ 52 ≤ n) (high : 2046 ≤ s) : overflow ≤ n * 2 ^ s := by
  have hsplit : overflow = 2 ^ 52 * 2 ^ 2046 := by
    rw [overflow_eq, ← Nat.pow_add]
  rw [hsplit]
  gcongr
  decide

lemma Fits.unpack_pack {m : Nat} {e : Int} (h : Fits m e) (high : e ≤ 971) (pos : 0 < m) :
    unpack Format.binary64 (pack Format.binary64 (.finite .positive m e pos)) =
      .finite .positive m e pos := by
  by_cases hfull : 2 ^ 52 ≤ m
  · exact unpack_pack_normal ⟨hfull, h.small⟩ h.low high pos
  · obtain rfl := h.full.resolve_left hfull
    exact unpack_pack_subnormal pos (by omega)

/-- What counts too many units becomes infinity. -/
lemma unitCount_pack {n : Nat} {u : UnpackedFloat} (h : Counts n u) :
    unitCount (unpack Format.binary64 (pack Format.binary64 u)) = min n overflow := by
  obtain ⟨m, e, pos, rfl, hfits, rfl⟩ := h
  by_cases high : e ≤ 971
  · rw [hfits.unpack_pack high pos, min_eq_left (hfits.lt_overflow high).le]
    rfl
  · have hpack : pack Format.binary64 (.finite .positive m e pos) =
        pack Format.binary64 (.infinity .positive) := by
      have hbiased : 2 ^ Format.binary64.exponentBits ≤ (e + (Format.binary64.exponentBias : Nat) +
          (Format.binary64.mantissaBitsWithoutImplicit : Nat)).toNat + 1 := by
        change 2048 ≤ (e + 1023 + 52).toNat + 1
        omega
      simp only [UnpackedFloat.pack, hbiased, if_true]
    have hlarge := overflow_le (hfits.full.resolve_right (by omega))
      (show 2046 ≤ (e + 1074).toNat by omega)
    rw [hpack, unpack_pack_infinity, min_eq_right hlarge]
    rfl

lemma roundUnits_zero : roundUnits 0 = 0 := by
  simp [roundUnits, roundDivEven_one]

lemma Fits.roundUnits_eq {m : Nat} {e : Int} (h : Fits m e) (pos : 0 < m) :
    roundUnits (m * 2 ^ (e + 1074).toNat) = m * 2 ^ (e + 1074).toNat := by
  have hlow := h.low
  have hlog := log2_le pos h.small
  have hshift : (m * 2 ^ (e + 1074).toNat).log2 - 52 = (e + 1074).toNat := by
    rw [log2_mul_two_pow pos]
    rcases h.full with hfull | rfl
    · have : m.log2 = 52 := (Nat.log2_eq_iff pos.ne').mpr ⟨hfull, h.small⟩
      omega
    · omega
  have hexact := roundDivEven_mul m 1 (Nat.two_pow_pos (e + 1074).toNat)
  rw [Nat.one_mul, roundDivEven_one] at hexact
  rw [roundUnits, hshift, hexact]

lemma overflow_le_roundUnits {n : Nat} (h : overflow ≤ n) : overflow ≤ roundUnits n := by
  have hfits : Fits (2 ^ 52) 972 := ⟨by decide, by decide, Or.inl le_rfl⟩
  have hsplit : overflow = 2 ^ 52 * 2 ^ (972 + 1074 : Int).toNat := by
    have hexponent : (972 + 1074 : Int).toNat = 2046 := rfl
    rw [overflow_eq, hexponent, ← Nat.pow_add]
  calc overflow = roundUnits overflow := by rw [hsplit, hfits.roundUnits_eq (by decide)]
    _ ≤ roundUnits n := roundUnits_mono h

lemma Canonical.counts {m : Nat} {e : Int} {pos : 0 < m}
    (h : Canonical (.finite .positive m e pos)) :
    Counts (roundUnits (unitCount (.finite .positive m e pos))) (.finite .positive m e pos) :=
  ⟨m, e, pos, rfl, h.1, (h.1.roundUnits_eq pos).symm⟩

lemma counts_add {m m' : Nat} {e e' : Int} {pos : 0 < m} {pos' : 0 < m'}
    (h : Fits m e) (h' : Fits m' e') :
    Counts (roundUnits (m * 2 ^ (e + 1074).toNat + m' * 2 ^ (e' + 1074).toNat))
      (UnpackedFloat.add Format.binary64 (.finite .positive m e pos)
        (.finite .positive m' e' pos')) := by
  have hlow := h.low
  have hlow' := h'.low
  obtain ⟨a, ha⟩ : ∃ a, (e - min e e').toNat = a := ⟨_, rfl⟩
  obtain ⟨b, hb⟩ : ∃ b, (e' - min e e').toNat = b := ⟨_, rfl⟩
  have hpos : 0 < m * 2 ^ a + m' * 2 ^ b := Nat.add_pos_left (Nat.mul_pos pos (Nat.two_pow_pos a)) _
  have hunits : (m * 2 ^ a + m' * 2 ^ b) * 2 ^ (min e e' + 1074).toNat =
      m * 2 ^ (e + 1074).toNat + m' * 2 ^ (e' + 1074).toNat := by
    rw [Nat.add_mul, Nat.mul_assoc, Nat.mul_assoc, ← Nat.pow_add, ← Nat.pow_add]
    congr <;> omega
  have hcounts := counts_round hpos (show -1074 ≤ min e e' by omega)
  rw [hunits, ← normalize_natCast hpos] at hcounts
  simpa only [UnpackedFloat.add, decreaseExponent, ha, hb, Nat.shiftLeft_eq, Sign.apply,
    Int.natCast_add] using hcounts

lemma unitCount_add {u v : UnpackedFloat} (hu : Canonical u) (hv : Canonical v)
    (su : Unsigned u) (sv : Unsigned v) :
    unitCount (unpack Format.binary64 (pack Format.binary64 (.add Format.binary64 u v))) =
      min (roundUnits (unitCount u + unitCount v)) overflow := by
  have hinfinite : ∀ {n}, overflow ≤ n →
      unitCount (unpack Format.binary64 (pack Format.binary64 (.infinity .positive))) =
        min (roundUnits n) overflow := by
    intro n h
    rw [unpack_pack_infinity, min_eq_right (overflow_le_roundUnits h)]
    rfl
  rcases u with (_ | _) | _ | s | ⟨(_ | _), m, e, pos⟩ <;> try exact su.elim
  all_goals rcases v with (_ | _) | _ | s' | ⟨(_ | _), m', e', pos'⟩ <;> try exact sv.elim
  · exact hinfinite (Nat.le_add_right _ _)
  · exact hinfinite (Nat.le_add_right _ _)
  · exact hinfinite (Nat.le_add_right _ _)
  · exact hinfinite (Nat.le_add_left _ _)
  · have hzero : ∃ sign, UnpackedFloat.add Format.binary64 (.zero s) (.zero s') = .zero sign := by
      cases s <;> cases s' <;> exact ⟨_, rfl⟩
    obtain ⟨sign, hzero⟩ := hzero
    rw [hzero, unpack_pack_zero]
    simp only [unitCount, Nat.add_zero, roundUnits_zero, Nat.zero_min]
  · have h := unitCount_pack hv.counts
    rwa [← Nat.zero_add (unitCount (.finite .positive m' e' pos'))] at h
  · exact hinfinite (Nat.le_add_left _ _)
  · exact unitCount_pack hu.counts
  · exact unitCount_pack (counts_add hu.1 hv.1)

lemma Canonical.rounded {u : UnpackedFloat} (h : Canonical u) (su : Unsigned u) :
    min (roundUnits (unitCount u)) overflow = unitCount u := by
  rcases u with (_ | _) | _ | _ | ⟨(_ | _), m, e, pos⟩ <;> try exact su.elim
  · exact min_eq_right (overflow_le_roundUnits le_rfl)
  · rw [unitCount, roundUnits_zero, Nat.zero_min]
  · rw [unitCount, h.1.roundUnits_eq pos]
    exact min_eq_left (h.1.lt_overflow h.2).le

lemma unsigned_roundWithAccuracy (m : Nat) (e : Int) (a : Accuracy) :
    Unsigned (roundWithAccuracy Format.binary64 .positive m e a) := by
  simp only [roundWithAccuracy]
  split <;> trivial

lemma unsigned_round (m : Nat) (e : Int) :
    Unsigned (UnpackedFloat.round Format.binary64 .positive m e) :=
  unsigned_roundWithAccuracy _ _ _

lemma unsigned_normalize (n : Nat) (e : Int) :
    Unsigned (UnpackedFloat.normalize Format.binary64 n e .positive) := by
  rcases Nat.eq_zero_or_pos n with rfl | pos
  · trivial
  · rw [normalize_natCast pos]
    exact unsigned_round n e

lemma unsigned_add {u v : UnpackedFloat} (su : Unsigned u) (sv : Unsigned v) :
    Unsigned (UnpackedFloat.add Format.binary64 u v) := by
  rcases u with (_ | _) | _ | (_ | _) | ⟨(_ | _), m, e, pos⟩ <;> try exact su.elim
  all_goals rcases v with (_ | _) | _ | (_ | _) | ⟨(_ | _), m', e', pos'⟩ <;> try exact sv.elim
  all_goals first | trivial | exact unsigned_normalize (_ + _) _

lemma unsigned_sqrt {u : UnpackedFloat} (su : Unsigned u) :
    Unsigned (UnpackedFloat.sqrt Format.binary64 u) := by
  rcases u with (_ | _) | _ | _ | ⟨(_ | _), m, e, pos⟩ <;> try exact su.elim
  · trivial
  · trivial
  · exact unsigned_roundWithAccuracy _ _ _

lemma unsigned_mul {u : UnpackedFloat} (su : Unsigned u) (m : Nat) (e : Int) (pos : 0 < m) :
    Unsigned (UnpackedFloat.mul Format.binary64 u (.finite .positive m e pos)) := by
  rcases u with (_ | _) | _ | (_ | _) | ⟨(_ | _), m', e', pos'⟩ <;> try exact su.elim
  all_goals first | trivial | exact unsigned_roundWithAccuracy _ _ _

variable {x y z : Float}

lemma nonneg_zero : (0.0 : Float) ≤ 0.0 :=
  nonneg_iff.mpr trivial

lemma nonneg_add (hx : 0.0 ≤ x) (hy : 0.0 ≤ y) : 0.0 ≤ x + y :=
  nonneg_iff.mpr (unsigned_pack (unsigned_add (nonneg_iff.mp hx) (nonneg_iff.mp hy)))

lemma units_add (hx : 0.0 ≤ x) (hy : 0.0 ≤ y) :
    units (x + y) = min (roundUnits (units x + units y)) overflow :=
  unitCount_add (canonical_unpack x) (canonical_unpack y) (nonneg_iff.mp hx) (nonneg_iff.mp hy)

lemma add_mono_of_nonneg (hz : 0.0 ≤ z) (hx : 0.0 ≤ x) (hy : 0.0 ≤ y) (h : x ≤ y) :
    z + x ≤ z + y := by
  rw [le_iff_units (nonneg_add hz hx) (nonneg_add hz hy), units_add hz hx, units_add hz hy]
  have hunits := (le_iff_units hx hy).mp h
  exact min_le_min_right _ (roundUnits_mono (Nat.add_le_add_left hunits _))

lemma nonneg_countToFloat (n : Nat) : 0.0 ≤ countToFloat n :=
  nonneg_iff.mpr (unsigned_pack (unsigned_normalize _ _))

lemma units_zero_add (hx : 0.0 ≤ x) : units (countToFloat 0 + x) = units x := by
  have hzero : units (countToFloat 0) = 0 := by rfl
  rw [units_add (nonneg_countToFloat 0) hx, hzero, Nat.zero_add]
  exact (canonical_unpack x).rounded (nonneg_iff.mp hx)

lemma nonneg_toFloat (n : UInt32) : 0.0 ≤ n.toFloat :=
  nonneg_iff.mpr (unsigned_pack (unsigned_normalize _ _))

lemma nonneg_sqrt (hx : 0.0 ≤ x) : 0.0 ≤ x.sqrt :=
  nonneg_iff.mpr (unsigned_pack (unsigned_sqrt (nonneg_iff.mp hx)))

lemma nonneg_mul_scale (hx : 0.0 ≤ x) : 0.0 ≤ x * Similarity.scale := by
  have hscale : Similarity.scale.toModel.unpack =
      .finite .positive 5764607523034235 (-60) (by decide) := by rfl
  refine nonneg_iff.mpr (unsigned_pack ?_)
  rw [hscale]
  exact unsigned_mul (nonneg_iff.mp hx) _ _ _

lemma nonneg_distance (a b : Color) : 0.0 ≤ a.distance b :=
  nonneg_sqrt (nonneg_toFloat _)

lemma nonneg_emptySum : 0.0 ≤ Similarity.emptySum :=
  nonneg_iff.mpr trivial

lemma Raster.nonneg_similarity (r : Raster) (rect : Rect) (c : Color) :
    0.0 ≤ r.similarity rect c :=
  nonneg_mul_scale (rect.foldCells_induction (0.0 ≤ ·) _ _ nonneg_emptySum
    fun _ _ _ h => nonneg_add h (nonneg_distance _ _))

lemma Raster.nonneg_similarityTo (r other : Raster) (rect : Rect) :
    0.0 ≤ r.similarityTo other rect :=
  nonneg_mul_scale (rect.foldCells_induction (0.0 ≤ ·) _ _ nonneg_emptySum
    fun _ _ _ h => nonneg_add h (nonneg_distance _ _))

lemma nonneg_exactScore (cost : Nat) (hx : 0.0 ≤ x) : 0.0 ≤ exactScore cost x :=
  nonneg_add (nonneg_countToFloat cost) hx

end BlockPainting
