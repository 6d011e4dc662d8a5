import BlockPainting.Pricing
import BlockPainting.Proofs.Number.Sum

/-!
# Products and quotients of doubles

From one on, products and quotients of moderate doubles are the exact products and quotients in
units, rounded to 53 bits. So a quotient falls when its denominator grows, also after it is rounded
to an integer, and no operation costs more on a larger block.
-/

namespace BlockPainting

open Float.Model Float.Model.UnpackedFloat

variable {x y z : Float} {m m' n : Nat} {e e' : Int}

lemma roundUnits_two_pow {k : Nat} (large : 52 ≤ k) : roundUnits (2 ^ k) = 2 ^ k := by
  have hfits : Fits (2 ^ 52) (k - 52 - 1074) := ⟨by decide, by omega, Or.inl le_rfl⟩
  have hsplit : 2 ^ k = 2 ^ 52 * 2 ^ ((k - 52 - 1074 : Int) + 1074).toNat := by
    rw [← Nat.pow_add]
    congr 1
    omega
  rw [hsplit]
  exact hfits.roundUnits_eq (by decide)

@[irreducible]
def unitBits : Nat := 1074

lemma unitBits_eq : unitBits = 1074 := by
  with_unfolding_all rfl

lemma two_pow_lt_overflow {k : Nat} (small : k ≤ 128) : 2 ^ (unitBits + k) < overflow := by
  have hbits := unitBits_eq
  rw [overflow_eq]
  gcongr
  · decide
  · omega

/-- The double lies between `1` and `2 ^ k`. -/
structure Between (x : Float) (k : Nat) : Prop where
  nonneg : 0.0 ≤ x
  one_le : 2 ^ unitBits ≤ units x
  le : units x ≤ 2 ^ (unitBits + k)

lemma exponent_le_of_mul_le {a b k : Nat} (full : 2 ^ k ≤ m) (h : m * 2 ^ a ≤ 2 ^ b) :
    k + a ≤ b := by
  have hpow : 2 ^ (k + a) ≤ 2 ^ b := by
    rw [Nat.pow_add]
    exact (Nat.mul_le_mul_right _ full).trans h
  exact (Nat.pow_le_pow_iff_right Nat.one_lt_two).mp hpow

lemma lt_exponent_of_le_mul {a b k : Nat} (small : m < 2 ^ k) (h : 2 ^ b ≤ m * 2 ^ a) :
    b < k + a := by
  have hpow : 2 ^ b < 2 ^ (k + a) := by
    rw [Nat.pow_add]
    exact h.trans_lt (Nat.mul_lt_mul_of_pos_right small (Nat.two_pow_pos a))
  exact (Nat.pow_lt_pow_iff_right Nat.one_lt_two).mp hpow

lemma Between.exists_unpack {k : Nat} (h : Between x k) (small : k ≤ 128) :
    ∃ m e pos, x.toModel.unpack = .finite .positive m e pos ∧ (2 ^ 52 ≤ m ∧ m < 2 ^ 53) ∧
      -52 ≤ e ∧ e ≤ k - 52 := by
  have hbits := unitBits_eq
  have hunsigned := nonneg_iff.mp h.nonneg
  have hcanonical := canonical_unpack x
  have hone : 2 ^ unitBits ≤ unitCount x.toModel.unpack := h.one_le
  have hle : unitCount x.toModel.unpack ≤ 2 ^ (unitBits + k) := h.le
  generalize x.toModel.unpack = u at hunsigned hcanonical hone hle ⊢
  rcases u with (_ | _) | _ | s | ⟨(_ | _), m, e, pos⟩ <;> try exact hunsigned.elim
  · exact absurd hle (Nat.not_le_of_lt (two_pow_lt_overflow small))
  · exact absurd hone (Nat.not_le_of_lt (Nat.two_pow_pos unitBits))
  · obtain ⟨⟨hsmall, hlow, hfull⟩, _⟩ := hcanonical
    simp only [unitCount] at hone hle
    have hexponent := lt_exponent_of_le_mul hsmall hone
    have hfull : 2 ^ 52 ≤ m := hfull.resolve_right (by omega)
    have hexponent' := exponent_le_of_mul_le hfull hle
    exact ⟨m, e, pos, rfl, ⟨hfull, hsmall⟩, by omega, by omega⟩

lemma mod_le_maxLong (n : Nat) : n % 2 ^ 64 ≤ maxLong := by
  unfold maxLong
  omega

lemma countToFloat_mod (n : Nat) : countToFloat (n % 2 ^ 64) = countToFloat n := by
  have hbits : (n % 2 ^ 64).toUInt64 = n.toUInt64 := by
    rw [← UInt64.toNat_inj]
    exact Nat.mod_mod n (2 ^ 64)
  rw [countToFloat, countToFloat, hbits]

lemma units_of_counts {u : UnpackedFloat} (h : x.toModel = .pack u) (counts : Counts n u) :
    units x = min n overflow := by
  rw [units, h]
  exact unitCount_pack counts

lemma units_countToFloat (pos : 0 < n) (small : n ≤ maxLong) :
    units (countToFloat n) = min (roundUnits (n * 2 ^ unitBits)) overflow := by
  have hbits : n.toUInt64.toNat = n := Nat.mod_eq_of_lt (by unfold maxLong at small; omega)
  have hcounts := counts_round (e := 0) pos (by decide)
  have hexponent : (0 + 1074 : Int).toNat = unitBits := unitBits_eq.symm
  rw [hexponent, ← normalize_natCast pos] at hcounts
  refine units_of_counts ?_ hcounts
  change Float.Model.pack
    (UnpackedFloat.normalize Format.binary64 (n.toUInt64.toNat : Int) 0 .positive) = _
  rw [hbits]

lemma between_of_units {k : Nat} (nonneg : 0.0 ≤ x) (small : k ≤ 128)
    (h : units x = min (roundUnits n) overflow) (one_le : 2 ^ unitBits ≤ n)
    (le : n ≤ 2 ^ (unitBits + k)) : Between x k := by
  have hbits := unitBits_eq
  have hlow := roundUnits_mono one_le
  have hhigh := roundUnits_mono le
  rw [roundUnits_two_pow (by omega)] at hlow hhigh
  have hoverflow := two_pow_lt_overflow small
  rw [min_eq_left (hhigh.trans hoverflow.le)] at h
  exact ⟨nonneg, h ▸ hlow, h ▸ hhigh⟩

lemma between_countToFloat (pos : 0 < n) (small : n ≤ maxLong) : Between (countToFloat n) 64 := by
  refine between_of_units (nonneg_countToFloat n) (by decide) (units_countToFloat pos small) ?_ ?_
  · exact Nat.le_mul_of_pos_left _ pos
  · rw [Nat.add_comm, Nat.pow_add]
    exact Nat.mul_le_mul_right _ (by unfold maxLong at small; omega)

lemma units_countToFloat_zero : units (countToFloat 0) = 0 := by rfl

lemma countToFloat_mono (le : m ≤ n) (small : n ≤ maxLong) : countToFloat m ≤ countToFloat n := by
  rw [le_iff_units (nonneg_countToFloat m) (nonneg_countToFloat n)]
  rcases Nat.eq_zero_or_pos m with rfl | pos
  · rw [units_countToFloat_zero]
    exact Nat.zero_le _
  · rw [units_countToFloat pos (le.trans small), units_countToFloat (by omega) small]
    exact min_le_min_right _ (roundUnits_mono (Nat.mul_le_mul_right _ le))

/-- A double that is less than a count as a double is less than the count itself. -/
lemma units_lt_of_lt_countToFloat (hx : 0.0 ≤ x) (h : x < countToFloat n) :
    units x < n * 2 ^ unitBits := by
  rw [← countToFloat_mod] at h
  rw [lt_iff_units hx (nonneg_countToFloat _)] at h
  have hmod : n % 2 ^ 64 ≤ n := Nat.mod_le n _
  refine lt_of_lt_of_le ?_ (Nat.mul_le_mul_right _ hmod)
  rcases Nat.eq_zero_or_pos (n % 2 ^ 64) with hzero | pos
  · rw [hzero, units_countToFloat_zero] at h
    exact absurd h (Nat.not_lt_zero _)
  · by_contra hle
    -- Rounding keeps the order and does not change what is a double already.
    have hmono := min_le_min_right overflow (roundUnits_mono (Nat.le_of_not_lt hle))
    have hrounded : min (roundUnits (units x)) overflow = units x :=
      (canonical_unpack x).rounded (nonneg_iff.mp hx)
    rw [units_countToFloat pos (mod_le_maxLong n)] at h
    exact absurd (h.trans_le (hmono.trans_eq hrounded)) (lt_irrefl (units x))

lemma two_pow_mul {a b c : Nat} (h : a + b = c) (m : Nat) : m * 2 ^ a * 2 ^ b = m * 2 ^ c := by
  rw [Nat.mul_assoc, ← Nat.pow_add, h]

lemma Between.mul {k k' : Nat} (hx : Between x k) (hy : Between y k') (small : k + k' ≤ 128) :
    Between (x * y) (k + k') := by
  have hbits := unitBits_eq
  have hunits : units x = unitCount x.toModel.unpack := rfl
  have hunits' : units y = unitCount y.toModel.unpack := rfl
  obtain ⟨m, e, pos, hunpack, ⟨hfull, _⟩, hlow, _⟩ := hx.exists_unpack (by omega)
  obtain ⟨m', e', pos', hunpack', ⟨hfull', _⟩, hlow', _⟩ := hy.exists_unpack (by omega)
  have hmodel : (x * y).toModel = .pack (roundWithAccuracy Format.binary64 .positive (m * m')
      (e + e') .exact) := by
    change Float.Model.pack
      (UnpackedFloat.mul Format.binary64 x.toModel.unpack y.toModel.unpack) = _
    rw [hunpack, hunpack']
    rfl
  have hlog : 52 ≤ (m * m').log2 :=
    (Nat.le_log2 (Nat.mul_pos pos pos').ne').mpr
      (hfull.trans (Nat.le_mul_of_pos_right m pos'))
  have hcounts := counts_roundWithAccuracy (Nat.mul_pos pos pos')
    (show -1074 ≤ e + e' by omega) (by omega)
  -- Counted in units, the exact product is that of the factors, so their bounds give its own.
  have hproduct : m * m' * 2 ^ (e + e' + 1074).toNat * 2 ^ unitBits = units x * units y := by
    rw [hunits, hunits', hunpack, hunpack', two_pow_mul rfl]
    simp only [unitCount]
    rw [Nat.mul_mul_mul_comm, ← Nat.pow_add]
    congr 2
    omega
  have hnonneg : 0.0 ≤ x * y := by
    refine nonneg_iff.mpr ?_
    rw [hmodel]
    exact unsigned_pack (unsigned_roundWithAccuracy _ _ _)
  refine between_of_units hnonneg small (units_of_counts hmodel hcounts) ?_ ?_
  · refine Nat.le_of_mul_le_mul_right ?_ (Nat.two_pow_pos unitBits)
    rw [hproduct]
    exact Nat.mul_le_mul hx.one_le hy.one_le
  · refine Nat.le_of_mul_le_mul_right ?_ (Nat.two_pow_pos unitBits)
    rw [hproduct, ← Nat.pow_add]
    refine (Nat.mul_le_mul hx.le hy.le).trans_eq ?_
    rw [← Nat.pow_add]
    congr 1
    omega

/-- A quotient of moderate mantissas is computed with enough bits. -/
lemma counts_div (pos : 0 < m) (pos' : 0 < m') (hm : 2 ^ 52 ≤ m) (hm' : m' < 2 ^ 53)
    (low : -900 ≤ e - e') :
    Counts (roundFraction (m * 2 ^ (e - e' + 1074).toNat) m')
      (UnpackedFloat.div Format.binary64 (.finite .positive m e pos)
        (.finite .positive m' e' pos')) := by
  have hlog : 52 ≤ m.log2 := (Nat.le_log2 pos.ne').mpr hm
  have hlog' := log2_le pos' hm'
  have htarget : Format.binary64.targetExponent (totalExponent m e - totalExponent m' e') =
      max (m.log2 + e - m'.log2 - e' - 53) (-1074) := by
    simp only [Format.targetExponent, totalExponent, Format.mantissaBits, Format.minExponent]
    omega
  -- The mantissa is shifted by `a` places, enough for the quotient to fill the format.
  obtain ⟨a, ha⟩ : ∃ a : Nat,
      min (e - e') (max (m.log2 + e - m'.log2 - e' - 53) (-1074)) = e - e' - a :=
    ⟨(e - e' - min (e - e') (max (m.log2 + e - m'.log2 - e' - 53) (-1074))).toNat, by omega⟩
  have hshift : (e - e' - (e - e' - a)).toNat = a := by omega
  have hlarge : 2 ^ 52 ≤ m * 2 ^ a / m' := by
    rw [Nat.le_div_iff_mul_le pos']
    calc 2 ^ 52 * m' ≤ 2 ^ 52 * 2 ^ (m'.log2 + 1) := Nat.mul_le_mul_left _ Nat.lt_log2_self.le
      _ = 2 ^ (52 + (m'.log2 + 1)) := (Nat.pow_add _ _ _).symm
      _ ≤ 2 ^ (m.log2 + a) := Nat.pow_le_pow_right Nat.two_pos (by omega)
      _ = 2 ^ m.log2 * 2 ^ a := Nat.pow_add _ _ _
      _ ≤ m * 2 ^ a := Nat.mul_le_mul_right _ (Nat.log2_self_le pos.ne')
  have hquotient : 52 ≤ (m * 2 ^ a / m').log2 := (Nat.le_log2 (by omega)).mpr hlarge
  have hcounts := counts_roundWithAccuracy_rest (show 0 < m * 2 ^ a / m' by omega)
    (Nat.mod_lt (m * 2 ^ a) pos') (show -1074 ≤ e - e' - a by omega) (by omega)
  rw [Nat.div_add_mod', two_pow_mul (c := (e - e' + 1074).toNat) (by omega)] at hcounts
  have hdiv : UnpackedFloat.div Format.binary64 (.finite .positive m e pos)
      (.finite .positive m' e' pos') =
        roundWithAccuracy Format.binary64 .positive (m * 2 ^ a / m') (e - e' - a)
          (restAccuracy (m * 2 ^ a % m') m') := by
    simp only [UnpackedFloat.div, divCore, htarget, ha, hshift, Nat.shiftLeft_eq]
    rfl
  rw [hdiv]
  exact hcounts

/-- The quotient of moderate doubles, in units, is the exact one rounded. -/
lemma Between.exists_div {k k' : Nat} (hx : Between x k) (hy : Between y k') (small : k ≤ 128)
    (small' : k' ≤ 128) :
    ∃ m e pos, (x / y).toModel.unpack = .finite .positive m e pos ∧ -1074 ≤ e ∧
      m * 2 ^ (e + 1074).toNat = roundFraction (units x * 2 ^ unitBits) (units y) := by
  have hbits := unitBits_eq
  have hunits : units x = unitCount x.toModel.unpack := rfl
  have hunits' : units y = unitCount y.toModel.unpack := rfl
  -- The quotient is at most `2 ^ k`, so its exponent does not overflow.
  have hle : roundFraction (units x * 2 ^ unitBits) (units y) ≤ 2 ^ (unitBits + k) := by
    rw [← roundUnits_two_pow (show 52 ≤ unitBits + k by omega), ← roundFraction_one]
    refine roundFraction_mono ((Nat.two_pow_pos _).trans_le hy.one_le) Nat.one_pos ?_
    rw [Nat.mul_one]
    exact Nat.mul_le_mul hx.le hy.one_le
  obtain ⟨m, e, pos, hunpack, ⟨hfull, _⟩, hlow, _⟩ := hx.exists_unpack small
  obtain ⟨m', e', pos', hunpack', ⟨_, hsmall'⟩, hlow', hhigh'⟩ := hy.exists_unpack small'
  have hfraction : roundFraction (units x * 2 ^ unitBits) (units y) =
      roundFraction (m * 2 ^ (e - e' + 1074).toNat) m' := by
    rw [hunits, hunits', hunpack, hunpack']
    simp only [unitCount]
    rw [← roundFraction_mul (m * 2 ^ (e - e' + 1074).toNat) m' (Nat.two_pow_pos (e' + 1074).toNat),
      two_pow_mul rfl, two_pow_mul rfl]
    congr 3
    omega
  rw [hfraction] at hle ⊢
  obtain ⟨q, f, posq, hdiv, hfits, hcount⟩ :=
    counts_div pos pos' hfull hsmall' (show -900 ≤ e - e' by omega)
  rw [← hcount] at hle ⊢
  have high : f ≤ 971 := by
    by_contra hcontra
    have hfull := hfits.full.resolve_right (by omega)
    have hexponent := exponent_le_of_mul_le hfull hle
    omega
  refine ⟨q, f, posq, ?_, hfits.low, rfl⟩
  change (Float.Model.pack
    (UnpackedFloat.div Format.binary64 x.toModel.unpack y.toModel.unpack)).unpack = _
  rw [hunpack, hunpack', hdiv]
  exact hfits.unpack_pack high posq

lemma roundClamped_of_unpack {pos : 0 < m} (h : x.toModel.unpack = .finite .positive m e pos)
    (low : -1074 ≤ e) (limit : Nat) :
    roundClamped limit x =
      min ((2 * (m * 2 ^ (e + 1074).toNat) + 2 ^ unitBits) / (2 * 2 ^ unitBits)) limit := by
  have hbits := unitBits_eq
  have hsign : ((Sign.positive : Sign) == .negative) = false := rfl
  have hround : ExactDouble.roundHalfUp ⟨false, m, e⟩ =
      (2 * (m * 2 ^ (e + 1074).toNat) + 2 ^ unitBits) / (2 * 2 ^ unitBits) := by
    rw [ExactDouble.roundHalfUp, if_neg pos.ne']
    rcases Int.eq_nat_or_neg e with ⟨k, rfl | rfl⟩
    · have hexponent : ((k : Int) + 1074).toNat = k + unitBits := by omega
      have hratio : ExactDouble.ratio ⟨false, m, k⟩ = (m * 2 ^ k, 1) := rfl
      have hnumerator : 2 * (m * 2 ^ (k + unitBits)) + 2 ^ unitBits =
          (2 * (m * 2 ^ k) + 1) * 2 ^ unitBits := by
        rw [Nat.pow_add]
        ring
      simp only [hratio]
      rw [hexponent, hnumerator, Nat.mul_div_mul_right _ _ (Nat.two_pow_pos unitBits), Nat.mul_one]
    · have hexponent : (-(k : Int) + 1074).toNat = unitBits - k := by omega
      have hsplit : 2 ^ unitBits = 2 ^ k * 2 ^ (unitBits - k) := by
        rw [← Nat.pow_add]
        congr 1
        omega
      have hnumerator : 2 * (m * 2 ^ (unitBits - k)) + 2 ^ k * 2 ^ (unitBits - k) =
          (2 * m + 2 ^ k) * 2 ^ (unitBits - k) := by ring
      simp only [ratio_neg]
      rw [hexponent, hsplit, hnumerator, ← Nat.mul_assoc,
        Nat.mul_div_mul_right _ _ (Nat.two_pow_pos (unitBits - k))]
  simp only [roundClamped, ofFloat_of_unpack h, hsign, hround, Bool.false_eq_true, if_false]

lemma roundClamped_div_antitone {k : Nat} (hx : Between x k) (hy : Between y 64)
    (hz : Between z 64) (small : k ≤ 128) (le : units y ≤ units z) (limit : Nat) :
    roundClamped limit (x / z) ≤ roundClamped limit (x / y) := by
  obtain ⟨m, e, pos, hunpack, hlow, hcount⟩ := hx.exists_div hy small (by decide)
  obtain ⟨m', e', pos', hunpack', hlow', hcount'⟩ := hx.exists_div hz small (by decide)
  rw [roundClamped_of_unpack hunpack hlow, roundClamped_of_unpack hunpack' hlow', hcount, hcount']
  have hfraction : roundFraction (units x * 2 ^ unitBits) (units z) ≤
      roundFraction (units x * 2 ^ unitBits) (units y) :=
    roundFraction_mono ((Nat.two_pow_pos _).trans_le hz.one_le)
      ((Nat.two_pow_pos _).trans_le hy.one_le) (Nat.mul_le_mul_left _ le)
  refine min_le_min_right _ (Nat.div_le_div_right ?_)
  exact Nat.add_le_add_right (Nat.mul_le_mul_left 2 hfraction) _

lemma roundClamped_zero (h : x.toModel = .pack (.zero .positive)) (limit : Nat) :
    roundClamped limit x = 0 := by
  obtain ⟨model⟩ := x
  obtain rfl := h
  have hvalue : DoubleValue.ofFloat ⟨.pack (.zero .positive)⟩ = .finite ⟨false, 0, -1074⟩ := by rfl
  simp only [roundClamped, hvalue, Bool.false_eq_true, if_false]
  exact Nat.zero_min limit

lemma mul_countToFloat (m n : Nat) :
    (countToFloat m * countToFloat n).toModel.unpack = .zero .positive ∨
      Between (countToFloat m * countToFloat n) 128 := by
  rw [← countToFloat_mod m, ← countToFloat_mod n]
  have hzero : (countToFloat 0).toModel.unpack = .zero .positive := by rfl
  have hbetween : ∀ k, 0 < k % 2 ^ 64 → Between (countToFloat (k % 2 ^ 64)) 64 :=
    fun k pos => between_countToFloat pos (mod_le_maxLong k)
  have hproduct : ∀ u, u = UnpackedFloat.zero .positive →
      unpack Format.binary64 (pack Format.binary64 u) = .zero .positive := by
    rintro _ rfl
    exact unpack_pack_zero .positive
  rcases Nat.eq_zero_or_pos (m % 2 ^ 64) with hm | hm
  · left
    refine hproduct (UnpackedFloat.mul Format.binary64 _ _) ?_
    rw [hm, hzero]
    rcases Nat.eq_zero_or_pos (n % 2 ^ 64) with hn | hn
    · rw [hn, hzero]
      rfl
    · obtain ⟨k, e, pos, hunpack, _⟩ := (hbetween n hn).exists_unpack (by decide)
      rw [hunpack]
      rfl
  · rcases Nat.eq_zero_or_pos (n % 2 ^ 64) with hn | hn
    · left
      obtain ⟨k, e, pos, hunpack, _⟩ := (hbetween m hm).exists_unpack (by decide)
      refine hproduct (UnpackedFloat.mul Format.binary64 _ _) ?_
      rw [hn, hzero, hunpack]
      rfl
    · exact Or.inr ((hbetween m hm).mul (hbetween n hn) (by decide))

theorem Pricing.cost_antitone (p : Pricing) (op : Operation) (pos : 0 < m) (le : m ≤ n)
    (small : n ≤ maxLong) : p.cost op n ≤ p.cost op m := by
  have hm := between_countToFloat pos (le.trans small)
  have hn := between_countToFloat (pos.trans_le le) small
  unfold Pricing.cost
  rcases mul_countToFloat (p.weights.weight op) p.rasterArea with hzero | hbetween
  · refine (roundClamped_zero ?_ _).trans_le (Nat.zero_le _)
    obtain ⟨k, e, pos, hunpack, _⟩ := hn.exists_unpack (by decide)
    change Float.Model.pack (UnpackedFloat.div Format.binary64 _ _) = _
    rw [hzero, hunpack]
    rfl
  · refine roundClamped_div_antitone hbetween hm hn (by decide) ?_ _
    exact (le_iff_units hm.nonneg hn.nonneg).mp (countToFloat_mono le small)

end BlockPainting
