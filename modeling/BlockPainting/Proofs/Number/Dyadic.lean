import BlockPainting.Number.ExactDouble
import Mathlib

/-!
# Doubles that are exact

A positive double with a mantissa of at most 53 bits and a moderate exponent is its mantissa times a
power of two, and sums and products of such doubles are rounded nowhere as long as their mantissas
stay that small. So a coordinate computed in doubles is the natural number it should be.
-/

namespace BlockPainting

open Float.Model Float.Model.UnpackedFloat

def fullMantissa (m : Nat) : Nat :=
  m * 2 ^ (52 - m.log2)

lemma log2_le {m : Nat} (pos : 0 < m) (small : m < 2 ^ 53) : m.log2 ≤ 52 :=
  Nat.le_of_lt_succ ((Nat.log2_lt pos.ne').mpr small)

lemma fullMantissa_bounds {m : Nat} (pos : 0 < m) (small : m < 2 ^ 53) :
    2 ^ 52 ≤ fullMantissa m ∧ fullMantissa m < 2 ^ 53 := by
  have hlog := log2_le pos small
  constructor
  · calc 2 ^ 52 = 2 ^ m.log2 * 2 ^ (52 - m.log2) := by rw [← Nat.pow_add]; congr 1; omega
      _ ≤ m * 2 ^ (52 - m.log2) := Nat.mul_le_mul_right _ (Nat.log2_self_le pos.ne')
  · calc m * 2 ^ (52 - m.log2) < 2 ^ (m.log2 + 1) * 2 ^ (52 - m.log2) :=
        Nat.mul_lt_mul_of_pos_right Nat.lt_log2_self (Nat.two_pow_pos _)
      _ = 2 ^ 53 := by rw [← Nat.pow_add]; congr 1; omega

lemma log2_mul_two_pow {m : Nat} (pos : 0 < m) (t : Nat) : (m * 2 ^ t).log2 = m.log2 + t := by
  refine (Nat.log2_eq_iff (Nat.mul_pos pos (Nat.two_pow_pos t)).ne').mpr ⟨?_, ?_⟩
  · rw [Nat.pow_add]
    exact Nat.mul_le_mul_right _ (Nat.log2_self_le pos.ne')
  · rw [Nat.add_right_comm, Nat.pow_add]
    exact Nat.mul_lt_mul_of_pos_right Nat.lt_log2_self (Nat.two_pow_pos t)

lemma repeat_shiftRightOne (k t : Nat) :
    Nat.repeat ExtendedMantissa.shiftRightOne t ⟨k * 2 ^ t, false, false⟩ = ⟨k, false, false⟩ := by
  induction t generalizing k with
  | zero => simp [Nat.repeat]
  | succ t ih =>
    have hdouble : k * 2 ^ (t + 1) = k * 2 * 2 ^ t := by
      rw [Nat.pow_succ]
      ring
    rw [hdouble, Nat.repeat, ih]
    simp [ExtendedMantissa.shiftRightOne]

lemma shiftToTargetExponent_exact {k : Nat} (t : Nat) {e : Int} (hk : 2 ^ 52 ≤ k ∧ k < 2 ^ 53)
    (he : -1074 ≤ e + t) :
    shiftToTargetExponent Format.binary64 (k * 2 ^ t) e .exact = (⟨k, false, false⟩, e + t) := by
  have hpos : 0 < k := by omega
  have hlog : k.log2 = 52 := (Nat.log2_eq_iff hpos.ne').mpr hk
  have htarget : Format.binary64.targetExponent (totalExponent (k * 2 ^ t) e) = e + t := by
    simp only [Format.targetExponent, totalExponent, Format.mantissaBits, Format.minExponent,
      log2_mul_two_pow hpos, hlog]
    omega
  have hamount : (e + t - e).toNat = t := by omega
  have hshift := repeat_shiftRightOne k t
  simp only [shiftToTargetExponent, htarget, shiftToExponent, hamount]
  exact Prod.ext hshift rfl

lemma roundWithAccuracy_exact (sign : Sign) {k : Nat} (t : Nat) {e : Int}
    (hk : 2 ^ 52 ≤ k ∧ k < 2 ^ 53) (he : -1074 ≤ e + t) :
    roundWithAccuracy Format.binary64 sign (k * 2 ^ t) e .exact =
      .finite sign k (e + t) (by omega) := by
  have hpos : k ≠ 0 := by omega
  have hagain : shiftToTargetExponent Format.binary64 k (e + t) .exact =
      (⟨k, false, false⟩, e + t) := by
    simpa using shiftToTargetExponent_exact 0 hk (e := e + t) (by omega)
  simp only [roundWithAccuracy, shiftToTargetExponent_exact t hk he,
    ExtendedMantissa.roundedMantissa, ExtendedMantissa.accuracy, Accuracy.roundToNearestEven,
    hagain, hpos, dif_neg, not_false_eq_true]

/-- A value of at most 53 bits gets its full mantissa and is not rounded, whatever zeros are
appended to it. -/
lemma round_scaled (sign : Sign) {m : Nat} {e : Int} (pos : 0 < m) (small : m < 2 ^ 53)
    (he : -1022 ≤ e) (c : Nat) :
    UnpackedFloat.round Format.binary64 sign (m * 2 ^ c) (e - c) =
      .finite sign (fullMantissa m) (e - (52 - m.log2 : Nat))
        (Nat.lt_of_lt_of_le (Nat.two_pow_pos 52) (fullMantissa_bounds pos small).1) := by
  have hlog := log2_le pos small
  have htarget : Format.binary64.targetExponent (totalExponent (m * 2 ^ c) (e - c)) =
      e - (52 - m.log2 : Nat) := by
    simp only [Format.targetExponent, totalExponent, Format.mantissaBits, Format.minExponent,
      log2_mul_two_pow pos]
    omega
  have hamount : (e - c - (e - (52 - m.log2 : Nat))).toNat = 52 - m.log2 - c := by omega
  -- Either the mantissa is shifted left or zeros are shifted out.
  have hmantissa : m * 2 ^ c * 2 ^ (52 - m.log2 - c) =
      fullMantissa m * 2 ^ (c - (52 - m.log2)) := by
    rw [fullMantissa, Nat.mul_assoc, Nat.mul_assoc, ← Nat.pow_add, ← Nat.pow_add]
    congr 2
    omega
  have hround := roundWithAccuracy_exact sign (c - (52 - m.log2))
    (fullMantissa_bounds pos small) (show -1074 ≤ e - c - (52 - m.log2 - c : Nat) +
      (c - (52 - m.log2) : Nat) by omega)
  simp only [UnpackedFloat.round, htarget, decreaseExponent, hamount, Nat.shiftLeft_eq, hmantissa,
    hround]
  congr 1
  omega

lemma toNat_leadingBit (fraction : BitVec 52) :
    (1#1 ++ fraction).toNat = leadingBit + fraction.toNat := by
  rw [BitVec.toNat_append, Nat.shiftLeft_eq, Nat.mul_comm,
    ← Nat.two_pow_add_eq_or_of_lt fraction.isLt]
  rfl

section Normal

variable {sign : Sign} {k biased : Nat} {e : Int}

lemma pack_normal (hk : 2 ^ 52 ≤ k ∧ k < 2 ^ 53) (hbiased : (biased : Int) = e + 1075)
    (high : e ≤ 971) (pos : 0 < k) :
    pack Format.binary64 (.finite sign k e pos) =
      packComponents Format.binary64 sign (BitVec.ofNat 11 biased) (BitVec.ofNat 52 k) := by
  have hlog : k.log2 = 52 := (Nat.log2_eq_iff pos.ne').mpr hk
  have hexponent : (e + (Format.binary64.exponentBias : Nat) +
      (Format.binary64.mantissaBitsWithoutImplicit : Nat)).toNat = biased := by
    change (e + 1023 + 52).toNat = biased
    omega
  have hfinite : ¬ 2 ^ Format.binary64.exponentBits ≤ biased + 1 := by
    change ¬ 2048 ≤ biased + 1
    omega
  have hnormal : k.log2 + 1 = Format.binary64.mantissaBits := by rw [hlog]; rfl
  simp only [UnpackedFloat.pack, hexponent, hfinite, hnormal, if_true, if_false]

lemma ofNat_ne_of_ne_toNat {c : BitVec 11} (small : biased < 2 ^ 11) (hne : biased ≠ c.toNat) :
    BitVec.ofNat 11 biased ≠ c := by
  rintro rfl
  exact hne (Nat.mod_eq_of_lt small).symm

lemma unpack_pack_normal (hk : 2 ^ 52 ≤ k ∧ k < 2 ^ 53) (low : -1074 ≤ e) (high : e ≤ 971)
    (pos : 0 < k) :
    unpack Format.binary64 (pack Format.binary64 (.finite sign k e pos)) =
      .finite sign k e pos := by
  obtain ⟨biased, hbiased⟩ : ∃ biased : Nat, (biased : Int) = e + 1075 :=
    ⟨(e + 1075).toNat, by omega⟩
  have hbound : 0 < biased ∧ biased < 2047 := by omega
  have hexponent : (BitVec.ofNat 11 biased).toNat = biased := Nat.mod_eq_of_lt (by omega)
  have hones : BitVec.ofNat 11 biased ≠ -1#_ := ofNat_ne_of_ne_toNat (by omega) hbound.2.ne
  have hzero : BitVec.ofNat 11 biased ≠ 0#_ := ofNat_ne_of_ne_toNat (by omega) hbound.1.ne'
  have hfraction : (1#1 ++ BitVec.ofNat 52 k).toNat = k := by
    rw [toNat_leadingBit, BitVec.toNat_ofNat, leadingBit]
    omega
  rw [pack_normal hk hbiased high]
  simp only [UnpackedFloat.unpack, unpackMantissa_packComponents, unpackExponent_packComponents,
    unpackSign_packComponents, Sign.ofBitVec_toBitVec, hones, hzero, if_false, hfraction, hexponent]
  congr 1
  change (biased : Int) - (1023 + 52) = e
  omega

end Normal

variable {bits : UInt64}

lemma toNat_unpackMantissa :
    (@unpackMantissa Format.binary64 bits.toBitVec).toNat = bits.toNat % 2 ^ 52 := by
  change bits.toNat >>> 0 % 2 ^ 52 = _
  rw [Nat.shiftRight_zero]

lemma toNat_unpackExponent :
    (@unpackExponent Format.binary64 bits.toBitVec).toNat = bits.toNat / 2 ^ 52 % 2 ^ 11 := by
  change bits.toNat >>> 52 % 2 ^ 11 = _
  rw [Nat.shiftRight_eq_div_pow]

lemma toNat_unpackSign :
    (@unpackSign Format.binary64 bits.toBitVec).toNat = bits.toNat / 2 ^ 63 := by
  change bits.toNat >>> 63 % 2 ^ 1 = _
  rw [Nat.shiftRight_eq_div_pow]
  have hlt := bits.toNat_lt
  omega

lemma ofBitVec_beq_negative : ∀ bit : BitVec 1,
    (Sign.ofBitVec bit == .negative) = decide (bit.toNat = 1) := by
  decide

lemma unpackSign_eq_negative :
    (bits >>> 63 == 1) =
      (Sign.ofBitVec (@unpackSign Format.binary64 bits.toBitVec) == .negative) := by
  have hshift : (bits >>> 63).toNat = bits.toNat / 2 ^ 63 := by
    rw [UInt64.toNat_shiftRight]
    exact Nat.shiftRight_eq_div_pow _ _
  rw [ofBitVec_beq_negative, toNat_unpackSign, ← hshift, Bool.eq_iff_iff, beq_iff_eq,
    decide_eq_true_iff, ← UInt64.toNat_inj]
  rfl

lemma toNat_fractionBits : (bits &&& 0xfffffffffffff).toNat = bits.toNat % 2 ^ 52 := by
  rw [UInt64.toNat_and]
  exact Nat.and_two_pow_sub_one_eq_mod _ 52

lemma toNat_exponentBits :
    ((bits >>> 52) &&& 0x7ff).toNat = bits.toNat / 2 ^ 52 % 2 ^ 11 := by
  rw [UInt64.toNat_and, UInt64.toNat_shiftRight]
  change bits.toNat >>> 52 &&& (2 ^ 11 - 1) = _
  rw [Nat.and_two_pow_sub_one_eq_mod, Nat.shiftRight_eq_div_pow]

lemma ofFloat_of_unpack {x : Float} {sign : Sign} {k : Nat} {e : Int} {pos : 0 < k}
    (h : x.toModel.unpack = .finite sign k e pos) :
    DoubleValue.ofFloat x = .finite ⟨sign == .negative, k, e⟩ := by
  obtain ⟨⟨bits, valid⟩⟩ := x
  have hbias : (Format.binary64.exponentBias + Format.binary64.mantissaBitsWithoutImplicit : Int) =
      1075 := rfl
  simp only [Float.Model.unpack, UnpackedFloat.unpack, hbias] at h
  simp only [DoubleValue.ofFloat, Float.toBits, toNat_fractionBits, toNat_exponentBits,
    unpackSign_eq_negative]
  split at h
  · split at h <;> cases h
  · rename_i hones
    have hfinite : ¬ bits.toNat / 2 ^ 52 % 2 ^ 11 = 0x7ff := by
      rw [← toNat_unpackExponent]
      exact fun heq => hones (BitVec.eq_of_toNat_eq heq)
    rw [if_neg hfinite]
    split at h
    · rename_i hzero
      have hsubnormal : bits.toNat / 2 ^ 52 % 2 ^ 11 = 0 := by
        rw [← toNat_unpackExponent, hzero]
        rfl
      split at h
      · cases h
      · rw [if_pos hsubnormal]
        injection h with hsign hk he
        rw [hsign, ← hk, ← he, toNat_unpackMantissa, hzero]
        rfl
    · rename_i hzero
      have hnormal : ¬ bits.toNat / 2 ^ 52 % 2 ^ 11 = 0 := by
        rw [← toNat_unpackExponent]
        exact fun heq => hzero (BitVec.eq_of_toNat_eq heq)
      rw [if_neg hnormal]
      injection h with hsign hk he
      rw [toNat_leadingBit, toNat_unpackMantissa, Nat.add_comm] at hk
      rw [hsign, hk, ← he, toNat_unpackExponent]

lemma fullMantissa_pos {m : Nat} (pos : 0 < m) : 0 < fullMantissa m :=
  Nat.mul_pos pos (Nat.two_pow_pos _)

def scaled (sign : Sign) (m : Nat) (e : Int) (pos : 0 < m) : UnpackedFloat :=
  .finite sign (fullMantissa m) (e - (52 - m.log2 : Nat)) (fullMantissa_pos pos)

/-- The double is exactly `m * 2 ^ e`. -/
structure Dyadic (x : Float) (m : Nat) (e : Int) : Prop where
  pos : 0 < m
  small : m < 2 ^ 53
  unpack_eq : ∃ h, x.toModel.unpack = .finite .positive (fullMantissa m) (e - (52 - m.log2 : Nat)) h

variable {x y : Float} {m n : Nat} {e e' : Int}

lemma unpack_pack_scaled (sign : Sign) (pos : 0 < m) (small : m < 2 ^ 53) (low : -1022 ≤ e)
    (high : e ≤ 971) :
    (Float.Model.pack (scaled sign m e pos)).unpack = scaled sign m e pos := by
  have hlog := log2_le pos small
  exact unpack_pack_normal (fullMantissa_bounds pos small) (by omega) (by omega) _

lemma Dyadic.unpack_scaled (h : Dyadic x m e) :
    x.toModel.unpack = scaled .positive m e h.pos :=
  h.unpack_eq.2

lemma dyadic_of_round (pos : 0 < m) (small : m < 2 ^ 53) (low : -1022 ≤ e) (high : e ≤ 971)
    (c : Nat)
    (h : x.toModel = .pack (UnpackedFloat.round Format.binary64 .positive (m * 2 ^ c) (e - c))) :
    Dyadic x m e := by
  rw [round_scaled .positive pos small low] at h
  exact ⟨pos, small, _, by rw [h]; exact unpack_pack_scaled .positive pos small low high⟩

/-- The mantissa may be written with more bits. -/
lemma Dyadic.scale (h : Dyadic x m e) {c : Nat} (small : m * 2 ^ c < 2 ^ 53) :
    Dyadic x (m * 2 ^ c) (e - c) := by
  have pos := Nat.mul_pos h.pos (Nat.two_pow_pos c)
  have hlog := log2_le pos small
  rw [log2_mul_two_pow h.pos] at hlog
  have hmantissa : fullMantissa (m * 2 ^ c) = fullMantissa m := by
    rw [fullMantissa, fullMantissa, log2_mul_two_pow h.pos, Nat.mul_assoc, ← Nat.pow_add]
    congr 2
    omega
  have hexponent : e - c - (52 - (m * 2 ^ c).log2 : Nat) = e - (52 - m.log2 : Nat) := by
    rw [log2_mul_two_pow h.pos]
    omega
  obtain ⟨hpos, hunpack⟩ := h.unpack_eq
  simp only [← hmantissa, ← hexponent] at hunpack
  exact ⟨pos, small, _, hunpack⟩

lemma log2_le_log2_mul (m : Nat) (pos : 0 < m) (pos' : 0 < n) : m.log2 ≤ (m * n).log2 :=
  (Nat.le_log2 (Nat.mul_pos pos pos').ne').mpr
    ((Nat.log2_self_le pos.ne').trans (Nat.le_mul_of_pos_right m pos'))

lemma mul_scaled (sign sign' : Sign) (pos : 0 < m) (pos' : 0 < n) (small : m * n < 2 ^ 53)
    (low : -1022 ≤ e + e') :
    UnpackedFloat.mul Format.binary64 (scaled sign m e pos) (scaled sign' n e' pos') =
      scaled (sign * sign') (m * n) (e + e') (Nat.mul_pos pos pos') := by
  have hpos := Nat.mul_pos pos pos'
  have hlog := log2_le hpos small
  have hle := log2_le_log2_mul m pos pos'
  have hround := roundWithAccuracy_exact (sign * sign')
    ((52 - m.log2) + (52 - n.log2) - (52 - (m * n).log2)) (fullMantissa_bounds hpos small)
    (show -1074 ≤ e - (52 - m.log2 : Nat) + (e' - (52 - n.log2 : Nat)) +
      ((52 - m.log2) + (52 - n.log2) - (52 - (m * n).log2) : Nat) by omega)
  have hmantissa : fullMantissa m * fullMantissa n = fullMantissa (m * n) *
      2 ^ ((52 - m.log2) + (52 - n.log2) - (52 - (m * n).log2)) := by
    simp only [fullMantissa]
    rw [Nat.mul_mul_mul_comm, ← Nat.pow_add, Nat.mul_assoc (m * n), ← Nat.pow_add]
    congr 2
    omega
  have hexponent : e - (52 - m.log2 : Nat) + (e' - (52 - n.log2 : Nat)) +
      ((52 - m.log2) + (52 - n.log2) - (52 - (m * n).log2) : Nat) =
        e + e' - (52 - (m * n).log2 : Nat) := by omega
  rw [← hmantissa] at hround
  simp only [hexponent] at hround
  exact hround

lemma Dyadic.mul (hx : Dyadic x m e) (hy : Dyadic y n e') (small : m * n < 2 ^ 53)
    (low : -1022 ≤ e + e') (high : e + e' ≤ 971) : Dyadic (x * y) (m * n) (e + e') := by
  refine ⟨Nat.mul_pos hx.pos hy.pos, small, fullMantissa_pos (Nat.mul_pos hx.pos hy.pos), ?_⟩
  change (Float.Model.pack
    (UnpackedFloat.mul Format.binary64 x.toModel.unpack y.toModel.unpack)).unpack = _
  rw [hx.unpack_scaled, hy.unpack_scaled, mul_scaled _ _ hx.pos hy.pos small low]
  exact unpack_pack_scaled .positive _ small low high

lemma fullMantissa_shiftLeft {c : Nat} (h : 52 - m.log2 ≤ c) (e : Int) :
    fullMantissa m <<< (e - (52 - m.log2 : Nat) - (e - c)).toNat = m * 2 ^ c := by
  rw [Nat.shiftLeft_eq, fullMantissa, Nat.mul_assoc, ← Nat.pow_add]
  congr 2
  omega

lemma normalize_natCast (pos : 0 < m) (e : Int) :
    UnpackedFloat.normalize Format.binary64 (m : Int) e .positive =
      UnpackedFloat.round Format.binary64 .positive m e := by
  have hcompare : compare (m : Int) 0 = .gt := Int.compare_eq_gt.mpr (Int.natCast_pos.mpr pos)
  rw [UnpackedFloat.normalize, hcompare, Int.toNat_natCast]

/-- Both mantissas are written with the larger number of appended zeros. -/
lemma align_scaled (sign sign' : Sign) (pos : 0 < m) (pos' : 0 < n) (e : Int) :
    ∃ c : Nat, UnpackedFloat.add Format.binary64 (scaled sign m e pos) (scaled sign' n e pos') =
        UnpackedFloat.normalize Format.binary64
          (sign.apply ((m * 2 ^ c : Nat) : Int) + sign'.apply ((n * 2 ^ c : Nat) : Int)) (e - c)
          .positive ∧
      UnpackedFloat.sub Format.binary64 (scaled sign m e pos) (scaled sign' n e pos') =
        UnpackedFloat.normalize Format.binary64
          (sign.apply ((m * 2 ^ c : Nat) : Int) - sign'.apply ((n * 2 ^ c : Nat) : Int)) (e - c)
          .positive := by
  obtain ⟨c, hc⟩ : ∃ c, c = max (52 - m.log2) (52 - n.log2) := ⟨_, rfl⟩
  have hmin : min (e - (52 - m.log2 : Nat)) (e - (52 - n.log2 : Nat)) = e - c := by omega
  refine ⟨c, ?_, ?_⟩
  · rw [scaled, scaled, UnpackedFloat.add]
    simp only [hmin, decreaseExponent, fullMantissa_shiftLeft (show 52 - m.log2 ≤ c by omega),
      fullMantissa_shiftLeft (show 52 - n.log2 ≤ c by omega)]
  · rw [scaled, scaled, UnpackedFloat.sub]
    simp only [hmin, decreaseExponent, fullMantissa_shiftLeft (show 52 - m.log2 ≤ c by omega),
      fullMantissa_shiftLeft (show 52 - n.log2 ≤ c by omega)]

lemma add_scaled (pos : 0 < m) (pos' : 0 < n) (small : m + n < 2 ^ 53) (low : -1022 ≤ e) :
    UnpackedFloat.add Format.binary64 (scaled .positive m e pos) (scaled .positive n e pos') =
      scaled .positive (m + n) e (Nat.add_pos_left pos n) := by
  have hpos : 0 < m + n := Nat.add_pos_left pos n
  obtain ⟨c, hadd, _⟩ := align_scaled .positive .positive pos pos' e
  have hsum : ((m * 2 ^ c : Nat) : Int) + ((n * 2 ^ c : Nat) : Int) =
      (((m + n) * 2 ^ c : Nat) : Int) := by
    rw [Nat.add_mul, Int.natCast_add]
  simp only [Sign.apply, hsum] at hadd
  rw [hadd, normalize_natCast (Nat.mul_pos hpos (Nat.two_pow_pos c))]
  exact round_scaled .positive hpos small low c

lemma Dyadic.add (hx : Dyadic x m e) (hy : Dyadic y n e) (small : m + n < 2 ^ 53)
    (low : -1022 ≤ e) (high : e ≤ 971) : Dyadic (x + y) (m + n) e := by
  refine ⟨Nat.add_pos_left hx.pos n, small, fullMantissa_pos (Nat.add_pos_left hx.pos n), ?_⟩
  change (Float.Model.pack
    (UnpackedFloat.add Format.binary64 x.toModel.unpack y.toModel.unpack)).unpack = _
  rw [hx.unpack_scaled, hy.unpack_scaled, add_scaled hx.pos hy.pos small low]
  exact unpack_pack_scaled .positive _ small low high

lemma zero_add_dyadic (hy : Dyadic y n e) (low : -1022 ≤ e) (high : e ≤ 971) :
    Dyadic (countToFloat 0 + y) n e := by
  obtain ⟨hpos, hunpack⟩ := hy.unpack_eq
  refine ⟨hy.pos, hy.small, hpos, ?_⟩
  change (Float.Model.pack (UnpackedFloat.add Format.binary64
    (countToFloat 0).toModel.unpack y.toModel.unpack)).unpack = _
  have hzero : (countToFloat 0).toModel.unpack = .zero .positive := by rfl
  rw [hzero, hunpack, UnpackedFloat.add]
  · exact unpack_pack_scaled .positive hy.pos hy.small low high
  · simp
  · simp
  · simp

lemma dyadic_countToFloat (pos : 0 < m) (small : m < 2 ^ 53) : Dyadic (countToFloat m) m 0 := by
  have hbits : m.toUInt64.toNat = m := Nat.mod_eq_of_lt (by omega)
  refine dyadic_of_round pos small (by decide) (by decide) 0 ?_
  change Float.Model.pack
    (UnpackedFloat.normalize Format.binary64 (m.toUInt64.toNat : Int) 0 .positive) = _
  rw [hbits, normalize_natCast pos]
  simp

lemma ratio_neg (negative : Bool) (m j : Nat) :
    ExactDouble.ratio ⟨negative, m, -(j : Int)⟩ = (m, 2 ^ j) := by
  cases j with
  | zero => exact Prod.ext (Nat.mul_one m) rfl
  | succ j => rfl

lemma Dyadic.roundClamped_eq {k : Nat} (h : Dyadic x m (-k)) (limit : Nat) :
    roundClamped limit x = min ((2 * m + 2 ^ k) / (2 * 2 ^ k)) limit := by
  obtain ⟨hpos, hunpack⟩ := h.unpack_eq
  have hsign : ((Sign.positive : Sign) == .negative) = false := rfl
  have hround : ExactDouble.roundHalfUp ⟨false, fullMantissa m, -k - (52 - m.log2 : Nat)⟩ =
      (2 * m + 2 ^ k) / (2 * 2 ^ k) := by
    have hexponent : (-k - (52 - m.log2 : Nat) : Int) = -((k + (52 - m.log2) : Nat) : Int) := by
      omega
    have hnumerator : 2 * fullMantissa m + 2 ^ (k + (52 - m.log2)) =
        (2 * m + 2 ^ k) * 2 ^ (52 - m.log2) := by
      rw [fullMantissa, Nat.pow_add, Nat.add_mul, Nat.mul_assoc]
    have hdenominator : 2 * 2 ^ (k + (52 - m.log2)) = 2 * 2 ^ k * 2 ^ (52 - m.log2) := by
      rw [Nat.pow_add, Nat.mul_assoc]
    simp only [ExactDouble.roundHalfUp, hpos.ne', if_false, hexponent, ratio_neg]
    rw [hnumerator, hdenominator, Nat.mul_div_mul_right _ _ (Nat.two_pow_pos _)]
  simp only [roundClamped, ofFloat_of_unpack hunpack, hsign, hround, Bool.false_eq_true, if_false]

end BlockPainting
