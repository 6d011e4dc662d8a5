import BlockPainting.Proofs.Number.Dyadic

/-!
# The order of doubles

A double without a minus sign is a number of units, where the unit is the smallest positive double.
Two such doubles are ordered as their numbers of units are, so the order of doubles between zero and
infinity is the order of natural numbers.
-/

namespace BlockPainting

open Float.Model Float.Model.UnpackedFloat

/-- The first power of two, in units, that is too large for a double. Infinity counts as this. -/
@[irreducible]
def overflow : Nat := 2 ^ 2098

lemma overflow_eq : overflow = 2 ^ 2098 := by
  with_unfolding_all rfl

lemma overflow_pos : 0 < overflow := by
  rw [overflow_eq]
  positivity

/-- The number without its sign, in units of `2 ^ -1074`. -/
def unitCount : UnpackedFloat → Nat
  | .notANumber => 0
  | .zero _ => 0
  | .finite _ m e _ => m * 2 ^ (e + 1074).toNat
  | .infinity _ => overflow

def units (x : Float) : Nat :=
  unitCount x.toModel.unpack

def Unsigned : UnpackedFloat → Prop
  | .zero _ => True
  | .finite .positive .. => True
  | .infinity .positive => True
  | _ => False

/-- A mantissa of 53 bits, or of fewer at the least exponent. -/
structure Fits (m : Nat) (e : Int) : Prop where
  small : m < 2 ^ 53
  low : -1074 ≤ e
  full : 2 ^ 52 ≤ m ∨ e = -1074

/-- A finite number is written as a double writes it. -/
def Canonical : UnpackedFloat → Prop
  | .finite _ m e _ => Fits m e ∧ e ≤ 971
  | _ => True

lemma canonical_unpack (x : Float) : Canonical x.toModel.unpack := by
  obtain ⟨⟨bits, valid⟩⟩ := x
  have hbias : (Format.binary64.exponentBias + Format.binary64.mantissaBitsWithoutImplicit : Int) =
      1075 := rfl
  simp only [Float.Model.unpack, UnpackedFloat.unpack, hbias]
  have hfraction : (@unpackMantissa Format.binary64 bits.toBitVec).toNat < 2 ^ 52 := BitVec.isLt _
  split
  · split <;> trivial
  · rename_i hones
    have hfinite : (@unpackExponent Format.binary64 bits.toBitVec).toNat ≠ 2047 :=
      fun heq => hones (BitVec.eq_of_toNat_eq heq)
    have hbound : (@unpackExponent Format.binary64 bits.toBitVec).toNat < 2048 := BitVec.isLt _
    split
    · rename_i hzero
      split
      · trivial
      · have hsubnormal : (@unpackExponent Format.binary64 bits.toBitVec).toNat = 0 := by
          rw [hzero]
          rfl
        exact ⟨⟨by omega, by omega, Or.inr (by omega)⟩, by omega⟩
    · rename_i hzero
      have hnormal : (@unpackExponent Format.binary64 bits.toBitVec).toNat ≠ 0 :=
        fun heq => hzero (BitVec.eq_of_toNat_eq heq)
      have hleading := toNat_leadingBit (@unpackMantissa Format.binary64 bits.toBitVec)
      simp only [leadingBit] at hleading
      exact ⟨⟨by omega, by omega, Or.inl (by omega)⟩, by omega⟩

lemma Fits.lt_of_lt {m m' : Nat} {e e' : Int} (h : Fits m e) (h' : Fits m' e') (hlt : e < e') :
    m * 2 ^ (e + 1074).toNat < m' * 2 ^ (e' + 1074).toNat := by
  have hlow := h.low
  have hfull : 2 ^ 52 ≤ m' := h'.full.resolve_right (by omega)
  calc m * 2 ^ (e + 1074).toNat
      < 2 ^ 53 * 2 ^ (e + 1074).toNat := Nat.mul_lt_mul_of_pos_right h.small (Nat.two_pow_pos _)
    _ = 2 ^ 52 * 2 ^ ((e + 1074).toNat + 1) := by rw [← Nat.pow_add, ← Nat.pow_add]; congr 1; omega
    _ ≤ 2 ^ 52 * 2 ^ (e' + 1074).toNat :=
      Nat.mul_le_mul_left _ (Nat.pow_le_pow_right Nat.two_pos (by omega))
    _ ≤ m' * 2 ^ (e' + 1074).toNat := Nat.mul_le_mul_right _ hfull

lemma Fits.lt_overflow {m : Nat} {e : Int} (h : Fits m e) (high : e ≤ 971) :
    m * 2 ^ (e + 1074).toNat < overflow := by
  calc m * 2 ^ (e + 1074).toNat
      < 2 ^ 53 * 2 ^ (e + 1074).toNat := Nat.mul_lt_mul_of_pos_right h.small (Nat.two_pow_pos _)
    _ = 2 ^ (53 + (e + 1074).toNat) := (Nat.pow_add _ _ _).symm
    _ ≤ overflow := by
      rw [overflow_eq]
      gcongr
      · decide
      · omega

lemma compare_finite {m m' : Nat} {e e' : Int} (h : Fits m e) (h' : Fits m' e') :
    (compare e e').then (compare m m') =
      compare (m * 2 ^ (e + 1074).toNat) (m' * 2 ^ (e' + 1074).toNat) := by
  rcases lt_trichotomy e e' with hlt | rfl | hlt
  · rw [Int.compare_eq_lt.mpr hlt, Nat.compare_eq_lt.mpr (h.lt_of_lt h' hlt)]
    rfl
  · rw [Int.compare_eq_eq.mpr rfl, Ordering.then]
    have hpos := Nat.two_pow_pos (e + 1074).toNat
    rcases lt_trichotomy m m' with hlt | rfl | hlt
    · rw [Nat.compare_eq_lt.mpr hlt, Nat.compare_eq_lt.mpr (Nat.mul_lt_mul_of_pos_right hlt hpos)]
    · rw [Nat.compare_eq_eq.mpr rfl, Nat.compare_eq_eq.mpr rfl]
    · rw [Nat.compare_eq_gt.mpr hlt, Nat.compare_eq_gt.mpr (Nat.mul_lt_mul_of_pos_right hlt hpos)]
  · rw [Int.compare_eq_gt.mpr hlt, Nat.compare_eq_gt.mpr (h'.lt_of_lt h hlt)]
    rfl

/-- Numbers without a minus sign compare as their numbers of units. -/
lemma compare_unitCount {u v : UnpackedFloat} (hu : Canonical u) (hv : Canonical v)
    (su : Unsigned u) (sv : Unsigned v) :
    u.compare v = some (compare (unitCount u) (unitCount v)) := by
  rcases u with (_ | _) | _ | _ | ⟨(_ | _), m, e, pos⟩ <;> try exact su.elim
  all_goals rcases v with (_ | _) | _ | _ | ⟨(_ | _), m', e', pos'⟩ <;> try exact sv.elim
  all_goals simp only [UnpackedFloat.compare, unitCount, Option.some.injEq]
  · rw [Nat.compare_eq_eq.mpr rfl]
    rfl
  · exact (Nat.compare_eq_gt.mpr overflow_pos).symm
  · exact (Nat.compare_eq_gt.mpr (hv.1.lt_overflow hv.2)).symm
  · exact (Nat.compare_eq_lt.mpr overflow_pos).symm
  · rfl
  · exact (Nat.compare_eq_lt.mpr (Nat.mul_pos pos' (Nat.two_pow_pos _))).symm
  · exact (Nat.compare_eq_lt.mpr (hu.1.lt_overflow hu.2)).symm
  · exact (Nat.compare_eq_gt.mpr (Nat.mul_pos pos (Nat.two_pow_pos _))).symm
  · exact compare_finite hu.1 hv.1

variable {x y : Float}

lemma le_iff_compare :
    x ≤ y ↔ (x.toModel.unpack.compare y.toModel.unpack).any (·.isLE) := by
  change (decide _ = true) ↔ _
  rw [decide_eq_true_iff]
  rfl

lemma lt_iff_compare :
    x < y ↔ x.toModel.unpack.compare y.toModel.unpack = some .lt := by
  change (decide _ = true) ↔ _
  rw [decide_eq_true_iff]
  change (UnpackedFloat.lt _ _ = true) ↔ _
  simp [UnpackedFloat.lt, Float.Model.unpack]

lemma unpack_zero : (0.0 : Float).toModel.unpack = .zero .positive := by rfl

lemma nonneg_iff : 0.0 ≤ x ↔ Unsigned x.toModel.unpack := by
  rw [le_iff_compare, unpack_zero]
  rcases x.toModel.unpack with (_ | _) | _ | _ | ⟨(_ | _), m, e, pos⟩ <;>
    simp [UnpackedFloat.compare, Unsigned]

lemma le_iff_units (hx : 0.0 ≤ x) (hy : 0.0 ≤ y) : x ≤ y ↔ units x ≤ units y := by
  rw [le_iff_compare, compare_unitCount (canonical_unpack x) (canonical_unpack y)
    (nonneg_iff.mp hx) (nonneg_iff.mp hy), Option.any_some, Nat.isLE_compare]
  rfl

lemma lt_iff_units (hx : 0.0 ≤ x) (hy : 0.0 ≤ y) : x < y ↔ units x < units y := by
  rw [lt_iff_compare, compare_unitCount (canonical_unpack x) (canonical_unpack y)
    (nonneg_iff.mp hx) (nonneg_iff.mp hy), Option.some.injEq, Nat.compare_eq_lt]
  rfl

lemma le_trans_of_nonneg {z : Float} (hx : 0.0 ≤ x) (hy : 0.0 ≤ y) (hz : 0.0 ≤ z) (h : x ≤ y)
    (h' : y ≤ z) : x ≤ z :=
  (le_iff_units hx hz).mpr (((le_iff_units hx hy).mp h).trans ((le_iff_units hy hz).mp h'))

end BlockPainting
