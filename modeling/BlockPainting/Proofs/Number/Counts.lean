import BlockPainting.Proofs.Number.Sum

/-!
# Sums and squares of counts

Counts of at most 53 bits are doubles, and so are their differences. Sums of counts and squares of
differences are not rounded either, as long as they have no more bits themselves.
-/

namespace BlockPainting

open Float.Model Float.Model.UnpackedFloat

/-- The unpacked double `± n`; zero has no minus sign. -/
def signedCount (sign : Sign) (n : Nat) : UnpackedFloat :=
  if pos : 0 < n then scaled sign n 0 pos else .zero .positive

variable {m n : Nat} {sign : Sign}

lemma signedCount_of_pos (sign : Sign) (pos : 0 < n) : signedCount sign n = scaled sign n 0 pos :=
  dif_pos pos

lemma signedCount_zero (sign : Sign) : signedCount sign 0 = .zero .positive :=
  rfl

lemma unpack_pack_signedCount (sign : Sign) (small : n < 2 ^ 53) :
    (Float.Model.pack (signedCount sign n)).unpack = signedCount sign n := by
  rcases Nat.eq_zero_or_pos n with rfl | pos
  · exact unpack_pack_zero .positive
  · rw [signedCount_of_pos sign pos]
    exact unpack_pack_scaled sign pos small (by decide) (by decide)

lemma countToFloat_eq (small : n < 2 ^ 53) :
    countToFloat n = .ofModel (.pack (signedCount .positive n)) := by
  rcases Nat.eq_zero_or_pos n with rfl | pos
  · rfl
  · have hbits : n.toUInt64.toNat = n := Nat.mod_eq_of_lt (by omega)
    have hround := round_scaled .positive pos small (show -1022 ≤ (0 : Int) by decide) 0
    change Float.ofModel (.pack
      (UnpackedFloat.normalize Format.binary64 (n.toUInt64.toNat : Int) 0 .positive)) = _
    rw [hbits, normalize_natCast pos, signedCount_of_pos .positive pos, scaled, ← hround]
    simp

lemma add_signedCount (small : m + n < 2 ^ 53) :
    UnpackedFloat.add Format.binary64 (signedCount .positive m) (signedCount .positive n) =
      signedCount .positive (m + n) := by
  rcases Nat.eq_zero_or_pos m with rfl | hm
  · rcases Nat.eq_zero_or_pos n with rfl | hn
    · rfl
    · rw [Nat.zero_add, signedCount_zero, signedCount_of_pos _ hn]
      rfl
  · rcases Nat.eq_zero_or_pos n with rfl | hn
    · rw [Nat.add_zero, signedCount_zero, signedCount_of_pos _ hm]
      rfl
    · rw [signedCount_of_pos _ hm, signedCount_of_pos _ hn,
        signedCount_of_pos _ (Nat.add_pos_left hm n)]
      exact add_scaled hm hn small (by decide)

def gap (m n : Nat) : Nat :=
  if m < n then n - m else m - n

/-- The sign of a difference is that of the larger count. -/
lemma normalize_difference (hm : m < 2 ^ 53) (hn : n < 2 ^ 53) (c : Nat) :
    ∃ sign, UnpackedFloat.normalize Format.binary64
      (((m * 2 ^ c : Nat) : Int) - ((n * 2 ^ c : Nat) : Int)) (0 - c) .positive =
        signedCount sign (gap m n) := by
  rcases lt_trichotomy m n with hlt | rfl | hgt
  · refine ⟨.negative, ?_⟩
    have pos : 0 < n - m := by omega
    have hscaled := Nat.mul_pos pos (Nat.two_pow_pos c)
    have hdifference : ((m * 2 ^ c : Nat) : Int) - ((n * 2 ^ c : Nat) : Int) =
        -(((n - m) * 2 ^ c : Nat) : Int) := by
      rw [Nat.sub_mul, Int.natCast_sub (Nat.mul_le_mul_right _ hlt.le), Int.neg_sub]
    have hcompare : compare (-(((n - m) * 2 ^ c : Nat) : Int)) 0 = .lt :=
      Int.compare_eq_lt.mpr (by omega)
    rw [hdifference, UnpackedFloat.normalize, hcompare, Int.neg_neg, Int.toNat_natCast, gap,
      if_pos hlt, signedCount_of_pos _ pos]
    exact round_scaled .negative pos (by omega) (by decide) c
  · refine ⟨.positive, ?_⟩
    rw [Int.sub_self, gap, if_neg (Nat.lt_irrefl m), Nat.sub_self]
    rfl
  · refine ⟨.positive, ?_⟩
    have pos : 0 < m - n := by omega
    have hdifference : ((m * 2 ^ c : Nat) : Int) - ((n * 2 ^ c : Nat) : Int) =
        (((m - n) * 2 ^ c : Nat) : Int) := by
      rw [Nat.sub_mul, Int.natCast_sub (Nat.mul_le_mul_right _ hgt.le)]
    rw [hdifference, normalize_natCast (Nat.mul_pos pos (Nat.two_pow_pos c)), gap,
      if_neg (Nat.not_lt.mpr hgt.le), signedCount_of_pos _ pos]
    exact round_scaled .positive pos (by omega) (by decide) c

lemma sub_signedCount (hm : m < 2 ^ 53) (hn : n < 2 ^ 53) :
    ∃ sign, UnpackedFloat.sub Format.binary64 (signedCount .positive m) (signedCount .positive n) =
      signedCount sign (gap m n) := by
  rcases Nat.eq_zero_or_pos m with rfl | mpos
  · rcases Nat.eq_zero_or_pos n with rfl | npos
    · exact ⟨.positive, rfl⟩
    · refine ⟨.negative, ?_⟩
      rw [gap, if_pos npos, Nat.sub_zero, signedCount_zero, signedCount_of_pos _ npos,
        signedCount_of_pos _ npos]
      rfl
  · rcases Nat.eq_zero_or_pos n with rfl | npos
    · refine ⟨.positive, ?_⟩
      rw [gap, if_neg (Nat.not_lt_zero m), Nat.sub_zero, signedCount_zero,
        signedCount_of_pos _ mpos]
      rfl
    · obtain ⟨c, _, hsub⟩ := align_scaled .positive .positive mpos npos 0
      rw [signedCount_of_pos _ mpos, signedCount_of_pos _ npos, hsub]
      exact normalize_difference hm hn c

lemma mul_self_signedCount (sign : Sign) (small : n * n < 2 ^ 53) :
    UnpackedFloat.mul Format.binary64 (signedCount sign n) (signedCount sign n) =
      signedCount .positive (n * n) := by
  rcases Nat.eq_zero_or_pos n with rfl | pos
  · rfl
  · have hsign : sign * sign = .positive := by cases sign <;> rfl
    rw [signedCount_of_pos _ pos, signedCount_of_pos _ (Nat.mul_pos pos pos), ← hsign]
    exact mul_scaled sign sign pos pos small (by decide)

theorem countToFloat_add (small : m + n < 2 ^ 53) :
    countToFloat m + countToFloat n = countToFloat (m + n) := by
  have hm : m < 2 ^ 53 := by omega
  have hn : n < 2 ^ 53 := by omega
  rw [countToFloat_eq hm, countToFloat_eq hn, countToFloat_eq small, ← add_signedCount small]
  change Float.ofModel (.pack (UnpackedFloat.add Format.binary64
    (Float.Model.pack _).unpack (Float.Model.pack _).unpack)) = _
  rw [unpack_pack_signedCount _ hm, unpack_pack_signedCount _ hn]

/-- The square of a difference is the square of the distance, whichever is larger. -/
theorem sub_mul_self_countToFloat (hm : m < 2 ^ 53) (hn : n < 2 ^ 53)
    (small : gap m n * gap m n < 2 ^ 53) :
    (countToFloat m - countToFloat n) * (countToFloat m - countToFloat n) =
      countToFloat (gap m n * gap m n) := by
  obtain ⟨sign, hsub⟩ := sub_signedCount hm hn
  have hgap : gap m n < 2 ^ 53 := by
    unfold gap
    split <;> omega
  have hdifference : countToFloat m - countToFloat n =
      .ofModel (.pack (signedCount sign (gap m n))) := by
    rw [countToFloat_eq hm, countToFloat_eq hn, ← hsub]
    change Float.ofModel (.pack (UnpackedFloat.sub Format.binary64
      (Float.Model.pack _).unpack (Float.Model.pack _).unpack)) = _
    rw [unpack_pack_signedCount _ hm, unpack_pack_signedCount _ hn]
  rw [hdifference, countToFloat_eq small, ← mul_self_signedCount sign small]
  change Float.ofModel (.pack (UnpackedFloat.mul Format.binary64
    (Float.Model.pack _).unpack (Float.Model.pack _).unpack)) = _
  rw [unpack_pack_signedCount _ hgap]

end BlockPainting
