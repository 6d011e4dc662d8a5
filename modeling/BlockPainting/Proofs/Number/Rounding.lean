import BlockPainting.Proofs.Number.Order

/-!
# Rounding to doubles

Every operation on doubles computes its exact result as a quotient with a rest, an integer if there
is no rest, and rounds it to 53 bits, a tie going to the even mantissa. In units the result is a
fraction rounded in one way, and of two fractions the larger is rounded to the larger double.
-/

namespace BlockPainting

open Float.Model Float.Model.UnpackedFloat

/-- Where a quotient that leaves the rest `r` lies between two integers. -/
def restAccuracy (r d : Nat) : Accuracy :=
  if r = 0 then .exact else .inexact (compare (2 * r) d)

lemma shiftRightOne_eq (q : Nat) {r d : Nat} (hr : r < d) :
    (ExtendedMantissa.ofMantissaAndAccuracy q (restAccuracy r d)).shiftRightOne =
      .ofMantissaAndAccuracy (q / 2) (restAccuracy (r + d * (q % 2)) (d * 2)) := by
  by_cases hzero : r = 0
  · subst hzero
    rcases Nat.mod_two_eq_zero_or_one q with hq | hq
    · simp [restAccuracy, ExtendedMantissa.shiftRightOne, ExtendedMantissa.ofMantissaAndAccuracy,
        hq]
    · have hhalf : compare (2 * d) (d * 2) = .eq := Nat.compare_eq_eq.mpr (Nat.mul_comm 2 d)
      simp [restAccuracy, ExtendedMantissa.shiftRightOne, ExtendedMantissa.ofMantissaAndAccuracy,
        hq, hhalf, hr.ne']
  · -- A bit has left the mantissa before, so the sticky bit is set.
    have hsticky : (ExtendedMantissa.ofMantissaAndAccuracy q (restAccuracy r d)).shiftRightOne =
        ⟨q / 2, q % 2 != 0, true⟩ := by
      rw [restAccuracy, if_neg hzero]
      cases compare (2 * r) d <;> rfl
    rcases Nat.mod_two_eq_zero_or_one q with hq | hq
    · have hbelow : compare (2 * (r + d * 0)) (d * 2) = .lt := Nat.compare_eq_lt.mpr (by omega)
      rw [hsticky, restAccuracy, hq, if_neg (by omega), hbelow]
      rfl
    · have habove : compare (2 * (r + d * 1)) (d * 2) = .gt := Nat.compare_eq_gt.mpr (by omega)
      rw [hsticky, restAccuracy, hq, if_neg (by omega), habove]
      rfl

/-- Of the shifted out bits and the rest that was there before a new rest is left. -/
lemma repeat_shiftRightOne_rest (q s : Nat) {r d : Nat} (hr : r < d) :
    Nat.repeat ExtendedMantissa.shiftRightOne s
        (.ofMantissaAndAccuracy q (restAccuracy r d)) =
      .ofMantissaAndAccuracy (q / 2 ^ s) (restAccuracy (r + d * (q % 2 ^ s)) (d * 2 ^ s)) := by
  induction s with
  | zero => simp [Nat.repeat, Nat.mod_one]
  | succ s ih =>
    have hrest : r + d * (q % 2 ^ s) < d * 2 ^ s := by
      calc r + d * (q % 2 ^ s) < d + d * (q % 2 ^ s) := Nat.add_lt_add_right hr _
        _ = d * (q % 2 ^ s + 1) := by ring
        _ ≤ d * 2 ^ s := Nat.mul_le_mul_left d (Nat.mod_lt q (Nat.two_pow_pos s))
    have hsplit : r + d * (q % 2 ^ s) + d * 2 ^ s * (q / 2 ^ s % 2) =
        r + d * (q % (2 ^ s * 2)) := by
      rw [Nat.mod_mul]
      ring
    rw [Nat.repeat, ih, shiftRightOne_eq _ hrest, Nat.pow_succ, Nat.div_div_eq_div_mul, hsplit,
      Nat.mul_assoc]

lemma roundToNearestEven_rest (n : Nat) {d : Nat} (pos : 0 < d) :
    (restAccuracy (n % d) d).roundToNearestEven (n / d) = roundDivEven n d := by
  rw [roundDivEven, restAccuracy]
  by_cases hzero : n % d = 0
  · rw [if_pos hzero, hzero, Nat.compare_eq_lt.mpr (by omega)]
    rfl
  · rw [if_neg hzero]
    cases compare (2 * (n % d)) d with
    | lt => rfl
    | gt => rfl
    | eq =>
      rcases Nat.mod_two_eq_zero_or_one (n / d) with hq | hq <;>
        simp [Accuracy.roundToNearestEven, hq]

lemma roundedMantissa_rest (q s : Nat) {r d : Nat} (hr : r < d) :
    (Nat.repeat ExtendedMantissa.shiftRightOne s
        (.ofMantissaAndAccuracy q (restAccuracy r d))).roundedMantissa =
      roundDivEven (q * d + r) (d * 2 ^ s) := by
  have hd : 0 < d := Nat.zero_lt_of_lt hr
  have haccuracy : ∀ q a, (ExtendedMantissa.ofMantissaAndAccuracy q a).roundedMantissa =
      a.roundToNearestEven q := by
    rintro q (_ | _ | _ | _) <;> rfl
  have hquotient : (q * d + r) / d = q := by
    rw [Nat.mul_comm, Nat.mul_add_div hd, Nat.div_eq_of_lt hr, Nat.add_zero]
  have hrest : (q * d + r) % d = r := by
    rw [Nat.mul_comm, Nat.mul_add_mod, Nat.mod_eq_of_lt hr]
  rw [repeat_shiftRightOne_rest q s hr, haccuracy,
    ← roundToNearestEven_rest _ (Nat.mul_pos hd (Nat.two_pow_pos s)), ← Nat.div_div_eq_div_mul,
    Nat.mod_mul, hquotient, hrest]

section RoundDivEven

variable {n n' : Nat}

lemma roundDivEven_bounds (n d : Nat) :
    n / d ≤ roundDivEven n d ∧ roundDivEven n d ≤ n / d + 1 := by
  simp only [roundDivEven]
  split
  · omega
  · omega
  · split <;> omega

lemma roundDivEven_one (n : Nat) : roundDivEven n 1 = n := by
  have hrest : compare (2 * (n % 1)) 1 = .lt := by rw [Nat.mod_one]; rfl
  simp only [roundDivEven, hrest, Nat.div_one]

lemma roundDivEven_mul (n d : Nat) {c : Nat} (pos : 0 < c) :
    roundDivEven (n * c) (d * c) = roundDivEven n d := by
  have hrest : compare (2 * (n * c % (d * c))) (d * c) = compare (2 * (n % d)) d := by
    rw [Nat.mul_mod_mul_right, ← Nat.mul_assoc]
    rcases lt_trichotomy (2 * (n % d)) d with hlt | heq | hlt
    · rw [Nat.compare_eq_lt.mpr hlt, Nat.compare_eq_lt.mpr (Nat.mul_lt_mul_of_pos_right hlt pos)]
    · rw [heq, Nat.compare_eq_eq.mpr rfl, Nat.compare_eq_eq.mpr rfl]
    · rw [Nat.compare_eq_gt.mpr hlt, Nat.compare_eq_gt.mpr (Nat.mul_lt_mul_of_pos_right hlt pos)]
  simp only [roundDivEven, hrest, Nat.mul_div_mul_right n d pos]

lemma roundDivEven_mono (d : Nat) (h : n ≤ n') : roundDivEven n d ≤ roundDivEven n' d := by
  rcases (Nat.div_le_div_right h : n / d ≤ n' / d).lt_or_eq with hlt | heq
  · calc roundDivEven n d ≤ n / d + 1 := (roundDivEven_bounds n d).2
      _ ≤ n' / d := hlt
      _ ≤ roundDivEven n' d := (roundDivEven_bounds n' d).1
  · -- Between the same two integers the rests decide.
    have hrest : n % d ≤ n' % d := by
      have hn := Nat.div_add_mod n d
      have hn' := Nat.div_add_mod n' d
      rw [heq] at hn
      omega
    rcases hrest.eq_or_lt with hsame | hless
    · simp only [roundDivEven, heq, hsame, le_refl]
    · by_cases hup : d ≤ 2 * (n % d)
      · have habove : compare (2 * (n' % d)) d = .gt := Nat.compare_eq_gt.mpr (by omega)
        calc roundDivEven n d ≤ n / d + 1 := (roundDivEven_bounds n d).2
          _ = roundDivEven n' d := by simp only [roundDivEven, habove, heq]
      · have hbelow : compare (2 * (n % d)) d = .lt := Nat.compare_eq_lt.mpr (by omega)
        calc roundDivEven n d = n' / d := by simp only [roundDivEven, hbelow, heq]
          _ ≤ roundDivEven n' d := (roundDivEven_bounds n' d).1

lemma roundDivEven_le_of_mul_le {n d n' d' : Nat} (pos : 0 < d) (pos' : 0 < d')
    (h : n * d' ≤ n' * d) : roundDivEven n d ≤ roundDivEven n' d' := by
  calc roundDivEven n d = roundDivEven (n * d') (d * d') := (roundDivEven_mul n d pos').symm
    _ ≤ roundDivEven (n' * d) (d * d') := roundDivEven_mono _ h
    _ = roundDivEven n' d' := by rw [Nat.mul_comm d d', roundDivEven_mul n' d' pos]

end RoundDivEven

lemma div_two_pow_bounds (n : Nat) :
    n / 2 ^ (n.log2 - 52) < 2 ^ 53 ∧ (52 < n.log2 → 2 ^ 52 ≤ n / 2 ^ (n.log2 - 52)) := by
  have hpos := Nat.two_pow_pos (n.log2 - 52)
  constructor
  · rw [Nat.div_lt_iff_lt_mul hpos, ← Nat.pow_add]
    exact Nat.lt_log2_self.trans_le (Nat.pow_le_pow_right Nat.two_pos (by omega))
  · intro hlarge
    have hne : n ≠ 0 := by rintro rfl; simp at hlarge
    rw [Nat.le_div_iff_mul_le hpos, ← Nat.pow_add]
    refine (Nat.pow_le_pow_right Nat.two_pos (by omega)).trans (Nat.log2_self_le hne)

def roundFraction (n d : Nat) : Nat :=
  roundDivEven n (d * 2 ^ ((n / d).log2 - 52)) * 2 ^ ((n / d).log2 - 52)

lemma roundFraction_mul (n d : Nat) {c : Nat} (pos : 0 < c) :
    roundFraction (n * c) (d * c) = roundFraction n d := by
  rw [roundFraction, roundFraction, Nat.mul_div_mul_right n d pos, Nat.mul_right_comm,
    roundDivEven_mul _ _ pos]

/-- Rounding keeps the mantissa between `2 ^ 52` and `2 ^ 53`, both of which it can reach. -/
lemma roundDivEven_log2_bounds (n d : Nat) :
    roundDivEven n (d * 2 ^ ((n / d).log2 - 52)) ≤ 2 ^ 53 ∧
      (52 < (n / d).log2 → 2 ^ 52 ≤ roundDivEven n (d * 2 ^ ((n / d).log2 - 52))) := by
  have hround := roundDivEven_bounds n (d * 2 ^ ((n / d).log2 - 52))
  rw [← Nat.div_div_eq_div_mul] at hround
  have hdiv := div_two_pow_bounds (n / d)
  exact ⟨by omega, fun h => (hdiv.2 h).trans hround.1⟩

lemma roundFraction_mono {n d n' d' : Nat} (pos : 0 < d) (pos' : 0 < d')
    (h : n * d' ≤ n' * d) : roundFraction n d ≤ roundFraction n' d' := by
  have hquotient : n / d ≤ n' / d' := by
    rw [Nat.le_div_iff_mul_le pos']
    refine Nat.le_of_mul_le_mul_right ?_ pos
    calc n / d * d' * d = n / d * d * d' := Nat.mul_right_comm _ _ _
      _ ≤ n * d' := Nat.mul_le_mul_right d' (Nat.div_mul_le_self n d)
      _ ≤ n' * d := h
  have hlog : (n / d).log2 ≤ (n' / d').log2 := by
    rcases Nat.eq_zero_or_pos (n / d) with hzero | hpos
    · rw [hzero]
      exact Nat.zero_le _
    · exact (Nat.le_log2 (by omega)).mpr ((Nat.log2_self_le hpos.ne').trans hquotient)
  by_cases hsame : (n / d).log2 - 52 = (n' / d').log2 - 52
  · simp only [roundFraction, hsame]
    refine Nat.mul_le_mul_right _ (roundDivEven_le_of_mul_le ?_ ?_ ?_)
    · exact Nat.mul_pos pos (Nat.two_pow_pos _)
    · exact Nat.mul_pos pos' (Nat.two_pow_pos _)
    · rw [← Nat.mul_assoc, ← Nat.mul_assoc]
      exact Nat.mul_le_mul_right _ h
  · calc roundFraction n d ≤ 2 ^ 53 * 2 ^ ((n / d).log2 - 52) :=
          Nat.mul_le_mul_right _ (roundDivEven_log2_bounds n d).1
      _ = 2 ^ 52 * 2 ^ ((n / d).log2 - 52 + 1) := by
          rw [← Nat.pow_add, ← Nat.pow_add]
          congr 1
          omega
      _ ≤ 2 ^ 52 * 2 ^ ((n' / d').log2 - 52) :=
          Nat.mul_le_mul_left _ (Nat.pow_le_pow_right Nat.two_pos (by omega))
      _ ≤ roundFraction n' d' :=
          Nat.mul_le_mul_right _ ((roundDivEven_log2_bounds n' d').2 (by omega))

def roundUnits (n : Nat) : Nat :=
  roundDivEven n (2 ^ (n.log2 - 52)) * 2 ^ (n.log2 - 52)

lemma roundFraction_one (n : Nat) : roundFraction n 1 = roundUnits n := by
  simp only [roundFraction, roundUnits, Nat.div_one, Nat.one_mul]

lemma roundUnits_mono {n n' : Nat} (h : n ≤ n') : roundUnits n ≤ roundUnits n' := by
  rw [← roundFraction_one, ← roundFraction_one]
  exact roundFraction_mono Nat.one_pos Nat.one_pos (Nat.mul_le_mul_right 1 h)

lemma targetExponent_eq (m : Nat) (e : Int) :
    Format.binary64.targetExponent (totalExponent m e) = max (m.log2 + e - 52) (-1074) := by
  simp only [Format.targetExponent, totalExponent, Format.mantissaBits, Format.minExponent]
  omega

/-- A mantissa that has grown to 54 bits is shifted once more, and a shorter one is left. -/
lemma exists_settled {m : Nat} {e : Int} (pos : 0 < m) (small : m ≤ 2 ^ 53) (low : -1074 ≤ e)
    (full : 2 ^ 52 ≤ m ∨ e = -1074) :
    ∃ k e', shiftToTargetExponent Format.binary64 m e .exact = (⟨k, false, false⟩, e') ∧ 0 < k ∧
      Fits k e' ∧ k * 2 ^ (e' + 1074).toNat = m * 2 ^ (e + 1074).toNat := by
  rcases small.lt_or_eq with hlt | rfl
  · have hlog := log2_le pos hlt
    have hamount : (max (m.log2 + e - 52) (-1074) - e).toNat = 0 := by omega
    refine ⟨m, e, ?_, pos, ⟨hlt, low, full⟩, rfl⟩
    simp only [shiftToTargetExponent, targetExponent_eq, shiftToExponent, hamount]
    simp [HShiftRight.hShiftRight, Nat.repeat, ExtendedMantissa.ofMantissaAndAccuracy]
  · refine ⟨2 ^ 52, e + 1, ?_, by decide, ⟨by decide, by omega, Or.inl le_rfl⟩, ?_⟩
    · exact shiftToTargetExponent_exact 1 (by decide) (by omega)
    · rw [← Nat.pow_add, ← Nat.pow_add]
      congr 1
      omega

/-- A positive number that is written as a double writes it, and its number of units. -/
def Counts (n : Nat) (u : UnpackedFloat) : Prop :=
  ∃ m e pos, u = .finite .positive m e pos ∧ Fits m e ∧ m * 2 ^ (e + 1074).toNat = n

lemma log2_append {q c k : Nat} (pos : 0 < q) (small : k < 2 ^ c) :
    (q * 2 ^ c + k).log2 = q.log2 + c := by
  refine (Nat.log2_eq_iff (by positivity)).mpr ⟨?_, ?_⟩
  · rw [Nat.pow_add]
    exact (Nat.mul_le_mul_right _ (Nat.log2_self_le pos.ne')).trans (Nat.le_add_right _ _)
  · calc q * 2 ^ c + k < q * 2 ^ c + 2 ^ c := Nat.add_lt_add_left small _
      _ = (q + 1) * 2 ^ c := (Nat.succ_mul q _).symm
      _ ≤ 2 ^ (q.log2 + 1) * 2 ^ c := Nat.mul_le_mul_right _ Nat.lt_log2_self
      _ = 2 ^ (q.log2 + c + 1) := by rw [← Nat.pow_add, Nat.add_right_comm]

/-- Rounding a quotient and its rest, if the quotient has at least as many bits as a double. -/
lemma counts_roundWithAccuracy_rest {q r d : Nat} {e : Int} (pos : 0 < q) (hr : r < d)
    (low : -1074 ≤ e) (high : e ≤ max (q.log2 + e - 52) (-1074)) :
    Counts (roundFraction ((q * d + r) * 2 ^ (e + 1074).toNat) d)
      (roundWithAccuracy Format.binary64 .positive q e (restAccuracy r d)) := by
  have hd : 0 < d := Nat.zero_lt_of_lt hr
  obtain ⟨s, hs⟩ : ∃ s : Nat, max (q.log2 + e - 52) (-1074) = e + s :=
    ⟨(max (q.log2 + e - 52) (-1074) - e).toNat, by omega⟩
  have hamount : (e + s - e).toNat = s := by omega
  obtain ⟨c, hc⟩ : ∃ c, (e + 1074).toNat = c := ⟨_, rfl⟩
  -- The number of units has the same mantissa, and the zeros after it fill what is shifted out.
  have hquotient : (q * d + r) * 2 ^ c / d = q * 2 ^ c + r * 2 ^ c / d := by
    rw [Nat.add_mul, Nat.mul_right_comm, Nat.mul_comm _ d, Nat.mul_add_div hd]
  have hsmall : r * 2 ^ c / d < 2 ^ c := by
    rw [Nat.div_lt_iff_lt_mul hd, Nat.mul_comm]
    exact Nat.mul_lt_mul_of_pos_left hr (Nat.two_pow_pos c)
  have hlog : ((q * d + r) * 2 ^ c / d).log2 - 52 = s + c := by
    rw [hquotient, log2_append pos hsmall]
    omega
  have hrounded : roundDivEven ((q * d + r) * 2 ^ c) (d * 2 ^ (s + c)) =
      roundDivEven (q * d + r) (d * 2 ^ s) := by
    rw [Nat.pow_add, ← Nat.mul_assoc, roundDivEven_mul _ _ (Nat.two_pow_pos _)]
  have hunits : roundFraction ((q * d + r) * 2 ^ c) d =
      roundDivEven (q * d + r) (d * 2 ^ s) * 2 ^ (e + s + 1074).toNat := by
    rw [roundFraction, hlog, hrounded]
    congr 2
    omega
  have hbounds := roundDivEven_log2_bounds ((q * d + r) * 2 ^ c) d
  rw [hlog, hrounded] at hbounds
  have hfull : 2 ^ 52 ≤ roundDivEven (q * d + r) (d * 2 ^ s) ∨ e + s = -1074 := by
    by_cases hleast : e + s = -1074
    · exact Or.inr hleast
    · exact Or.inl (hbounds.2 (by rw [hquotient, log2_append pos hsmall]; omega))
  have hpos : 0 < roundDivEven (q * d + r) (d * 2 ^ s) := by
    rcases hfull with hfull | hleast
    · omega
    · obtain rfl : s = 0 := by omega
      rw [Nat.pow_zero, Nat.mul_one]
      calc 0 < q := pos
        _ ≤ (q * d + r) / d := (Nat.le_div_iff_mul_le hd).mpr (Nat.le_add_right _ _)
        _ ≤ roundDivEven (q * d + r) d := (roundDivEven_bounds _ _).1
  obtain ⟨k, e', hshift, hk, hfits, hsame⟩ :=
    exists_settled hpos hbounds.1 (show -1074 ≤ e + s by omega) hfull
  refine ⟨k, e', hk, ?_, hfits, ?_⟩
  · have hfirst : shiftToTargetExponent Format.binary64 q e (restAccuracy r d) =
        (Nat.repeat ExtendedMantissa.shiftRightOne s
          (.ofMantissaAndAccuracy q (restAccuracy r d)), e + s) := by
      simp only [shiftToTargetExponent, targetExponent_eq, shiftToExponent, hs, hamount]
      rfl
    simp only [roundWithAccuracy, hfirst, roundedMantissa_rest q s hr, hshift, hk.ne', dif_neg,
      not_false_eq_true]
  · rw [hc, hunits]
    exact hsame

lemma counts_roundWithAccuracy {m : Nat} {e : Int} (pos : 0 < m) (low : -1074 ≤ e)
    (high : e ≤ max (m.log2 + e - 52) (-1074)) :
    Counts (roundUnits (m * 2 ^ (e + 1074).toNat))
      (roundWithAccuracy Format.binary64 .positive m e .exact) := by
  have hcounts := counts_roundWithAccuracy_rest pos Nat.one_pos low high
  rwa [Nat.mul_one, Nat.add_zero, roundFraction_one] at hcounts

lemma counts_round {m : Nat} {e : Int} (pos : 0 < m) (low : -1074 ≤ e) :
    Counts (roundUnits (m * 2 ^ (e + 1074).toNat))
      (UnpackedFloat.round Format.binary64 .positive m e) := by
  obtain ⟨a, ha⟩ : ∃ a : Nat, (e - max (m.log2 + e - 52) (-1074)).toNat = a := ⟨_, rfl⟩
  have hunits : m * 2 ^ a * 2 ^ (e - a + 1074).toNat = m * 2 ^ (e + 1074).toNat := by
    rw [Nat.mul_assoc, ← Nat.pow_add]
    congr 2
    omega
  have hcounts := counts_roundWithAccuracy (Nat.mul_pos pos (Nat.two_pow_pos a))
    (show -1074 ≤ e - a by omega) (by rw [log2_mul_two_pow pos]; omega)
  rw [hunits] at hcounts
  simpa only [UnpackedFloat.round, targetExponent_eq, decreaseExponent, ha, Nat.shiftLeft_eq]
    using hcounts

end BlockPainting
