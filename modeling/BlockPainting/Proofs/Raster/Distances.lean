import BlockPainting.Proofs.Number.Counts
import BlockPainting.Proofs.Rect.Pixels

/-!
# Distances and penalties

The distance of two colors is computed in integers up to the root, that of a color and a point in
doubles. Bytes are small enough for doubles to be exact on them, so between two colors both are the
same double. The penalty of a region is the penalty of the list of its pixels.
-/

namespace BlockPainting

namespace Color

open Float.Model

lemma channelGap_comm (a b : UInt8) : channelGap a b = channelGap b a := by
  unfold channelGap
  by_cases hab : a < b
  · have hba : ¬ b < a := fun hba => UInt8.lt_asymm hab hba
    simp only [hab, hba, if_true, if_false]
  · by_cases hba : b < a
    · simp only [hab, hba, if_true, if_false]
    · obtain rfl : a = b := UInt8.le_antisymm (UInt8.not_lt.mp hba) (UInt8.not_lt.mp hab)
      rfl

theorem distance_comm (a b : Color) : a.distance b = b.distance a := by
  simp only [distance, channelGap_comm a.red, channelGap_comm a.green, channelGap_comm a.blue,
    channelGap_comm a.alpha]

lemma normalize_toUInt64 {n : Nat} (small : n < 2 ^ 64) :
    Float.ofModel (.pack (UnpackedFloat.normalize Format.binary64 (n : Int) 0 .positive)) =
      countToFloat n := by
  have hbits : n.toUInt64.toNat = n := Nat.mod_eq_of_lt small
  change _ = Float.ofModel (.pack
    (UnpackedFloat.normalize Format.binary64 (n.toUInt64.toNat : Int) 0 .positive))
  rw [hbits]

lemma toFloat_byte (a : UInt8) : a.toFloat = countToFloat a.toNat :=
  normalize_toUInt64 (a.toNat_lt.trans (by decide))

lemma toFloat_word (a : UInt32) : a.toFloat = countToFloat a.toNat :=
  normalize_toUInt64 (a.toNat_lt.trans (by decide))

/-- The bytes are subtracted the way round that does not wrap. -/
lemma toNat_byteGap (a b : UInt8) :
    (if a < b then b - a else a - b).toNat = gap a.toNat b.toNat := by
  by_cases hlt : a < b
  · rw [if_pos hlt, gap, if_pos (UInt8.lt_iff_toNat_lt.mp hlt),
      UInt8.toNat_sub_of_le _ _ (UInt8.le_of_lt hlt)]
  · rw [if_neg hlt, gap, if_neg (fun h => hlt (UInt8.lt_iff_toNat_lt.mpr h)),
      UInt8.toNat_sub_of_le _ _ (UInt8.not_lt.mp hlt)]

lemma gap_mul_gap_le (a b : UInt8) : gap a.toNat b.toNat * gap a.toNat b.toNat ≤ 255 * 255 := by
  have hgap : gap a.toNat b.toNat ≤ 255 := by
    rw [← toNat_byteGap]
    exact Nat.le_of_lt_succ (UInt8.toNat_lt _)
  exact Nat.mul_le_mul hgap hgap

lemma toNat_channelGap (a b : UInt8) :
    (channelGap a b).toNat = gap a.toNat b.toNat * gap a.toNat b.toNat := by
  have hsmall := gap_mul_gap_le a b
  simp only [channelGap, UInt32.toNat_mul, UInt8.toNat_toUInt32, toNat_byteGap]
  exact Nat.mod_eq_of_lt (by omega)

lemma square_sub_byte (a b : UInt8) :
    (a.toFloat - b.toFloat) * (a.toFloat - b.toFloat) = countToFloat (channelGap a b).toNat := by
  have hsmall := gap_mul_gap_le a b
  have ha := a.toNat_lt
  have hb := b.toNat_lt
  rw [toFloat_byte, toFloat_byte, toNat_channelGap]
  exact sub_mul_self_countToFloat (by omega) (by omega) (by omega)

theorem distance_eq_distanceTo (a b : Color) : a.distance b = a.distanceTo b.toPoint := by
  have hgap (u v : UInt8) : (channelGap u v).toNat ≤ 255 * 255 := by
    rw [toNat_channelGap]
    exact gap_mul_gap_le u v
  have hred := hgap a.red b.red
  have hgreen := hgap a.green b.green
  have hblue := hgap a.blue b.blue
  have halpha := hgap a.alpha b.alpha
  simp only [distanceTo, toPoint, square_sub_byte, distance, toFloat_word, UInt32.toNat_add]
  rw [countToFloat_add (by omega), countToFloat_add (by omega), countToFloat_add (by omega)]
  congr 2
  omega

end Color

namespace Similarity

theorem pairwise_replicate (pixels : List Color) (c : Color) :
    pairwise (List.replicate pixels.length c) pixels = toColor pixels c := by
  have hfold : ∀ (ps : List Color) (sum : Float),
      ((List.replicate ps.length c).zip ps).foldl (fun sum pq => sum + pq.1.distance pq.2) sum =
        ps.foldl (fun sum p => sum + p.distance c) sum := by
    intro ps
    induction ps with
    | nil => intro sum; rfl
    | cons p ps ih =>
      intro sum
      rw [List.length_cons, List.replicate_succ, List.zip_cons_cons, List.foldl_cons,
        List.foldl_cons, ih, Color.distance_comm c p]
  rw [pairwise, toColor, hfold]

end Similarity

namespace Raster

theorem similarity_eq_toColor (r : Raster) (rect : Rect) (c : Color) :
    r.similarity rect c = Similarity.toColor (r.region rect) c := by
  rw [similarity, Rect.foldCells_eq_foldl, Similarity.toColor, region, List.foldl_map]

theorem similarityTo_eq_pairwise (r other : Raster) (rect : Rect) :
    r.similarityTo other rect = Similarity.pairwise (r.region rect) (other.region rect) := by
  rw [similarityTo, Rect.foldCells_eq_foldl, Similarity.pairwise, region, region, List.zip_map',
    List.foldl_map]

theorem similarityTo_of_uniform {painted target : Raster} {rect : Rect} {c : Color}
    (uniform : ∀ p : Nat × Nat, p ∈ rect → painted.pixel p.1 p.2 = c) :
    painted.similarityTo target rect = target.similarity rect c := by
  have hregion : painted.region rect = List.replicate (target.region rect).length c := by
    refine List.eq_replicate_iff.mpr ⟨?_, ?_⟩
    · rw [region, region, List.length_map, List.length_map]
    · intro pixel hpixel
      obtain ⟨p, hp, rfl⟩ := List.mem_map.mp hpixel
      exact uniform p (Rect.mem_cells.mp hp)
  rw [similarityTo_eq_pairwise, hregion, Similarity.pairwise_replicate, similarity_eq_toColor]

end Raster

end BlockPainting
