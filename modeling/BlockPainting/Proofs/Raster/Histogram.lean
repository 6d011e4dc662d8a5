import BlockPainting.ColorEstimate
import BlockPainting.Proofs.Raster.Regions

/-!
# What a color estimate depends on

A histogram lists the colors of a region in order, each with the number of its pixels. There is one
such list for a region, in whatever order the colors are counted, and it is the same for all regions
that hold the same colors equally often. So is everything computed from it, although floating-point
sums depend on their order.
-/

namespace BlockPainting

namespace Color

/-- Red decides which color comes first, then green, then blue, then alpha. -/
def Before (c d : Color) : Prop :=
  c.red < d.red ∨ c.red = d.red ∧ (c.green < d.green ∨ c.green = d.green ∧
    (c.blue < d.blue ∨ c.blue = d.blue ∧ c.alpha < d.alpha))

lemma before_iff {c d : Color} : c.Before d ↔ c.code < d.code := by
  have hgreen := c.green.toNat_lt
  have hgreen' := d.green.toNat_lt
  have hblue := c.blue.toNat_lt
  have hblue' := d.blue.toNat_lt
  have halpha := c.alpha.toNat_lt
  have halpha' := d.alpha.toNat_lt
  simp only [Before, code, UInt8.lt_iff_toNat_lt, ← UInt8.toNat_inj]
  omega

lemma code_inj {c d : Color} (h : c.code = d.code) : c = d := by
  obtain ⟨red, green, blue, alpha⟩ := c
  obtain ⟨red', green', blue', alpha'⟩ := d
  have hgreen := green.toNat_lt
  have hgreen' := green'.toNat_lt
  have hblue := blue.toNat_lt
  have hblue' := blue'.toNat_lt
  have halpha := alpha.toNat_lt
  have halpha' := alpha'.toNat_lt
  simp only [code] at h
  simp only [mk.injEq, ← UInt8.toNat_inj]
  omega

lemma compare_eq_lt_iff {c d : Color} : compare c d = .lt ↔ c.Before d :=
  Nat.compare_eq_lt.trans before_iff.symm

instance : Std.TransOrd Color :=
  inferInstanceAs (Std.TransCmp (compareOn code))

instance : Std.LawfulEqOrd Color where
  compare_self := Nat.compare_eq_eq.mpr rfl
  eq_of_compare h := code_inj (Nat.compare_eq_eq.mp h)

lemma Before.asymm {c d : Color} (h : c.Before d) : ¬ d.Before c := by
  simp only [before_iff] at h ⊢
  omega

lemma eq_of_not_before {c d : Color} (h : ¬ c.Before d) (h' : ¬ d.Before c) : c = d := by
  simp only [before_iff] at h h'
  apply code_inj
  omega

end Color

/-- The colors of a list in order, each once and with the number of times it occurs. -/
structure Tallies (colors : List Color) (entries : List (Color × Nat)) : Prop where
  increasing : entries.Pairwise fun e f => e.1.Before f.1
  mem_iff : ∀ c n, (c, n) ∈ entries ↔ 0 < n ∧ colors.count c = n

namespace Tallies

variable {colors : List Color} {entries entries' : List (Color × Nat)}

lemma nodup (tallies : Tallies colors entries) : entries.Nodup := by
  refine tallies.increasing.imp ?_
  rintro e _ before rfl
  exact before.asymm before

lemma eq_of_fst_eq (tallies : Tallies colors entries) {e f : Color × Nat} (he : e ∈ entries)
    (hf : f ∈ entries) (h : e.1 = f.1) : e = f := by
  have hcount := ((tallies.mem_iff _ _).mp he).2
  have hcount' := ((tallies.mem_iff _ _).mp hf).2
  exact Prod.ext h (by rw [← hcount, ← hcount', h])

/-- However the counts are gathered, sorting them by color gives one list. -/
lemma eq_of_sorted (tallies : Tallies colors entries) (perm : entries'.Perm entries)
    (sorted : entries'.Pairwise fun e f => ¬ f.1.Before e.1) : entries' = entries := by
  have hsorted : entries.Pairwise fun e f => ¬ f.1.Before e.1 :=
    tallies.increasing.imp fun before => before.asymm
  refine List.Perm.eq_of_pairwise ?_ sorted hsorted perm
  intro e f he hf h h'
  exact tallies.eq_of_fst_eq (perm.mem_iff.mp he) hf (Color.eq_of_not_before h' h)

lemma unique (tallies : Tallies colors entries) (tallies' : Tallies colors entries') :
    entries' = entries := by
  have hperm : entries'.Perm entries := by
    refine (List.perm_ext_iff_of_nodup tallies'.nodup tallies.nodup).mpr ?_
    rintro ⟨c, n⟩
    exact (tallies'.mem_iff c n).trans (tallies.mem_iff c n).symm
  exact tallies.eq_of_sorted hperm (tallies'.increasing.imp fun before => before.asymm)

lemma sum_eq (tallies : Tallies colors entries) :
    (entries.map Prod.snd).sum = colors.length := by
  have hcolors : (entries.map Prod.fst).Perm colors.dedup := by
    have hnodup : (entries.map Prod.fst).Nodup := by
      refine List.pairwise_map.mpr (tallies.increasing.imp ?_)
      intro e f before heq
      exact (heq ▸ before).asymm (heq ▸ before)
    refine (List.perm_ext_iff_of_nodup hnodup colors.nodup_dedup).mpr ?_
    intro c
    simp only [List.mem_map, List.mem_dedup, Prod.exists, exists_and_right, exists_eq_right,
      tallies.mem_iff]
    rw [← List.count_pos_iff]
    exact ⟨fun ⟨n, hpos, hn⟩ => hn ▸ hpos, fun h => ⟨_, h, rfl⟩⟩
  have hcounts : entries.map Prod.snd = (entries.map Prod.fst).map fun c => colors.count c := by
    rw [List.map_map]
    refine List.map_congr_left fun e he => ?_
    exact ((tallies.mem_iff _ _).mp he).2.symm
  rw [hcounts, (hcolors.map _).sum_eq, List.sum_map_count_dedup_eq_length]

end Tallies

namespace Raster

variable {r r' : Raster} {a a' : Rect}

def tally (counts : Std.TreeMap Color Nat) (c : Color) : Std.TreeMap Color Nat :=
  counts.alter c fun n => some (n.getD 0 + 1)

lemma counts_eq (r : Raster) (a : Rect) : r.counts a = (r.region a).foldl tally ∅ := by
  rw [counts, Rect.foldCells_eq_foldl, region, List.foldl_map]
  rfl

lemma getElem?_foldl_tally {colors : List Color} {c : Color} {n : Nat} :
    (colors.foldl tally ∅)[c]? = some n ↔ 0 < n ∧ colors.count c = n := by
  induction colors using List.reverseRecOn generalizing c n with
  | nil =>
    simp only [List.foldl_nil, List.count_nil, Std.TreeMap.getElem?_emptyc, reduceCtorEq, false_iff]
    omega
  | append_singleton colors d ih =>
    have hcount : ((colors.foldl tally ∅)[c]?).getD 0 = colors.count c := by
      cases h : (colors.foldl tally ∅)[c]? with
      | some m => exact (ih.mp h).2.symm
      | none =>
        by_contra hpos
        have hsome := ih.mpr ⟨Nat.pos_of_ne_zero (Ne.symm hpos), rfl⟩
        rw [h] at hsome
        cases hsome
    rw [List.foldl_append, List.foldl_cons, List.foldl_nil, tally, Std.TreeMap.getElem?_alter,
      List.count_append, List.count_singleton]
    by_cases hd : d = c
    · subst hd
      rw [if_pos Std.ReflCmp.compare_self, hcount, Option.some.injEq, beq_self_eq_true, if_pos rfl]
      omega
    · have hne : ¬ compare d c = .eq := fun h => hd (Std.LawfulEqCmp.eq_of_compare h)
      rw [if_neg hne, ih, if_neg (by simpa using hd), Nat.add_zero]

lemma tallies_histogram (r : Raster) (a : Rect) : Tallies (r.region a) (r.histogram a) where
  increasing := Std.TreeMap.ordered_keys_toList.imp Color.compare_eq_lt_iff.mp
  mem_iff c n := by
    rw [histogram, Std.TreeMap.mem_toList_iff_getElem?_eq_some, counts_eq]
    exact getElem?_foldl_tally

lemma histogram_eq (perm : (r.region a).Perm (r'.region a')) :
    r.histogram a = r'.histogram a' := by
  have tallies := tallies_histogram r' a'
  refine tallies.unique ⟨(tallies_histogram r a).increasing, fun c n => ?_⟩
  rw [(tallies_histogram r a).mem_iff, perm.count_eq]

lemma channelSum_eq (r : Raster) (a : Rect) (channel : Color → UInt8) :
    r.channelSum a channel = ((r.region a).map fun c => (channel c).toNat).sum := by
  rw [channelSum, Rect.foldCells_eq_foldl, region, List.map_map, List.sum_eq_foldl, List.foldl_map]
  rfl

lemma mean_eq (perm : (r.region a).Perm (r'.region a')) : r.mean a = r'.mean a' := by
  have harea : a.area = a'.area := by
    rw [← length_region r, ← length_region r', perm.length_eq]
  have hsum : ∀ channel, r.channelSum a channel = r'.channelSum a' channel := by
    intro channel
    rw [channelSum_eq, channelSum_eq, (perm.map _).sum_eq]
  simp only [mean, harea, hsum]

/-- The histogram of a region lists each of its colors once, in order, with the number of its
pixels, and the numbers add up to the area. Sorting the counts by color gives this list in whatever
order they were gathered. Two regions that hold the same colors equally often, in any arrangement
and on any rasters, have the same histogram, the same mean and the same median color. -/
theorem estimate_of_counts (r : Raster) (a : Rect) :
    Tallies (r.region a) (r.histogram a) ∧
    ((r.histogram a).map Prod.snd).sum = a.area ∧
    (∀ entries : List (Color × Nat), entries.Perm (r.histogram a) →
      (entries.Pairwise fun e f => ¬ f.1.Before e.1) → entries = r.histogram a) ∧
    ∀ (r' : Raster) (a' : Rect), (∀ c, (r.region a).count c = (r'.region a').count c) →
      r.histogram a = r'.histogram a' ∧ r.mean a = r'.mean a' ∧
      ∀ epsilon, (Estimator.exact epsilon).estimate r a =
        (Estimator.exact epsilon).estimate r' a' := by
  have tallies := tallies_histogram r a
  refine ⟨tallies, ?_, fun entries => tallies.eq_of_sorted, ?_⟩
  · exact tallies.sum_eq.trans (length_region r a)
  · intro r' a' same
    have hperm := List.perm_iff_count.mpr same
    refine ⟨histogram_eq hperm, mean_eq hperm, fun epsilon => ?_⟩
    simp only [Estimator.estimate, medianColor, histogram_eq hperm, mean_eq hperm]

/-- Three columns and two rows, white where column and row have the same number, else black. -/
def diagonal : Raster :=
  .ofFn 3 2 fun x y => if x = y then .white else .black

/-- Two columns and three rows, the first row white and the others black. -/
def whiteBelow : Raster :=
  .ofFn 2 3 fun _ y => if y = 0 then .white else .black

def wholeRect (width height : Nat) : Rect :=
  ⟨0, 0, width + 1, height + 1, Nat.succ_pos width, Nat.succ_pos height⟩

theorem estimate_of_counts_of_twoWhite :
    (∀ c, (diagonal.region (wholeRect 2 1)).count c =
      (whiteBelow.region (wholeRect 1 2)).count c) ∧
    diagonal.region (wholeRect 2 1) ≠ whiteBelow.region (wholeRect 1 2) ∧
    diagonal.histogram (wholeRect 2 1) = whiteBelow.histogram (wholeRect 1 2) ∧
    (Estimator.exact 0.5).estimate diagonal (wholeRect 2 1) =
      (Estimator.exact 0.5).estimate whiteBelow (wholeRect 1 2) := by
  have hperm : (diagonal.region (wholeRect 2 1)).Perm (whiteBelow.region (wholeRect 1 2)) := by
    decide
  obtain ⟨_, _, _, hsame⟩ := estimate_of_counts diagonal (wholeRect 2 1)
  obtain ⟨hhistogram, _, hestimate⟩ := hsame whiteBelow (wholeRect 1 2) hperm.count_eq
  exact ⟨hperm.count_eq, by decide, hhistogram, hestimate 0.5⟩

end Raster

end BlockPainting
