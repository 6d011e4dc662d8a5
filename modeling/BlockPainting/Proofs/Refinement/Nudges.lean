import BlockPainting.Refinement
import Mathlib.Data.List.Pairwise
import Mathlib.Data.List.Range
import Mathlib.Tactic.Lemma

/-!
# The variants of a cut

`Nudged` says what a variant may be without telling how it is found: a cut of the same block, of the
same kind and along the same axis, none of whose coordinates moved by more than the radius. The
variants of an instruction are exactly these, the instruction itself left out, and they come in
increasing order of their coordinates.
-/

namespace BlockPainting.Refinement

def Near (radius a b : Nat) : Prop :=
  a ≤ b + radius ∧ b ≤ a + radius

/-- The second instruction is the first one, a cut, moved by at most `radius` in each coordinate. -/
inductive Nudged (radius : Nat) : Instruction → Instruction → Prop
  | lineCut (block : BlockId) (axis : Axis) {p p' : Nat} (near : Near radius p p')
      (fits : p' ≤ maxCoordinate) :
      Nudged radius (.lineCut block axis p) (.lineCut block axis p')
  | pointCut (block : BlockId) {x y x' y' : Nat} (nearX : Near radius x x')
      (nearY : Near radius y y') (fits : x' ≤ maxCoordinate ∧ y' ≤ maxCoordinate) :
      Nudged radius (.pointCut block x y) (.pointCut block x' y')

/-- Cuts of one kind in the order of their coordinates, `x` before `y`. -/
def Earlier : Instruction → Instruction → Prop
  | .lineCut _ _ p, .lineCut _ _ p' => p < p'
  | .pointCut _ x y, .pointCut _ x' y' => x < x' ∨ (x = x' ∧ y < y')
  | _, _ => False

variable {radius : Nat} {i v : Instruction}

lemma mem_offsets {d : Int} : d ∈ offsets radius ↔ -(radius : Int) ≤ d ∧ d ≤ radius := by
  simp only [offsets, List.mem_map, List.mem_range]
  constructor
  · rintro ⟨k, hk, rfl⟩
    omega
  · rintro ⟨hlow, hhigh⟩
    exact ⟨(d + radius).toNat, by omega, by omega⟩

lemma offsets_pairwise (radius : Nat) : (offsets radius).Pairwise (· < ·) := by
  rw [offsets, List.pairwise_map]
  refine List.pairwise_lt_range.imp ?_
  intro a b hab
  omega

lemma shifted_eq_some {value moved : Nat} {d : Int} :
    shifted value d = some moved ↔ (moved : Int) = value + d ∧ moved ≤ maxCoordinate := by
  simp only [shifted]
  split
  · rename_i h
    rw [Option.some.injEq]
    omega
  · rename_i h
    simp only [reduceCtorEq, false_iff]
    omega

lemma shiftedPoint_eq_some {x y : Nat} {d : Int × Int} {p : Nat × Nat} :
    shiftedPoint x y d = some p ↔ shifted x d.1 = some p.1 ∧ shifted y d.2 = some p.2 := by
  obtain ⟨x', y'⟩ := p
  simp [shiftedPoint, Option.bind_eq_some_iff]

lemma exists_shifted_iff {value moved : Nat} :
    (∃ d ∈ offsets radius, shifted value d = some moved) ↔
      Near radius value moved ∧ moved ≤ maxCoordinate := by
  simp only [mem_offsets, shifted_eq_some, Near]
  constructor
  · rintro ⟨d, hd, hmoved, hfits⟩
    omega
  · rintro ⟨hnear, hfits⟩
    exact ⟨(moved : Int) - value, by omega, by omega, hfits⟩

lemma mem_nudges_lineCut {block : BlockId} {axis : Axis} {p : Nat} :
    v ∈ nudges radius (.lineCut block axis p) ↔
      ∃ d p', d ∈ offsets radius ∧ d ≠ 0 ∧ shifted p d = some p' ∧ .lineCut block axis p' = v := by
  simp only [nudges, List.mem_map, List.mem_filterMap, List.mem_filter, decide_eq_true_eq]
  constructor
  · rintro ⟨p', ⟨d, ⟨hd, hne⟩, hshift⟩, rfl⟩
    exact ⟨d, p', hd, hne, hshift, rfl⟩
  · rintro ⟨d, p', hd, hne, hshift, rfl⟩
    exact ⟨p', ⟨d, ⟨hd, hne⟩, hshift⟩, rfl⟩

lemma mem_nudges_pointCut {block : BlockId} {x y : Nat} :
    v ∈ nudges radius (.pointCut block x y) ↔
      ∃ dx dy x' y', dx ∈ offsets radius ∧ dy ∈ offsets radius ∧ (dx ≠ 0 ∨ dy ≠ 0) ∧
        shifted x dx = some x' ∧ shifted y dy = some y' ∧ .pointCut block x' y' = v := by
  simp only [nudges, List.mem_map, List.mem_filterMap, List.mem_filter, List.mem_flatMap,
    decide_eq_true_eq, shiftedPoint_eq_some, Prod.exists]
  constructor
  · rintro ⟨x', y', ⟨_, _, ⟨⟨_, hx, _, hy, heq⟩, hne⟩, hshift⟩, rfl⟩
    cases heq
    refine ⟨_, _, x', y', hx, hy, ?_, hshift.1, hshift.2, rfl⟩
    rw [← not_and_or]
    rintro ⟨rfl, rfl⟩
    exact hne rfl
  · rintro ⟨dx, dy, x', y', hx, hy, hne, hshift, hshift', rfl⟩
    refine ⟨x', y', ⟨dx, dy, ⟨⟨dx, hx, dy, hy, rfl⟩, ?_⟩, hshift, hshift'⟩, rfl⟩
    intro heq
    cases heq
    simp at hne

lemma eq_iff_of_shifted {value moved : Nat} {d : Int} (h : shifted value d = some moved) :
    moved = value ↔ d = 0 := by
  have hmoved := shifted_eq_some.mp h
  omega

theorem mem_nudges : v ∈ nudges radius i ↔ Nudged radius i v ∧ v ≠ i := by
  cases i with
  | lineCut block axis p =>
    rw [mem_nudges_lineCut]
    constructor
    · rintro ⟨d, p', hd, hne, hshift, rfl⟩
      have hnear := exists_shifted_iff.mp ⟨d, hd, hshift⟩
      refine ⟨.lineCut block axis hnear.1 hnear.2, ?_⟩
      intro heq
      cases heq
      exact hne ((eq_iff_of_shifted hshift).mp rfl)
    · rintro ⟨nudged, hne⟩
      cases nudged with
      | @lineCut _ _ _ p' near fits =>
        obtain ⟨d, hd, hshift⟩ := exists_shifted_iff.mpr ⟨near, fits⟩
        refine ⟨d, p', hd, ?_, hshift, rfl⟩
        intro hzero
        obtain rfl := (eq_iff_of_shifted hshift).mpr hzero
        exact hne rfl
  | pointCut block x y =>
    rw [mem_nudges_pointCut]
    constructor
    · rintro ⟨dx, dy, x', y', hdx, hdy, hne, hshift, hshift', rfl⟩
      have hnear := exists_shifted_iff.mp ⟨dx, hdx, hshift⟩
      have hnear' := exists_shifted_iff.mp ⟨dy, hdy, hshift'⟩
      refine ⟨.pointCut block hnear.1 hnear'.1 ⟨hnear.2, hnear'.2⟩, ?_⟩
      intro heq
      cases heq
      rcases hne with hne | hne
      · exact hne ((eq_iff_of_shifted hshift).mp rfl)
      · exact hne ((eq_iff_of_shifted hshift').mp rfl)
    · rintro ⟨nudged, hne⟩
      cases nudged with
      | @pointCut _ _ _ x' y' nearX nearY fits =>
        obtain ⟨dx, hdx, hshift⟩ := exists_shifted_iff.mpr ⟨nearX, fits.1⟩
        obtain ⟨dy, hdy, hshift'⟩ := exists_shifted_iff.mpr ⟨nearY, fits.2⟩
        refine ⟨dx, dy, x', y', hdx, hdy, ?_, hshift, hshift', rfl⟩
        rw [← not_and_or]
        rintro ⟨hx, hy⟩
        obtain rfl := (eq_iff_of_shifted hshift).mpr hx
        obtain rfl := (eq_iff_of_shifted hshift').mpr hy
        exact hne rfl
  | color | merge | swap =>
    -- Only cuts are moved.
    refine iff_of_false List.not_mem_nil ?_
    rintro ⟨nudged, _⟩
    cases nudged

theorem nudges_pairwise (radius : Nat) (i : Instruction) :
    (nudges radius i).Pairwise Earlier := by
  cases i with
  | lineCut block axis p =>
    simp only [nudges, List.pairwise_map, List.pairwise_filterMap]
    refine ((offsets_pairwise radius).filter _).imp ?_
    intro d d' hlt q hq q' hq'
    have h := shifted_eq_some.mp hq
    have h' := shifted_eq_some.mp hq'
    change q < q'
    omega
  | pointCut block x y =>
    simp only [nudges, List.pairwise_map, List.pairwise_filterMap]
    -- Moves are tried by columns, and within a column by rows.
    have hmoves :
        ((offsets radius).flatMap fun dx => (offsets radius).map fun dy => (dx, dy)).Pairwise
          fun m m' : Int × Int => m.1 < m'.1 ∨ (m.1 = m'.1 ∧ m.2 < m'.2) := by
      rw [List.pairwise_flatMap]
      constructor
      · intro dx _
        rw [List.pairwise_map]
        exact (offsets_pairwise radius).imp fun hlt => Or.inr ⟨rfl, hlt⟩
      · refine (offsets_pairwise radius).imp ?_
        intro dx dx' hlt m hm m' hm'
        obtain ⟨_, _, rfl⟩ := List.mem_map.mp hm
        obtain ⟨_, _, rfl⟩ := List.mem_map.mp hm'
        exact Or.inl hlt
    refine (hmoves.filter _).imp ?_
    intro m m' hlt q hq q' hq'
    rw [shiftedPoint_eq_some, shifted_eq_some, shifted_eq_some] at hq hq'
    change q.1 < q'.1 ∨ (q.1 = q'.1 ∧ q.2 < q'.2)
    omega
  | color | merge | swap => exact List.Pairwise.nil

end BlockPainting.Refinement
