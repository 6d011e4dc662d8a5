import BlockPainting.Proofs.Number.Order

/-!
# The first of the least

A choice that goes through a list and changes only for something that is strictly less ends at the
first of the least. So it does where scores are doubles from zero on, since their order is that of
their numbers of units.
-/

namespace BlockPainting

def FirstLeast {α β : Type} [LT β] [LE β] (score : α → β) (best : α) (all : List α) : Prop :=
  ∃ before after, all = before ++ best :: after ∧ (∀ a ∈ before, score best < score a) ∧
    ∀ a ∈ after, score best ≤ score a

/-- The one that scores less, the earlier one if none does. -/
def lesser {α β : Type} [LT β] [DecidableLT β] (score : α → β) (best later : α) : α :=
  if score later < score best then later else best

variable {α β γ : Type}

lemma FirstLeast.mem [LT β] [LE β] {score : α → β} {best : α} {all : List α}
    (h : FirstLeast score best all) : best ∈ all := by
  obtain ⟨before, after, rfl, _⟩ := h
  simp

lemma FirstLeast.of_map [LT β] [LE β] {score : α → β} {best : α} {f : γ → α} {all : List γ}
    (h : FirstLeast score best (all.map f)) :
    ∃ c, f c = best ∧ FirstLeast (fun c => score (f c)) c all := by
  obtain ⟨before, after, heq, hbefore, hafter⟩ := h
  obtain ⟨before, rest, rfl, rfl, hrest⟩ := List.map_eq_append_iff.mp heq
  obtain ⟨c, after, rfl, rfl, rfl⟩ := List.map_eq_cons_iff.mp hrest
  exact ⟨c, rfl, before, after, rfl, by simpa using hbefore, by simpa using hafter⟩

section LinearOrder

variable [LinearOrder β] {score : α → β} {best best' : α} {all : List α}

lemma FirstLeast.le (h : FirstLeast score best all) {a : α} (ha : a ∈ all) :
    score best ≤ score a := by
  obtain ⟨before, after, rfl, hbefore, hafter⟩ := h
  rcases List.mem_append.mp ha with ha | ha
  · exact (hbefore a ha).le
  · rcases List.mem_cons.mp ha with rfl | ha
    · exact le_rfl
    · exact hafter a ha

lemma FirstLeast.unique (h : FirstLeast score best all) (h' : FirstLeast score best' all) :
    best = best' := by
  have hle := h.le h'.mem
  have hle' := h'.le h.mem
  obtain ⟨before, after, rfl, hbefore, _⟩ := h
  obtain ⟨before', after', heq, hbefore', _⟩ := h'
  -- The one that stands later would score less than the other.
  rcases List.append_eq_append_iff.mp heq with ⟨between, rfl, hrest⟩ | ⟨between, rfl, hrest⟩
  · cases between with
    | nil => exact (List.cons.inj hrest).1
    | cons b between =>
      obtain rfl := (List.cons.inj hrest).1
      exact absurd (hbefore' best (by simp)) hle.not_gt
  · cases between with
    | nil => exact (List.cons.inj hrest).1.symm
    | cons b between =>
      obtain rfl := (List.cons.inj hrest).1
      exact absurd (hbefore best' (by simp)) hle'.not_gt

lemma FirstLeast.lesser (h : FirstLeast score best all) (later : α) :
    FirstLeast score (lesser score best later) (all ++ [later]) := by
  unfold BlockPainting.lesser
  split
  · rename_i hlt
    exact ⟨all, [], rfl, fun a ha => hlt.trans_le (h.le ha), by simp⟩
  · rename_i hnot
    obtain ⟨before, after, rfl, hbefore, hafter⟩ := h
    refine ⟨before, after ++ [later], by simp, hbefore, ?_⟩
    exact List.forall_mem_append.mpr ⟨hafter, by simpa using hnot⟩

theorem firstLeast_foldl (first : α) (rest : List α) :
    FirstLeast score (rest.foldl (lesser score) first) (first :: rest) := by
  induction rest using List.reverseRecOn with
  | nil => exact ⟨[], [], rfl, by simp, by simp⟩
  | append_singleton rest later ih =>
    rw [List.foldl_append, ← List.cons_append]
    exact ih.lesser later

end LinearOrder

section Doubles

variable {score : α → Float} {best first : α} {all rest : List α}

lemma firstLeast_units_iff (nonneg : ∀ a ∈ all, 0.0 ≤ score a) :
    FirstLeast score best all ↔ FirstLeast (fun a => units (score a)) best all := by
  refine exists_congr fun before => exists_congr fun after => and_congr_right ?_
  rintro rfl
  rw [List.forall_mem_append, List.forall_mem_cons] at nonneg
  obtain ⟨hbefore, hbest, hafter⟩ := nonneg
  refine and_congr ?_ ?_
  · exact forall₂_congr fun a ha => lt_iff_units hbest (hbefore a ha)
  · exact forall₂_congr fun a ha => le_iff_units hbest (hafter a ha)

lemma foldl_lesser_units (nonneg : ∀ a ∈ first :: rest, 0.0 ≤ score a) :
    rest.foldl (lesser score) first = rest.foldl (lesser fun a => units (score a)) first := by
  induction rest generalizing first with
  | nil => rfl
  | cons later rest ih =>
    rw [List.forall_mem_cons, List.forall_mem_cons] at nonneg
    obtain ⟨hfirst, hlater, hrest⟩ := nonneg
    have hsame : lesser score first later = lesser (fun a => units (score a)) first later := by
      simp only [lesser, lt_iff_units hlater hfirst]
    rw [List.foldl_cons, List.foldl_cons, ← hsame]
    refine ih (List.forall_mem_cons.mpr ⟨?_, hrest⟩)
    unfold lesser
    split
    · exact hlater
    · exact hfirst

theorem firstLeast_foldl_of_nonneg (nonneg : ∀ a ∈ first :: rest, 0.0 ≤ score a) :
    FirstLeast score (rest.foldl (lesser score) first) (first :: rest) := by
  rw [firstLeast_units_iff nonneg, foldl_lesser_units nonneg]
  exact firstLeast_foldl first rest

lemma FirstLeast.le_of_nonneg (h : FirstLeast score best all) (nonneg : ∀ a ∈ all, 0.0 ≤ score a)
    {a : α} (ha : a ∈ all) : score best ≤ score a :=
  (le_iff_units (nonneg best h.mem) (nonneg a ha)).mpr (((firstLeast_units_iff nonneg).mp h).le ha)

end Doubles

end BlockPainting
