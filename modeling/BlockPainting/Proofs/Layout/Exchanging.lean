import BlockPainting.Layout.Shuffling
import BlockPainting.Proofs.Board.Reached

/-!
# Shuffles go through

A shuffle only paints initial blocks and swaps different ones of equal size. None of this takes a
block off the board or changes the size of one, so whatever comes first, the rest goes through, too.
-/

namespace BlockPainting

namespace Board

open Success

/-- Every initial block is live under its id and has kept its size. -/
def Standing (b : Board) (initial : List Block) : Prop :=
  ∀ block ∈ initial, ∃ current, b.live[block.id]? = some current ∧
    current.rect.sameSize block.rect

variable {b first : Board} {width height : Nat} {initial : List Block} {i : Instruction}
variable {c : Change}

lemma standing_start (h : start width height initial = .ok first) : first.Standing initial := by
  intro block hblock
  exact ⟨block, (live_start_iff h).mpr ⟨hblock, rfl⟩, by simp [Rect.sameSize]⟩

lemma Sized.eq_of_live (sized : b.Sized width height) {id : BlockId} {block old : Block}
    (live : b.live[id]? = some block) (live' : b.live[block.id]? = some old) : block = old := by
  rw [sized.keyed id block live, live] at live'
  exact Option.some.inj live'

/-- A change that removes nothing and replaces blocks by blocks of their size keeps all blocks. -/
lemma Standing.commit (standing : b.Standing initial) (legal : b.Legal i c)
    (keeps : c.removed = []) (sizes : ∀ a ∈ c.added, ∀ old, b.live[a.id]? = some old →
      a.rect.sameSize old.rect) : (b.commit c).Standing initial := by
  intro block hblock
  obtain ⟨current, hcurrent, hsame⟩ := standing block hblock
  by_cases hadded : ∃ a ∈ c.added, a.id = block.id
  · obtain ⟨a, ha, hid⟩ := hadded
    refine ⟨a, (live_commit_iff legal.distinct).mpr (Or.inl ⟨ha, hid⟩), ?_⟩
    have hold := sizes a ha current (hid ▸ hcurrent)
    simp only [Rect.sameSize, decide_eq_true_eq] at hold hsame ⊢
    exact ⟨hold.1.trans hsame.1, hold.2.trans hsame.2⟩
  · refine ⟨current, (getElem?_commit ?_ (by simp [keeps])).trans hcurrent, hsame⟩
    intro a ha hid
    exact hadded ⟨a, ha, hid⟩

end Board

namespace Layout

open Board

/-- What a shuffle may do to the initial blocks. -/
inductive Shuffles (initial : List Block) : Instruction → Prop
  | color {block : Block} (mem : block ∈ initial) (paint : Color) :
      Shuffles initial (.color block.id paint)
  | swap {block partner : Block} (mem : block ∈ initial) (mem' : partner ∈ initial)
      (different : block.id ≠ partner.id) (same : block.rect.sameSize partner.rect) :
      Shuffles initial (.swap block.id partner.id)

variable {b first : Board} {width height : Nat} {initial : List Block} {i : Instruction}
variable {program : List Instruction} {target : Raster} {estimate : Rect → Color}

lemma exists_apply_of_shuffles (sized : b.Sized width height) (standing : b.Standing initial)
    (shuffles : Shuffles initial i) :
    ∃ next, b.apply i = .ok next ∧ next.Sized width height ∧ next.Standing initial := by
  cases shuffles with
  | @color block mem paint =>
    obtain ⟨current, hlive, _⟩ := standing block mem
    have legal := Legal.color paint hlive
    refine ⟨_, apply_eq_ok_iff.mpr ⟨_, legal, rfl⟩, sized.commit legal.distinct,
      standing.commit legal rfl ?_⟩
    intro a ha old hold
    obtain rfl := List.mem_singleton.mp ha
    obtain rfl := sized.eq_of_live hlive hold
    simp [Rect.sameSize]
  | @swap block partner mem mem' different same =>
    obtain ⟨current, hlive, hsame⟩ := standing block mem
    obtain ⟨other, hlive', hsame'⟩ := standing partner mem'
    have hids : current.id ≠ other.id := by
      rwa [sized.keyed _ _ hlive, sized.keyed _ _ hlive']
    simp only [Rect.sameSize, decide_eq_true_eq] at same hsame hsame'
    have hequal : current.rect.sameSize other.rect := by
      simp only [Rect.sameSize, decide_eq_true_eq]
      omega
    have legal := Legal.swap hlive hlive' hids hequal
    refine ⟨_, apply_eq_ok_iff.mpr ⟨_, legal, rfl⟩, sized.commit legal.distinct,
      standing.commit legal rfl ?_⟩
    intro a ha old hold
    simp only [Rect.sameSize, decide_eq_true_eq]
    simp only [List.mem_cons, List.not_mem_nil, or_false] at ha
    rcases ha with rfl | rfl
    · obtain rfl := sized.eq_of_live hlive hold
      simp only
      omega
    · obtain rfl := sized.eq_of_live hlive' hold
      simp only
      omega

lemma exists_applyAll_of_shuffles (sized : b.Sized width height) (standing : b.Standing initial)
    (shuffles : ∀ i ∈ program, Shuffles initial i) : ∃ last, b.applyAll program = .ok last := by
  induction program generalizing b with
  | nil => exact ⟨b, rfl⟩
  | cons i rest ih =>
    rw [List.forall_mem_cons] at shuffles
    obtain ⟨next, hnext, hsized, hstanding⟩ := exists_apply_of_shuffles sized standing shuffles.1
    obtain ⟨last, hlast⟩ := ih hsized hstanding shuffles.2
    exact ⟨last, applyAll_cons_eq_ok.mpr ⟨next, hnext, hlast⟩⟩

lemma swap_of_decideBlock {blocks : List (Block × Nat)} {fixed : List Nat} {block partner : Block}
    {index other : Nat} {ideal : Color}
    (h : decideBlock target blocks fixed block index ideal = .swap other partner) :
    (partner, other) ∈ blocks ∧ other ≠ index ∧ other ∉ fixed ∧
      partner.rect.sameSize block.rect := by
  simp only [decideBlock] at h
  split at h
  · cases h
  · split at h
    · rename_i found i hfound
      cases h
      have hchosen := List.find?_some hfound
      simp only [Bool.and_eq_true, bne_iff_ne, Bool.not_eq_true', List.contains_eq_mem,
        decide_eq_false_iff_not] at hchosen
      exact ⟨List.mem_of_find?_eq_some hfound, hchosen.1.1.1.2, hchosen.1.1.2, hchosen.1.2⟩
    · split at h <;> cases h

lemma mem_of_zipIdx {block : Block} {index : Nat} (h : (block, index) ∈ initial.zipIdx) :
    initial[index]? = some block := by
  simpa using List.mem_zipIdx_iff_getElem?.mp h

lemma id_ne_of_index_ne (distinct : initial.Pairwise fun a a' => a.id ≠ a'.id) {a a' : Block}
    {j k : Nat} (h : initial[j]? = some a) (h' : initial[k]? = some a') (hne : j ≠ k) :
    a.id ≠ a'.id := by
  obtain ⟨hj, rfl⟩ := List.getElem?_eq_some_iff.mp h
  obtain ⟨hk, rfl⟩ := List.getElem?_eq_some_iff.mp h'
  rw [List.pairwise_iff_getElem] at distinct
  rcases Nat.lt_or_gt_of_ne hne with hlt | hlt
  · exact distinct j k hj hk hlt
  · exact (distinct k j hk hj hlt).symm

lemma shuffles_of_visit (distinct : initial.Pairwise fun a a' => a.id ≠ a'.id) {s : Shuffle}
    (before : ∀ i ∈ s.instructions, Shuffles initial i) {entry : Block × Nat}
    (h : entry ∈ initial.zipIdx) :
    ∀ i ∈ (visit target estimate initial.zipIdx s entry).instructions, Shuffles initial i := by
  obtain ⟨block, index⟩ := entry
  have hblock := mem_of_zipIdx h
  have hmem := List.mem_of_getElem? hblock
  simp only [visit]
  split
  · exact before
  · split
    · exact before
    · rename_i other partner hdecided
      obtain ⟨hpartner, hother, _, hsame⟩ := swap_of_decideBlock hdecided
      have hpartner := mem_of_zipIdx hpartner
      have hdifferent := id_ne_of_index_ne distinct hblock hpartner hother.symm
      refine List.forall_mem_cons.mpr
        ⟨.swap hmem (List.mem_of_getElem? hpartner) hdifferent ?_, before⟩
      exact Rect.sameSize_comm.symm.trans hsame
    · exact List.forall_mem_cons.mpr ⟨.color hmem _, before⟩
    · exact before

lemma shuffle_induction {P : Shuffle → Prop} (target : Raster) (estimator : Estimator)
    {cache : ColorCache} (first : P ⟨cache, [], []⟩)
    (step : ∀ s, ∀ entry ∈ initial.zipIdx, P s →
      P (visit target (estimator.estimate target) initial.zipIdx s entry)) :
    ∃ s, (shuffle target estimator initial cache).1 = s.instructions.reverse ∧ P s := by
  have hfold : ∀ (entries : List (Block × Nat)) (s : Shuffle),
      (∀ entry ∈ entries, entry ∈ initial.zipIdx) → P s →
      P (entries.foldl (visit target (estimator.estimate target) initial.zipIdx) s) := by
    intro entries
    induction entries with
    | nil => exact fun s _ before => before
    | cons entry rest ih =>
      intro s hentries before
      rw [List.forall_mem_cons] at hentries
      exact ih _ hentries.2 (step s entry hentries.1 before)
  exact ⟨_, rfl, hfold initial.zipIdx.reverse _ (fun _ => List.mem_reverse.mp) first⟩

lemma shuffles_of_shuffle (target : Raster) (estimator : Estimator) (cache : ColorCache)
    (distinct : initial.Pairwise fun a a' => a.id ≠ a'.id) :
    ∀ i ∈ (shuffle target estimator initial cache).1, Shuffles initial i := by
  obtain ⟨s, hs, shuffles⟩ :=
    shuffle_induction (P := fun s => ∀ i ∈ s.instructions, Shuffles initial i) target estimator
      (by simp) fun s entry hentry before => shuffles_of_visit distinct before hentry
  rw [hs]
  exact fun i hi => shuffles i (List.mem_reverse.mp hi)

theorem exists_applyAll_shuffle (estimator : Estimator) (cache : ColorCache)
    (distinct : initial.Pairwise fun a a' => a.id ≠ a'.id)
    (h : start width height initial = .ok first) :
    ∃ last, first.applyAll (shuffle target estimator initial cache).1 = .ok last :=
  exists_applyAll_of_shuffles (Reached.sized ⟨first, h, [], rfl⟩) (standing_start h)
    (shuffles_of_shuffle target estimator cache distinct)

end Layout

end BlockPainting
