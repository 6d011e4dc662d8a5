import BlockPainting.Proofs.Board.History
import BlockPainting.Proofs.Layout.Exchanging
import BlockPainting.Proofs.Raster.Strokes

/-!
# A shuffle names each block once

A block that an instruction of a shuffle names is settled, and settled blocks are neither visited
nor chosen as partners again. Blocks on the raster that share no pixel are changed only by
instructions that name them, so every instruction finds its blocks as they were when it was priced.
-/

namespace BlockPainting

namespace Board

open Success Layout

variable {b first mid next : Board} {width height : Nat} {initial rest : List Block}
variable {block : Block} {i : Instruction} {program : List Instruction}

lemma pixel_foldlM_place_of_not_mem (sized : b.Sized width height)
    (within : ∀ block ∈ rest, block.rect.Within width height)
    (h : rest.foldlM Board.place b = .ok next) {p : Nat × Nat} (hx : p.1 < width)
    (hy : p.2 < height) (hp : ∀ block ∈ rest, p ∉ block.rect) :
    next.painted.pixel p.1 p.2 = b.painted.pixel p.1 p.2 := by
  induction rest generalizing b with
  | nil =>
    cases h
    rfl
  | cons block rest ih =>
    rw [List.foldlM_cons, bind_eq_ok] at h
    obtain ⟨mid, hmid, hrest⟩ := h
    rw [List.forall_mem_cons] at within hp
    rw [ih (sized.place hmid) within.2 hrest hp.2]
    obtain ⟨_, rfl⟩ := place_eq_ok.mp hmid
    have hright := within.1.1
    rw [← sized.width_eq] at hright hx
    rw [← sized.height_eq] at hy
    exact (Raster.pixel_fill _ hright hx hy).trans (if_neg hp.1)

lemma pixel_foldlM_place (sized : b.Sized width height) (packing : Packing rest width height)
    (h : rest.foldlM Board.place b = .ok next) :
    ∀ block ∈ rest, ∀ p : Nat × Nat, p ∈ block.rect →
      next.painted.pixel p.1 p.2 = startPaint block := by
  induction rest generalizing b with
  | nil => simp
  | cons head rest ih =>
    rw [List.foldlM_cons, bind_eq_ok] at h
    obtain ⟨mid, hmid, hrest⟩ := h
    obtain ⟨distinct, apart, within⟩ := packing
    rw [List.pairwise_cons] at distinct apart
    rw [List.forall_mem_cons] at within ⊢
    refine ⟨?_, ih (sized.place hmid) ⟨distinct.2, apart.2, within.2⟩ hrest⟩
    intro p hp
    have hlt := within.1.lt hp
    rw [pixel_foldlM_place_of_not_mem (sized.place hmid) within.2 hrest hlt.1 hlt.2
      fun other hother => apart.1 other hother p hp]
    obtain ⟨_, rfl⟩ := place_eq_ok.mp hmid
    have hright := within.1.1
    rw [← sized.width_eq] at hright hlt
    rw [← sized.height_eq] at hlt
    exact (Raster.pixel_fill _ hright hlt.1 hlt.2).trans (if_pos hp)

lemma pixel_start (packing : Packing initial width height)
    (h : start width height initial = .ok first) (hblock : block ∈ initial) {p : Nat × Nat}
    (hp : p ∈ block.rect) : first.painted.pixel p.1 p.2 = startPaint block := by
  rw [start_eq] at h
  exact pixel_foldlM_place (sized_blank width height _) packing h block hblock p hp

/-- The block is live as it was on the first board, and so are its pixels. -/
structure Untouched (first b : Board) (block : Block) : Prop where
  live : b.live[block.id]? = some block
  pixel_eq : ∀ p : Nat × Nat, p ∈ block.rect →
    b.painted.pixel p.1 p.2 = first.painted.pixel p.1 p.2

lemma Untouched.commit {c : Change} (untouched : Untouched first b block)
    (hadded : ∀ a ∈ c.added, a.id ≠ block.id) (hremoved : block.id ∉ c.removed)
    (hpixel : ∀ p : Nat × Nat, p ∈ block.rect →
      (b.painted.stroke c.stroke).pixel p.1 p.2 = b.painted.pixel p.1 p.2) :
    Untouched first (b.commit c) block :=
  ⟨(getElem?_commit hadded hremoved).trans untouched.live,
    fun p hp => (hpixel p hp).trans (untouched.pixel_eq p hp)⟩

lemma pixel_fill_of_apart {rect other : Rect} (sized : b.Sized width height)
    (within : rect.Within width height) (within' : other.Within width height)
    (apart : other.Apart rect) (paint : Color) {p : Nat × Nat} (hp : p ∈ other) :
    (b.painted.fill rect paint).pixel p.1 p.2 = b.painted.pixel p.1 p.2 := by
  have hlt := within'.lt hp
  rw [← sized.width_eq, ← sized.height_eq] at within hlt
  exact (Raster.pixel_fill paint within.1 hlt.1 hlt.2).trans (if_neg (apart p hp))

lemma pixel_exchange_of_apart {rect rect' other : Rect} (sized : b.Sized width height)
    (same : rect.sameSize rect') (apart : rect.Apart rect') (within : rect.Within width height)
    (within' : rect'.Within width height) (within'' : other.Within width height)
    (away : other.Apart rect) (away' : other.Apart rect') {p : Nat × Nat} (hp : p ∈ other) :
    (b.painted.exchange rect rect').pixel p.1 p.2 = b.painted.pixel p.1 p.2 := by
  have hlt := within''.lt hp
  rw [← sized.width_eq, ← sized.height_eq] at within within' hlt
  exact (Raster.pixel_exchange same apart within within').2 p.1 p.2 hlt.1 hlt.2 (away p hp)
    (away' p hp)

lemma Untouched.apply (packing : Packing initial width height) (sized : b.Sized width height)
    (shuffles : Shuffles initial i)
    (found : ∀ block ∈ initial, block.id ∈ i.named → Untouched first b block)
    (h : b.apply i = .ok next) (hblock : block ∈ initial) (unnamed : block.id ∉ i.named)
    (untouched : Untouched first b block) : Untouched first next block := by
  obtain ⟨c, legal, rfl⟩ := apply_eq_ok_iff.mp h
  have hwithin := packing.within
  -- What the instruction names lies apart from the block, on the canvas too.
  have hother : ∀ other ∈ initial, other.id ∈ i.named →
      other.id ≠ block.id ∧ block.rect.Apart other.rect := by
    intro other hother hnamed
    have hne : block ≠ other := fun heq => unnamed (heq ▸ hnamed)
    exact ⟨fun hid => unnamed (hid ▸ hnamed), packing.apart.forall hblock hother hne⟩
  cases shuffles with
  | @color painted mem paint =>
    have hnamed : painted.id ∈ (Instruction.color painted.id paint).named :=
      List.mem_singleton_self _
    cases legal with
    | @color _ current _ live =>
      obtain rfl := Option.some.inj (live.symm.trans (found painted mem hnamed).live)
      obtain ⟨hid, hapart⟩ := hother current mem hnamed
      refine untouched.commit (by simpa using hid) (by simp) fun p hp => ?_
      exact pixel_fill_of_apart sized (hwithin current mem) (hwithin block hblock) hapart paint hp
  | @swap one other mem mem' different same =>
    have hnamed : one.id ∈ (Instruction.swap one.id other.id).named := List.mem_cons_self
    have hnamed' : other.id ∈ (Instruction.swap one.id other.id).named :=
      List.mem_cons_of_mem _ (List.mem_singleton_self _)
    cases legal with
    | @swap _ _ current current' live live' different' same' =>
      obtain rfl := Option.some.inj (live.symm.trans (found one mem hnamed).live)
      obtain rfl := Option.some.inj (live'.symm.trans (found other mem' hnamed').live)
      obtain ⟨hid, hapart⟩ := hother current mem hnamed
      obtain ⟨hid', hapart'⟩ := hother current' mem' hnamed'
      have hne : current' ≠ current := fun heq => different (heq ▸ rfl)
      have hsame : current'.rect.sameSize current.rect := Rect.sameSize_comm.symm.trans same
      refine untouched.commit (by simpa using ⟨hid, hid'⟩) (by simp) fun p hp => ?_
      exact pixel_exchange_of_apart sized hsame (packing.apart.forall mem' mem hne)
        (hwithin current' mem') (hwithin current mem) (hwithin block hblock) hapart' hapart hp

/-- While no block is named twice, every instruction finds the blocks it names untouched. -/
lemma untouched_of_shuffles (packing : Packing initial width height) (sized : b.Sized width height)
    (standing : b.Standing initial) (shuffles : ∀ i ∈ program, Shuffles initial i)
    (once : (program.flatMap Instruction.named).Nodup)
    (untouched : ∀ block ∈ initial, block.id ∈ program.flatMap Instruction.named →
      Untouched first b block) {before after : List Instruction}
    (hprogram : program = before ++ i :: after) :
    ∃ mid, b.applyAll before = .ok mid ∧
      ∀ block ∈ initial, block.id ∈ i.named → Untouched first mid block := by
  induction before generalizing b program with
  | nil =>
    subst hprogram
    refine ⟨b, rfl, fun block hblock hnamed => untouched block hblock ?_⟩
    exact List.mem_flatMap.mpr ⟨i, List.mem_cons_self, hnamed⟩
  | cons j before ih =>
    subst hprogram
    rw [List.cons_append, List.forall_mem_cons] at shuffles
    rw [List.cons_append, List.flatMap_cons] at once untouched
    obtain ⟨_, hrest, hdisjoint⟩ := List.nodup_append'.mp once
    obtain ⟨next, hnext, hsized, hstanding⟩ := exists_apply_of_shuffles sized standing shuffles.1
    have hfound : ∀ block ∈ initial, block.id ∈ j.named → Untouched first b block :=
      fun block hblock hnamed => untouched block hblock (List.mem_append_left _ hnamed)
    obtain ⟨mid, hmid, hall⟩ := ih hsized hstanding shuffles.2 hrest (fun block hblock hlater =>
      (untouched block hblock (List.mem_append_right _ hlater)).apply packing sized shuffles.1
        hfound hnext hblock fun hnamed => hdisjoint hnamed hlater) rfl
    exact ⟨mid, applyAll_cons_eq_ok.mpr ⟨next, hnext, hmid⟩, hall⟩

end Board

namespace Layout

open Board

variable {initial : List Block} {target : Raster} {estimate : Rect → Color} {s : Shuffle}

/-- No block is named twice, and the blocks that are named are settled. -/
structure Shuffle.Once (initial : List Block) (s : Shuffle) : Prop where
  nodup : (s.instructions.flatMap Instruction.named).Nodup
  settled : ∀ id ∈ s.instructions.flatMap Instruction.named, ∃ k ∈ s.fixed, ∃ block,
    initial[k]? = some block ∧ block.id = id

lemma Shuffle.Once.unnamed (once : s.Once initial)
    (distinct : initial.Pairwise fun a a' => a.id ≠ a'.id) {block : Block} {index : Nat}
    (hblock : initial[index]? = some block) (free : index ∉ s.fixed) :
    block.id ∉ s.instructions.flatMap Instruction.named := by
  intro hnamed
  obtain ⟨k, hk, other, hother, hid⟩ := once.settled _ hnamed
  have hne : k ≠ index := fun heq => free (heq ▸ hk)
  exact id_ne_of_index_ne distinct hother hblock hne hid

lemma Shuffle.Once.settle (once : s.Once initial) {s' : Shuffle}
    (same : s'.instructions = s.instructions) (grows : ∀ k ∈ s.fixed, k ∈ s'.fixed) :
    s'.Once initial where
  nodup := same ▸ once.nodup
  settled id hid := by
    obtain ⟨k, hk, hblock⟩ := once.settled id (same ▸ hid)
    exact ⟨k, grows k hk, hblock⟩

lemma Shuffle.Once.name (once : s.Once initial) {s' : Shuffle} {i : Instruction}
    (more : s'.instructions = i :: s.instructions) (grows : ∀ k ∈ s.fixed, k ∈ s'.fixed)
    (nodup : i.named.Nodup)
    (unnamed : ∀ id ∈ i.named, id ∉ s.instructions.flatMap Instruction.named)
    (settled : ∀ id ∈ i.named, ∃ k ∈ s'.fixed, ∃ block,
      initial[k]? = some block ∧ block.id = id) : s'.Once initial where
  nodup := by
    rw [more, List.flatMap_cons, List.nodup_append']
    exact ⟨nodup, once.nodup, unnamed⟩
  settled id hid := by
    rw [more, List.flatMap_cons, List.mem_append] at hid
    rcases hid with hid | hid
    · exact settled id hid
    · obtain ⟨k, hk, hblock⟩ := once.settled id hid
      exact ⟨k, grows k hk, hblock⟩

lemma once_of_visit (distinct : initial.Pairwise fun a a' => a.id ≠ a'.id) (once : s.Once initial)
    {entry : Block × Nat} (h : entry ∈ initial.zipIdx) :
    (visit target estimate initial.zipIdx s entry).Once initial := by
  obtain ⟨block, index⟩ := entry
  have hblock := mem_of_zipIdx h
  simp only [visit]
  split
  · exact once
  · rename_i hfree
    rw [List.contains_eq_mem, decide_eq_true_eq] at hfree
    have hunnamed := once.unnamed distinct hblock hfree
    split
    · exact once.settle rfl fun k hk => List.mem_cons_of_mem _ hk
    · rename_i other partner hdecided
      obtain ⟨hpartner, hother, hotherfree, _⟩ := swap_of_decideBlock hdecided
      have hpartner := mem_of_zipIdx hpartner
      have hdifferent := id_ne_of_index_ne distinct hblock hpartner hother.symm
      have hunnamed' := once.unnamed distinct hpartner hotherfree
      refine once.name (i := .swap block.id partner.id) rfl
        (fun k hk => List.mem_cons_of_mem _ (List.mem_cons_of_mem _ hk)) ?_ ?_ ?_
      · simpa [Instruction.named] using hdifferent
      · simpa only [Instruction.named, List.forall_mem_cons, List.not_mem_nil, false_implies,
          implies_true, and_true] using ⟨hunnamed, hunnamed'⟩
      · simp only [Instruction.named, List.forall_mem_cons, List.not_mem_nil, false_implies,
          implies_true, and_true]
        exact ⟨⟨index, by simp, block, hblock, rfl⟩, ⟨other, by simp, partner, hpartner, rfl⟩⟩
    · rename_i paint _
      refine once.name (i := .color block.id paint) rfl
        (fun k hk => List.mem_cons_of_mem _ hk) (List.nodup_singleton _) ?_ ?_
      · simpa [Instruction.named] using hunnamed
      · simpa [Instruction.named] using Or.inl ⟨block, hblock, rfl⟩
    · exact once.settle rfl fun k hk => hk

lemma nodup_named_shuffle (target : Raster) (estimator : Estimator) (cache : ColorCache)
    (distinct : initial.Pairwise fun a a' => a.id ≠ a'.id) :
    ((shuffle target estimator initial cache).1.flatMap Instruction.named).Nodup := by
  obtain ⟨s, hs, once⟩ :=
    shuffle_induction (P := Shuffle.Once initial) target estimator ⟨by simp, by simp⟩
      fun s entry hentry once => once_of_visit distinct once hentry
  rw [hs]
  exact ((List.reverse_perm _).flatMap_right _).nodup_iff.mpr once.nodup

/-- A shuffle of blocks on the raster that share no pixel names each block once at most, swaps only
different blocks of equal size, and goes through; every instruction finds the blocks it names with
the place and the paint they had at the start, from which it was priced. -/
theorem shuffle_finds_untouched (estimator : Estimator) (cache : ColorCache)
    (packing : Packing initial target.width target.height) :
    ((shuffle target estimator initial cache).1.flatMap Instruction.named).Nodup ∧
    (∀ i ∈ (shuffle target estimator initial cache).1, Shuffles initial i) ∧
    ∃ first last, start target.width target.height initial = .ok first ∧
      first.applyAll (shuffle target estimator initial cache).1 = .ok last ∧
      (∀ block ∈ initial, ∀ p : Nat × Nat, p ∈ block.rect →
        first.painted.pixel p.1 p.2 = startPaint block) ∧
      ∀ before i after, (shuffle target estimator initial cache).1 = before ++ i :: after →
        ∃ mid, first.applyAll before = .ok mid ∧
          ∀ block ∈ initial, block.id ∈ i.named → Untouched first mid block := by
  have once := nodup_named_shuffle target estimator cache packing.distinct
  have shuffles := shuffles_of_shuffle target estimator cache packing.distinct
  obtain ⟨first, hfirst⟩ : ∃ first, start target.width target.height initial = .ok first :=
    exists_start packing.distinct
  obtain ⟨last, hlast⟩ :
      ∃ last, first.applyAll (shuffle target estimator initial cache).1 = .ok last :=
    exists_applyAll_shuffle estimator cache packing.distinct hfirst
  refine ⟨once, shuffles, first, last, hfirst, hlast, ?_, ?_⟩
  · exact fun block hblock p hp => pixel_start packing hfirst hblock hp
  · intro before i after hprogram
    refine untouched_of_shuffles packing (Reached.sized ⟨first, hfirst, [], rfl⟩)
      (standing_start hfirst) shuffles once ?_ hprogram
    exact fun block hblock _ => ⟨(live_start_iff hfirst).mpr ⟨hblock, rfl⟩, fun _ _ => rfl⟩

/-- A raster with a black row below a white one. -/
def lowerBlack : Raster := .ofFn 10 2 fun _ y => if y = 0 then .black else .white

lemma lowerBlack_width_pos : 0 < lowerBlack.width := by decide

/-- The lower row in the paint of the upper one. -/
def lowerRow : Block := ⟨.top 0, ⟨0, 0, 10, 1, lowerBlack_width_pos, Nat.one_pos⟩, some .white⟩

/-- The upper row in the paint of the lower one. -/
def upperRow : Block := ⟨.top 1, ⟨0, 1, 10, 1, lowerBlack_width_pos, Nat.one_pos⟩, some .black⟩

lemma shuffle_exchangedRows :
    (shuffle lowerBlack (.exact 0.5) [lowerRow, upperRow] .empty).1 =
      [.swap (.top 1) (.top 0)] := by
  obtain ⟨cache, hcolor⟩ : ∃ cache, ColorCache.empty.color
      ((Estimator.exact 0.5).estimate lowerBlack) upperRow.rect = (.white, cache) := by
    have hestimate : (Estimator.exact 0.5).estimate lowerBlack upperRow.rect = .white := by
      decide +kernel
    simp [ColorCache.color, ColorCache.empty, hestimate]
  obtain ⟨partner, hdecided, hid⟩ : ∃ partner, decideBlock lowerBlack
      [(lowerRow, 0), (upperRow, 1)] [] upperRow 1 .white = .swap 0 partner ∧
        partner.id = .top 0 := by
    have hswap : (match decideBlock lowerBlack [(lowerRow, 0), (upperRow, 1)] [] upperRow 1 .white
        with
        | .swap other partner => decide (other = 0 ∧ partner.id = .top 0)
        | _ => false) = true := by decide +kernel
    split at hswap
    · rename_i other partner hdecided
      obtain ⟨rfl, hid⟩ := of_decide_eq_true hswap
      exact ⟨partner, hdecided, hid⟩
    · cases hswap
  simp [shuffle, visit, hcolor, hdecided, hid]
  rfl

theorem shuffle_finds_untouched_of_exchangedRows :
    ∃ first last, start 10 2 [lowerRow, upperRow] = .ok first ∧
      first.applyAll [.swap (.top 1) (.top 0)] = .ok last ∧
      Untouched first first lowerRow ∧ Untouched first first upperRow := by
  have hpacking : Packing [lowerRow, upperRow] lowerBlack.width lowerBlack.height := by
    refine ⟨by decide, ?_, by decide⟩
    rw [List.pairwise_pair, ← Rect.not_overlaps_iff]
    rfl
  obtain ⟨_, _, first, last, hfirst, hlast, _, hfound⟩ :=
    shuffle_finds_untouched (.exact 0.5) .empty hpacking
  rw [shuffle_exchangedRows] at hlast hfound
  obtain ⟨mid, hmid, huntouched⟩ := hfound [] (.swap (.top 1) (.top 0)) [] rfl
  obtain rfl : first = mid := Except.ok.inj hmid
  exact ⟨first, last, hfirst, hlast, huntouched lowerRow (by simp) (by decide),
    huntouched upperRow (by simp) (by decide)⟩

end Layout

end BlockPainting
