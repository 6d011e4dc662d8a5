import BlockPainting.Proofs.Board.Start
import BlockPainting.Proofs.Rect.Cuts

/-!
# Boards reached from any initial blocks

Here the initial blocks need not tile anything: they may overlap, and one id may extend another.
What remains is that every number in use lies below the next fresh one, that blocks on the raster
stay on it, and that a replay starts whenever the ids differ.
-/

namespace BlockPainting.Board

open Success

variable {b next first : Board} {width height : Nat} {initial rest : List Block}
variable {i : Instruction} {c : Change}

lemma live_foldlM_place_iff (h : rest.foldlM Board.place b = .ok next) {id : BlockId}
    {block : Block} :
    next.live[id]? = some block ↔ b.live[id]? = some block ∨ block ∈ rest ∧ block.id = id := by
  induction rest generalizing b with
  | nil =>
    cases h
    simp
  | cons first rest ih =>
    rw [List.foldlM_cons, bind_eq_ok] at h
    obtain ⟨mid, hmid, hrest⟩ := h
    obtain ⟨hfree, rfl⟩ := place_eq_ok.mp hmid
    rw [ih hrest, getElem?_put, List.mem_cons]
    by_cases heq : first.id = id
    · subst heq
      rw [if_pos rfl, hfree, Option.some.injEq]
      constructor
      · rintro (rfl | ⟨hmem, hid⟩)
        · exact Or.inr ⟨Or.inl rfl, rfl⟩
        · exact Or.inr ⟨Or.inr hmem, hid⟩
      · rintro (hnone | ⟨rfl | hmem, hid⟩)
        · cases hnone
        · exact Or.inl rfl
        · exact Or.inr ⟨hmem, hid⟩
    · rw [if_neg heq]
      refine or_congr_right ?_
      constructor
      · rintro ⟨hmem, hid⟩
        exact ⟨Or.inr hmem, hid⟩
      · rintro ⟨rfl | hmem, hid⟩
        · exact absurd hid heq
        · exact ⟨hmem, hid⟩

lemma counters_of_foldlM_place (h : rest.foldlM Board.place b = .ok next) :
    next.ids = b.ids ∧ next.cost = b.cost ∧ next.applied = b.applied := by
  induction rest generalizing b with
  | nil =>
    cases h
    exact ⟨rfl, rfl, rfl⟩
  | cons first rest ih =>
    rw [List.foldlM_cons, bind_eq_ok] at h
    obtain ⟨mid, hmid, hrest⟩ := h
    obtain ⟨_, rfl⟩ := place_eq_ok.mp hmid
    have hcounters := ih hrest
    exact hcounters

lemma exists_foldlM_place (distinct : rest.Pairwise fun a a' => a.id ≠ a'.id)
    (free : ∀ block ∈ rest, b.live[block.id]? = none) :
    ∃ next, rest.foldlM Board.place b = .ok next := by
  induction rest generalizing b with
  | nil => exact ⟨b, rfl⟩
  | cons first rest ih =>
    rw [List.pairwise_cons] at distinct
    rw [List.forall_mem_cons] at free
    obtain ⟨mid, hmid⟩ : ∃ mid, b.place first = .ok mid := ⟨_, place_eq_ok.mpr ⟨free.1, rfl⟩⟩
    have hfree : ∀ block ∈ rest, mid.live[block.id]? = none := by
      intro block hblock
      obtain ⟨_, rfl⟩ := place_eq_ok.mp hmid
      rw [getElem?_put, if_neg (distinct.1 block hblock)]
      exact free.2 block hblock
    obtain ⟨next, hnext⟩ := ih distinct.2 hfree
    refine ⟨next, ?_⟩
    rw [List.foldlM_cons, bind_eq_ok]
    exact ⟨mid, hmid, hnext⟩

theorem exists_start (distinct : initial.Pairwise fun a a' => a.id ≠ a'.id) :
    ∃ first, start width height initial = .ok first := by
  rw [start_eq]
  refine exists_foldlM_place distinct ?_
  intro block _
  simp [blank]

lemma live_start_iff (h : start width height initial = .ok first) {id : BlockId} {block : Block} :
    first.live[id]? = some block ↔ block ∈ initial ∧ block.id = id := by
  rw [start_eq] at h
  rw [live_foldlM_place_iff h]
  simp [blank]

lemma live_start_single {o : Block} (h : start width height [o] = .ok first) :
    first.live[o.id]? = some o ∧ ∀ id, id ≠ o.id → first.live[id]? = none := by
  refine ⟨(live_start_iff h).mpr ⟨List.mem_singleton_self o, rfl⟩, ?_⟩
  intro id hne
  rw [Option.eq_none_iff_forall_ne_some]
  intro block hblock
  obtain ⟨hmem, rfl⟩ := (live_start_iff h).mp hblock
  exact hne (congrArg Block.id (List.mem_singleton.mp hmem))

lemma painted_start_single {o : Block} (h : start width height [o] = .ok first) :
    first.painted = (Raster.filled width height .white).fill o.rect (o.paint.getD .white) := by
  rw [start_eq] at h
  obtain ⟨mid, hmid, hfirst⟩ := bind_eq_ok.mp h
  obtain ⟨_, rfl⟩ := place_eq_ok.mp hmid
  cases hfirst
  rfl

lemma counters_of_start (h : start width height initial = .ok first) :
    first.ids = .after (Block.largestRoot initial) ∧ first.cost = 0 ∧ first.applied = 0 := by
  rw [start_eq] at h
  exact counters_of_foldlM_place h

/-- The number of every live block lies below the next fresh one. -/
def Rooted (b : Board) : Prop :=
  ∀ (id : BlockId) (block : Block), b.live[id]? = some block → id.root < b.ids.next

lemma Rooted.free (rooted : b.Rooted) {id : BlockId} (h : b.ids.next ≤ id.root) :
    b.live[id]? = none := by
  rw [Option.eq_none_iff_forall_ne_some]
  intro block live
  have hlt := rooted id block live
  omega

lemma rooted_of_start (h : start width height initial = .ok first) : first.Rooted := by
  intro id block live
  obtain ⟨hmem, rfl⟩ := (live_start_iff h).mp live
  rw [(counters_of_start h).1]
  exact Nat.lt_succ_of_le (root_le_largestRoot hmem)

lemma ne_of_join {a a' : Block} {rect : Rect} (live : b.live[a.id]? = some a)
    (live' : b.live[a'.id]? = some a') (join : a.rect.join a'.rect = .ok rect) : a.id ≠ a'.id := by
  intro heq
  rw [heq] at live
  obtain rfl := Option.some.inj (live.symm.trans live')
  exact Rect.not_adjacent_self _ (Rect.exists_join_iff.mp ⟨rect, join⟩)

def numbersTaken : Instruction → Nat
  | .merge .. => 1
  | _ => 0

lemma Legal.next_eq (legal : b.Legal i c) : c.ids.next = b.ids.next + numbersTaken i := by
  cases legal <;> rfl

lemma Legal.next_le (legal : b.Legal i c) : b.ids.next ≤ c.ids.next := by
  rw [legal.next_eq]
  exact Nat.le_add_right _ _

lemma Legal.root_of_added (legal : b.Legal i c) {a : Block} (added : a ∈ c.added) :
    (∃ (id : BlockId) (block : Block), b.live[id]? = some block ∧ a.id.root = block.id.root) ∨
      a.id.root = b.ids.next ∧ c.ids.next = b.ids.next + 1 := by
  cases legal with
  | @color id block paint live =>
    obtain rfl := List.mem_singleton.mp added
    exact Or.inl ⟨id, block, live, rfl⟩
  | @lineCut id block axis position low high live cut =>
    simp only [List.mem_cons, List.not_mem_nil, or_false] at added
    refine Or.inl ⟨id, block, live, ?_⟩
    rcases added with rfl | rfl <;> rfl
  | @pointCut id block x y quarters live cut =>
    simp only [Quarters.mapIdx, Quarters.toList, List.mem_cons, List.not_mem_nil, or_false]
      at added
    refine Or.inl ⟨id, block, live, ?_⟩
    rcases added with rfl | rfl | rfl | rfl <;> rfl
  | merge live live' join left =>
    obtain rfl := List.mem_singleton.mp added
    exact Or.inr ⟨rfl, rfl⟩
  | @swap id id' first second live live' different same =>
    simp only [List.mem_cons, List.not_mem_nil, or_false] at added
    rcases added with rfl | rfl
    · exact Or.inl ⟨id, first, live, rfl⟩
    · exact Or.inl ⟨id', second, live', rfl⟩

lemma Rooted.commit (rooted : b.Rooted) (sized : b.Sized width height) (legal : b.Legal i c) :
    (b.commit c).Rooted := by
  intro id block live
  have hnext := legal.next_le
  change id.root < c.ids.next
  rcases (live_commit_iff legal.distinct).mp live with ⟨hadded, rfl⟩ | ⟨_, _, hold⟩
  · rcases legal.root_of_added hadded with ⟨id, parent, hparent, hroot⟩ | ⟨hroot, hfresh⟩
    · have hid := sized.keyed id parent hparent
      have hlt := rooted id parent hparent
      rw [← hid, ← hroot] at hlt
      omega
    · omega
  · have hlt := rooted id block hold
    omega

theorem Reached.rooted (reached : Reached width height initial b) : b.Rooted := by
  obtain ⟨first, hfirst, program, rfl⟩ := reached
  have hsized : first.Sized width height := Reached.sized ⟨first, hfirst, [], rfl⟩
  have hboth := attemptAll_induction (P := fun b => b.Sized width height ∧ b.Rooted)
    ⟨hsized, rooted_of_start hfirst⟩ ?_ program
  · exact hboth.2
  · rintro b i c ⟨sized, rooted⟩ legal
    exact ⟨sized.commit legal.distinct, rooted.commit sized legal⟩

lemma ids_of_applyAll {program : List Instruction} (h : b.applyAll program = .ok next) :
    next.ids.next = b.ids.next + (program.map numbersTaken).sum := by
  induction program generalizing b with
  | nil =>
    cases h
    rfl
  | cons i rest ih =>
    obtain ⟨mid, hmid, hrest⟩ := applyAll_cons_eq_ok.mp h
    obtain ⟨c, legal, rfl⟩ := apply_eq_ok_iff.mp hmid
    have hids : (b.commit c).ids.next = b.ids.next + numbersTaken i := legal.next_eq
    rw [ih hrest, hids, List.map_cons, List.sum_cons, Nat.add_assoc]

lemma sized_of_applyAll {program : List Instruction} (sized : b.Sized width height)
    (h : b.applyAll program = .ok next) : next.Sized width height := by
  induction program generalizing b with
  | nil =>
    cases h
    exact sized
  | cons i rest ih =>
    obtain ⟨mid, hmid, hrest⟩ := applyAll_cons_eq_ok.mp h
    obtain ⟨c, legal, rfl⟩ := apply_eq_ok_iff.mp hmid
    exact ih (sized.commit legal.distinct) hrest

lemma rooted_of_applyAll {program : List Instruction} (rooted : b.Rooted)
    (sized : b.Sized width height) (h : b.applyAll program = .ok next) : next.Rooted := by
  induction program generalizing b with
  | nil =>
    cases h
    exact rooted
  | cons i rest ih =>
    obtain ⟨mid, hmid, hrest⟩ := applyAll_cons_eq_ok.mp h
    obtain ⟨c, legal, rfl⟩ := apply_eq_ok_iff.mp hmid
    exact ih (rooted.commit sized legal) (sized.commit legal.distinct) hrest

lemma Legal.within (legal : b.Legal i c)
    (within : ∀ (id : BlockId) (block : Block), b.live[id]? = some block →
      block.rect.Within width height) :
    ∀ block ∈ c.added, block.rect.Within width height := by
  intro block hadded
  refine Rect.within_of_mem ?_
  intro p hp
  cases legal with
  | color paint live =>
    obtain rfl := List.mem_singleton.mp hadded
    exact (within _ _ live).lt hp
  | @lineCut id parent axis position low high live cut =>
    change block ∈ [low, high].mapIdx parent.part at hadded
    exact (within _ _ live).lt ((exists_part_iff (Rect.cut_tiles cut) p).mp ⟨block, hadded, hp⟩)
  | @pointCut id parent x y quarters live cut =>
    change block ∈ quarters.toList.mapIdx parent.part at hadded
    exact (within _ _ live).lt
      ((exists_part_iff (Rect.cutPoint_tiles cut) p).mp ⟨block, hadded, hp⟩)
  | merge live live' join left =>
    obtain rfl := List.mem_singleton.mp hadded
    rcases (Rect.join_mem_iff join p).mp hp with hp | hp
    · exact (within _ _ live).lt hp
    · exact (within _ _ live').lt hp
  | swap live live' different same =>
    simp only [List.mem_cons, List.not_mem_nil, or_false] at hadded
    rcases hadded with rfl | rfl
    · exact (within _ _ live').lt hp
    · exact (within _ _ live).lt hp

theorem Reached.within (onRaster : ∀ block ∈ initial, block.rect.Within width height)
    (reached : Reached width height initial b) {id : BlockId} {block : Block}
    (live : b.live[id]? = some block) : block.rect.Within width height := by
  obtain ⟨first, hfirst, program, rfl⟩ := reached
  have hall := attemptAll_induction
    (P := fun b => ∀ (id : BlockId) (block : Block), b.live[id]? = some block →
      block.rect.Within width height)
    (fun id block live => onRaster block ((live_start_iff hfirst).mp live).1) ?_ program
  · exact hall id block live
  · intro b i c within legal id block live
    rcases (live_commit_iff legal.distinct).mp live with ⟨hadded, _⟩ | ⟨_, _, hold⟩
    · exact legal.within within block hadded
    · exact within id block hold

end BlockPainting.Board
