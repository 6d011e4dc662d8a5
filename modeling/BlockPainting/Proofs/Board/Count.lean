import BlockPainting.Proofs.Board.Reached

/-!
# The number of live blocks

A cut files its parts under the ids of its children, also where a live block has such an id already.
That block is then replaced, and no live block holds its pixels any more. Counting the blocks
replaced in this way gives the exact number of live blocks after every instruction. None are
replaced if no id of the initial blocks extends another.
-/

namespace BlockPainting

/-- How many more blocks there are after an instruction that replaces none. -/
def Instruction.gain : Instruction → Int
  | .color .. => 0
  | .lineCut .. => 1
  | .pointCut .. => 3
  | .merge .. => -1
  | .swap .. => 0

def Instruction.children : Instruction → List BlockId
  | .lineCut id .. => (List.range 2).map id.child
  | .pointCut id .. => (List.range 4).map id.child
  | _ => []

namespace Board

open Success

variable {b : Board} {width height : Nat} {i : Instruction} {c : Change}

/-- The live blocks that parts of a cut would replace. -/
def overwritten (b : Board) (i : Instruction) : List BlockId :=
  i.children.filter fun id => b.live.contains id

/-- No instruction that the run carries out replaces a live block by a part of another. -/
def Spares : Board → List Instruction → Prop
  | _, [] => True
  | b, i :: rest =>
    (∀ next, b.apply i = .ok next → b.overwritten i = []) ∧ Spares (b.attempt i) rest

/-- Every pixel of the raster lies in a live block. -/
def Covers (b : Board) (width height : Nat) : Prop :=
  ∀ p : Nat × Nat, p.1 < width → p.2 < height →
    ∃ (id : BlockId) (block : Block), b.live[id]? = some block ∧ p ∈ block.rect

lemma contains_iff {live : Std.HashMap BlockId Block} {id : BlockId} :
    live.contains id = true ↔ ∃ block, live[id]? = some block := by
  rw [Std.HashMap.contains_eq_isSome_getElem?, Option.isSome_iff_exists]

lemma contains_eq_false_iff {live : Std.HashMap BlockId Block} {id : BlockId} :
    live.contains id = false ↔ live[id]? = none := by
  rw [Std.HashMap.contains_eq_isSome_getElem?, Option.isSome_eq_false_iff,
    Option.isNone_iff_eq_none]

lemma size_foldl_drop {removed : List BlockId} (nodup : removed.Nodup)
    (live : Std.HashMap BlockId Block) (held : ∀ id ∈ removed, id ∈ live) :
    (removed.foldl drop live).size + removed.length = live.size := by
  induction removed generalizing live with
  | nil => rfl
  | cons id rest ih =>
    rw [List.nodup_cons] at nodup
    rw [List.forall_mem_cons] at held
    have hheld : ∀ other ∈ rest, other ∈ drop live id := by
      intro other hother
      have hne : id ≠ other := fun heq => nodup.1 (heq ▸ hother)
      rw [drop, Std.HashMap.mem_erase, beq_eq_false_iff_ne]
      exact ⟨hne, held.2 other hother⟩
    have hrest := ih nodup.2 (drop live id) hheld
    have hsize : (drop live id).size = live.size - 1 := by
      rw [drop, Std.HashMap.size_erase, if_pos held.1]
    have hpos : live.size ≠ 0 := by
      intro hzero
      have hempty : live.isEmpty = true := by rw [Std.HashMap.isEmpty_eq_size_eq_zero]; simpa
      exact Std.HashMap.not_mem_of_isEmpty hempty held.1
    rw [List.foldl_cons, List.length_cons]
    omega

lemma size_foldl_put {added : List Block} (distinct : added.Pairwise fun a a' => a.id ≠ a'.id)
    (live : Std.HashMap BlockId Block) :
    (added.foldl put live).size + added.countP (fun a => live.contains a.id) =
      live.size + added.length := by
  induction added generalizing live with
  | nil => rfl
  | cons a rest ih =>
    rw [List.pairwise_cons] at distinct
    have hrest := ih distinct.2 (put live a)
    have hcount : rest.countP (fun a' => (put live a).contains a'.id) =
        rest.countP fun a' => live.contains a'.id := by
      refine List.countP_congr ?_
      intro a' ha'
      have hne := distinct.1 a' ha'
      simp [put, Std.HashMap.contains_insert, hne]
    have hsize : (put live a).size = if a.id ∈ live then live.size else live.size + 1 := by
      rw [put, Std.HashMap.size_insert]
    rw [List.foldl_cons, List.countP_cons, List.length_cons]
    rw [hcount] at hrest
    by_cases hlive : a.id ∈ live
    · rw [if_pos hlive] at hsize
      rw [if_pos (Std.HashMap.mem_iff_contains.mp hlive)]
      omega
    · rw [if_neg hlive] at hsize
      rw [if_neg (fun h => hlive (Std.HashMap.mem_iff_contains.mpr h))]
      omega

lemma Legal.size_commit (legal : b.Legal i c) (nodup : c.removed.Nodup)
    (held : ∀ id ∈ c.removed, id ∈ b.live) :
    (b.commit c).live.size + c.removed.length +
        c.added.countP (fun a => decide (a.id ∉ c.removed) && b.live.contains a.id) =
      b.live.size + c.added.length := by
  have hput := size_foldl_put legal.distinct (c.removed.foldl drop b.live)
  have hdrop := size_foldl_drop nodup b.live held
  have hcount : c.added.countP (fun a => (c.removed.foldl drop b.live).contains a.id) =
      c.added.countP fun a => decide (a.id ∉ c.removed) && b.live.contains a.id := by
    refine List.countP_congr ?_
    intro a _
    rw [Std.HashMap.contains_eq_isSome_getElem?, getElem?_foldl_drop,
      Std.HashMap.contains_eq_isSome_getElem?]
    by_cases hmem : a.id ∈ c.removed <;> simp [hmem]
  rw [hcount] at hput
  change (c.added.foldl put (c.removed.foldl drop b.live)).size + _ + _ = _
  omega

lemma Legal.size_of_replaced (legal : b.Legal i c) (removed : c.removed = [])
    (replaced : ∀ a ∈ c.added, ∃ block, b.live[a.id]? = some block) :
    (b.commit c).live.size = b.live.size := by
  have hsize := legal.size_commit (by rw [removed]; exact List.nodup_nil) (by simp [removed])
  have hall : c.added.countP (fun a => decide (a.id ∉ c.removed) && b.live.contains a.id) =
      c.added.length := by
    rw [List.countP_eq_length]
    intro a ha
    rw [removed, contains_iff.mpr (replaced a ha)]
    simp
  rw [hall, removed] at hsize
  simp only [List.length_nil] at hsize
  omega

lemma ids_of_parts (block : Block) (parts : List Rect) :
    (parts.mapIdx block.part).map Block.id = (List.range parts.length).map block.id.child := by
  refine List.ext_getElem (by simp) ?_
  intro k _ _
  simp

/-- A cut takes one block away, and of its parts those count that have a free id. -/
lemma Legal.size_of_parts {id : BlockId} {block : Block} (parts : List Rect) {ids : IdSupply}
    {cost : Nat} (live : b.live[id]? = some block) (hid : block.id = id)
    (legal : b.Legal i ⟨[block.id], parts.mapIdx block.part, .keep, ids, cost⟩)
    (children : i.children = (List.range parts.length).map id.child)
    (gain : i.gain + 1 = parts.length) :
    ((b.commit ⟨[block.id], parts.mapIdx block.part, .keep, ids, cost⟩).live.size : Int) =
      b.live.size + i.gain - (b.overwritten i).length := by
  subst hid
  have hsize := legal.size_commit (List.nodup_singleton _) (by simpa using mem_of_live live)
  have hcount : (parts.mapIdx block.part).countP
        (fun a => decide (a.id ∉ [block.id]) && b.live.contains a.id) =
      ((parts.mapIdx block.part).map Block.id).countP fun id => b.live.contains id := by
    rw [List.countP_map]
    refine List.countP_congr ?_
    intro a ha
    obtain ⟨k, _, rfl⟩ := List.mem_mapIdx.mp ha
    simp [BlockId.child_ne]
  rw [ids_of_parts, ← children] at hcount
  simp only [hcount, List.length_singleton, List.length_mapIdx] at hsize
  rw [overwritten, ← List.countP_eq_length_filter]
  omega

theorem Legal.size (legal : b.Legal i c) (sized : b.Sized width height) (rooted : b.Rooted) :
    ((b.commit c).live.size : Int) = b.live.size + i.gain - (b.overwritten i).length := by
  cases legal with
  | @color id block paint live =>
    obtain rfl := sized.keyed id block live
    have hsize := (Legal.color paint live).size_of_replaced rfl (by simpa using ⟨block, live⟩)
    simp only [overwritten, Instruction.children, Instruction.gain, List.filter_nil,
      List.length_nil]
    omega
  | @lineCut id block axis position low high live cut =>
    exact Legal.size_of_parts [low, high] live (sized.keyed id block live)
      (.lineCut live cut) rfl rfl
  | @pointCut id block x y quarters live cut =>
    exact Legal.size_of_parts quarters.toList live (sized.keyed id block live)
      (.pointCut live cut) rfl rfl
  | @merge id id' first second rect live live' join left =>
    obtain rfl := sized.keyed id first live
    obtain rfl := sized.keyed id' second live'
    have hne : first.id ≠ second.id := ne_of_join live live' join
    -- The merged block overwrites nothing, as its number was never used.
    have hfresh : b.live.contains (.top b.ids.next) = false :=
      contains_eq_false_iff.mpr (rooted.free (Nat.le_refl _))
    have hsize := (Legal.merge live live' join left).size_commit (by simpa using hne)
      (by simpa using ⟨mem_of_live live, mem_of_live live'⟩)
    simp only [List.countP_cons, List.countP_nil, hfresh, Bool.and_false, Bool.false_eq_true,
      if_false, List.length_cons, List.length_nil] at hsize
    simp only [overwritten, Instruction.children, Instruction.gain, List.filter_nil,
      List.length_nil]
    omega
  | @swap id id' first second live live' different same =>
    obtain rfl := sized.keyed id first live
    obtain rfl := sized.keyed id' second live'
    have hsize := (Legal.swap live live' different same).size_of_replaced rfl
      (by simpa using ⟨⟨first, live⟩, second, live'⟩)
    simp only [overwritten, Instruction.children, Instruction.gain, List.filter_nil,
      List.length_nil]
    omega

lemma exists_part_of_touched {i : Instruction} (sized : b.Sized width height)
    (spared : b.overwritten i = []) {whole block : Block} {parts : List Rect} {parent id : BlockId}
    (hwhole : b.live[parent]? = some whole) (tiles : Rect.Tiles parts whole.rect)
    (hchildren : i.children = (List.range parts.length).map parent.child)
    (live : b.live[id]? = some block)
    (touched : id ∈ [whole.id] ∨ ∃ a ∈ parts.mapIdx whole.part, a.id = id) {p : Nat × Nat}
    (hp : p ∈ block.rect) : ∃ a ∈ parts.mapIdx whole.part, p ∈ a.rect := by
  obtain rfl := sized.keyed parent whole hwhole
  rcases touched with hremoved | ⟨a, ha, rfl⟩
  · obtain rfl := List.mem_singleton.mp hremoved
    obtain rfl := Option.some.inj (hwhole.symm.trans live)
    exact (exists_part_iff tiles p).mpr hp
  · obtain ⟨k, hk, rfl⟩ := List.mem_mapIdx.mp ha
    have hover : whole.id.child k ∈ b.overwritten i :=
      List.mem_filter.mpr ⟨hchildren ▸ List.mem_map_of_mem (List.mem_range.mpr hk),
        contains_iff.mpr ⟨block, live⟩⟩
    rw [spared] at hover
    cases hover

/-- A block that a change removes or replaces hands its pixels to new blocks, unless a part of
another block takes its id. -/
lemma Legal.handed (legal : b.Legal i c) (sized : b.Sized width height) (rooted : b.Rooted)
    (spared : b.overwritten i = []) {id : BlockId} {block : Block} (live : b.live[id]? = some block)
    (touched : id ∈ c.removed ∨ ∃ a ∈ c.added, a.id = id) {p : Nat × Nat} (hp : p ∈ block.rect) :
    ∃ a ∈ c.added, p ∈ a.rect := by
  cases legal with
  | @color parent whole paint hwhole =>
    simp only [List.not_mem_nil, false_or, List.mem_singleton, exists_eq_left] at touched ⊢
    subst touched
    obtain rfl := sized.keyed parent whole hwhole
    obtain rfl := Option.some.inj (hwhole.symm.trans live)
    exact hp
  | @lineCut parent whole axis position low high hwhole cut =>
    exact exists_part_of_touched sized spared hwhole (Rect.cut_tiles cut) rfl live touched hp
  | @pointCut parent whole x y quarters hwhole cut =>
    exact exists_part_of_touched sized spared hwhole (Rect.cutPoint_tiles cut) rfl live touched hp
  | @merge a a' first second rect hfirst hsecond join left =>
    obtain rfl := sized.keyed a first hfirst
    obtain rfl := sized.keyed a' second hsecond
    simp only [List.mem_cons, List.not_mem_nil, or_false, exists_eq_left] at touched ⊢
    rw [Rect.join_mem_iff join p]
    rcases touched with (rfl | rfl) | rfl
    · obtain rfl := Option.some.inj (hfirst.symm.trans live)
      exact Or.inl hp
    · obtain rfl := Option.some.inj (hsecond.symm.trans live)
      exact Or.inr hp
    · rw [rooted.free (Nat.le_refl _)] at live
      cases live
  | @swap a a' first second hfirst hsecond different same =>
    obtain rfl := sized.keyed a first hfirst
    obtain rfl := sized.keyed a' second hsecond
    simp only [List.not_mem_nil, false_or, List.mem_cons, or_false, exists_eq_or_imp,
      exists_eq_left] at touched ⊢
    rcases touched with rfl | rfl
    · obtain rfl := Option.some.inj (hfirst.symm.trans live)
      exact Or.inr hp
    · obtain rfl := Option.some.inj (hsecond.symm.trans live)
      exact Or.inl hp

lemma Covers.commit (covers : b.Covers width height) (legal : b.Legal i c)
    (sized : b.Sized width height) (rooted : b.Rooted) (spared : b.overwritten i = []) :
    (b.commit c).Covers width height := by
  intro p hx hy
  obtain ⟨id, block, live, hp⟩ := covers p hx hy
  by_cases touched : id ∈ c.removed ∨ ∃ a ∈ c.added, a.id = id
  · obtain ⟨a, ha, hpa⟩ := legal.handed sized rooted spared live touched hp
    exact ⟨a.id, a, (live_commit_iff legal.distinct).mpr (Or.inl ⟨ha, rfl⟩), hpa⟩
  · simp only [not_or, not_exists, not_and] at touched
    refine ⟨id, block, (live_commit_iff legal.distinct).mpr (Or.inr ⟨?_, touched.1, live⟩), hp⟩
    exact touched.2

lemma Covers.attemptAll (covers : b.Covers width height) (sized : b.Sized width height)
    (rooted : b.Rooted) {program : List Instruction} (spares : b.Spares program) :
    (b.attemptAll program).Covers width height := by
  induction program generalizing b with
  | nil => exact covers
  | cons i rest ih =>
    obtain ⟨spared, hrest⟩ := spares
    change ((b.attempt i).attemptAll rest).Covers width height
    unfold attempt at hrest ⊢
    cases happly : b.apply i with
    | error e =>
      rw [happly] at hrest
      exact ih covers sized rooted hrest
    | ok next =>
      rw [happly] at hrest
      obtain ⟨c, legal, rfl⟩ := apply_eq_ok_iff.mp happly
      exact ih (covers.commit legal sized rooted (spared _ happly)) (sized.commit legal.distinct)
        (rooted.commit sized legal) hrest

lemma Tiled.overwritten_eq_nil (tiled : b.Tiled width height) (legal : b.Legal i c) :
    b.overwritten i = [] := by
  have hfree : ∀ {id : BlockId} {block : Block}, b.live[id]? = some block → ∀ n,
      ((List.range n).map id.child).filter (fun id => b.live.contains id) = [] := by
    intro id block live n
    rw [List.filter_eq_nil_iff]
    intro child hchild hlive
    obtain ⟨k, _, rfl⟩ := List.mem_map.mp hchild
    obtain ⟨other, hother⟩ := contains_iff.mp hlive
    have hunrelated := tiled.unrelated _ _ _ _ hother live (id.child_ne k)
    exact hunrelated.1 (id.child_extends k)
  cases legal with
  | lineCut live cut => exact hfree live 2
  | pointCut live cut => exact hfree live 4
  | _ => rfl

lemma Tiled.spares (tiled : b.Tiled width height) (program : List Instruction) :
    b.Spares program := by
  induction program generalizing b with
  | nil => trivial
  | cons i rest ih =>
    refine ⟨?_, ih (tiled.attemptAll [i])⟩
    intro next happly
    obtain ⟨c, legal, rfl⟩ := apply_eq_ok_iff.mp happly
    exact tiled.overwritten_eq_nil legal

section

variable {layout : Layout} {target : Raster} {blocks : List Block}

lemma laid_of_accepted (accepted : layout.validate target = .ok blocks) :
    ∃ first, start target.width target.height blocks = .ok first ∧ first.Laid blocks := by
  have hblank := laid_blank target.width target.height (Block.largestRoot blocks)
  obtain ⟨first, hfirst, hlaid, _⟩ :=
    hblank.foldlM_place (sized_blank _ _ _) (Layout.validate_tiling accepted).toPacking
  exact ⟨first, hfirst, hlaid⟩

/-- From the blocks of an accepted layout, whatever their ids, every instruction changes the number
of live blocks by its gain less the blocks that it overwrites, and a run that overwrites none keeps
every pixel in a live block. If no id of the layout extends another, no run overwrites any. -/
theorem size_of_accepted (accepted : layout.validate target = .ok blocks) :
    ∃ first, start target.width target.height blocks = .ok first ∧
      (∀ program i next, (first.attemptAll program).apply i = .ok next →
        (next.live.size : Int) = (first.attemptAll program).live.size + i.gain -
          ((first.attemptAll program).overwritten i).length) ∧
      (∀ program, first.Spares program →
        (first.attemptAll program).Covers target.width target.height) ∧
      ((blocks.Pairwise fun a b => a.id.Unrelated b.id) → ∀ program,
        first.Spares program ∧ ∀ i next, (first.attemptAll program).apply i = .ok next →
          (next.live.size : Int) = (first.attemptAll program).live.size + i.gain) := by
  obtain ⟨first, hfirst, hlaid⟩ := laid_of_accepted accepted
  have hreached : ∀ program,
      Reached target.width target.height blocks (first.attemptAll program) :=
    fun program => ⟨first, hfirst, program, rfl⟩
  have hsize : ∀ program i next, (first.attemptAll program).apply i = .ok next →
      (next.live.size : Int) = (first.attemptAll program).live.size + i.gain -
        ((first.attemptAll program).overwritten i).length := by
    intro program i next happly
    obtain ⟨c, legal, rfl⟩ := apply_eq_ok_iff.mp happly
    exact legal.size (hreached program).sized (hreached program).rooted
  refine ⟨first, hfirst, hsize, ?_, ?_⟩
  · intro program spares
    have hcovers : first.Covers target.width target.height := by
      intro p hx hy
      obtain ⟨block, hmem, hp⟩ := (Layout.validate_tiling accepted).covers p hx hy
      exact ⟨block.id, block, (hlaid.live_iff _ _).mpr ⟨hmem, rfl⟩, hp⟩
    exact hcovers.attemptAll (hreached []).sized (hreached []).rooted spares
  · intro unrelated program
    obtain ⟨first', hfirst', tiled⟩ := start_tiled (Layout.validate_tiling accepted) unrelated
    obtain rfl := Except.ok.inj (hfirst.symm.trans hfirst')
    refine ⟨tiled.spares program, ?_⟩
    intro i next happly
    obtain ⟨c, legal, _⟩ := apply_eq_ok_iff.mp happly
    have hnone := (tiled.attemptAll program).overwritten_eq_nil legal
    rw [hsize program i next happly, hnone]
    simp

end

/-- Block `0` over two columns and a block of some other id over the third. -/
def pairLayout (other : BlockId) : Layout where
  width := 3
  height := 1
  blocks := [⟨.top 0, 0, 0, 2, 1, .white⟩, ⟨other, 2, 0, 3, 1, .white⟩]

/-- Beside a block `1.0`, which no child of `0` is, a cut of block `0` adds a block. -/
theorem size_of_pairLayout :
    ∃ blocks first next, (pairLayout ⟨1, [0]⟩).validate (.filled 3 1 .white) = .ok blocks ∧
      start 3 1 blocks = .ok first ∧ first.apply (.lineCut (.top 0) .x 1) = .ok next ∧
      (next.live.size : Int) = first.live.size + 1 ∧ next.Covers 3 1 := by
  obtain ⟨blocks, accepted, hwhole, unrelated⟩ : ∃ blocks,
      (pairLayout ⟨1, [0]⟩).validate (.filled 3 1 .white) = .ok blocks ∧
        ⟨.top 0, ⟨0, 0, 2, 1, by decide, by decide⟩, some .white⟩ ∈ blocks ∧
        blocks.Pairwise fun a b => a.id.Unrelated b.id :=
    ⟨_, rfl, List.mem_cons_self, by decide⟩
  obtain ⟨first, hfirst, _, hcovers, hall⟩ := size_of_accepted accepted
  obtain ⟨first', hfirst', hlaid⟩ := laid_of_accepted accepted
  obtain rfl := Except.ok.inj (hfirst.symm.trans hfirst')
  have hlegal := @Legal.lineCut first _ _ .x 1 _ _ ((hlaid.live_iff _ _).mpr ⟨hwhole, rfl⟩) rfl
  have happly := apply_eq_ok_iff.mpr ⟨_, hlegal, rfl⟩
  refine ⟨blocks, first, _, accepted, hfirst, happly, (hall unrelated []).2 _ _ happly, ?_⟩
  have hcut := hcovers [.lineCut (.top 0) .x 1] (hall unrelated _).1
  rw [attemptAll, List.foldl_cons, attempt, happly] at hcut
  exact hcut

/-- If the other block has the id `0.0`, a cut of block `0` replaces it: the number of live blocks
stays, and the third column is in none of them. -/
theorem overwriting_cut :
    ∃ blocks first next, (pairLayout ⟨0, [0]⟩).validate (.filled 3 1 .white) = .ok blocks ∧
      start 3 1 blocks = .ok first ∧ first.apply (.lineCut (.top 0) .x 1) = .ok next ∧
      (next.live.size : Int) ≠ first.live.size + (Instruction.lineCut (.top 0) .x 1).gain ∧
      ¬ next.Covers 3 1 := by
  obtain ⟨blocks, accepted, hblocks⟩ : ∃ blocks,
      (pairLayout ⟨0, [0]⟩).validate (.filled 3 1 .white) = .ok blocks ∧
        blocks = [⟨.top 0, ⟨0, 0, 2, 1, by decide, by decide⟩, some .white⟩,
          ⟨⟨0, [0]⟩, ⟨2, 0, 1, 1, by decide, by decide⟩, some .white⟩] := ⟨_, rfl, rfl⟩
  obtain ⟨first, hfirst, hlaid⟩ := laid_of_accepted accepted
  have hreached : Reached 3 1 blocks first := ⟨first, hfirst, [], rfl⟩
  have hwhole : first.live[BlockId.top 0]? =
      some ⟨.top 0, ⟨0, 0, 2, 1, by decide, by decide⟩, some .white⟩ :=
    (hlaid.live_iff _ _).mpr (by simp [hblocks])
  have hother : first.live[(⟨0, [0]⟩ : BlockId)]? =
      some ⟨⟨0, [0]⟩, ⟨2, 0, 1, 1, by decide, by decide⟩, some .white⟩ :=
    (hlaid.live_iff _ _).mpr (by simp [hblocks])
  have hlegal := @Legal.lineCut first _ _ .x 1 _ _ hwhole rfl
  refine ⟨blocks, first, _, accepted, hfirst, apply_eq_ok_iff.mpr ⟨_, hlegal, rfl⟩, ?_, ?_⟩
  · have hover : (⟨0, [0]⟩ : BlockId) ∈ first.overwritten (.lineCut (.top 0) .x 1) :=
      List.mem_filter.mpr ⟨by decide, contains_iff.mpr ⟨_, hother⟩⟩
    have hpos := List.length_pos_of_mem hover
    rw [hlegal.size hreached.sized hreached.rooted]
    omega
  · intro covers
    obtain ⟨id, block, live, hp⟩ := covers (2, 0) (by decide) (by decide)
    rcases (live_commit_iff hlegal.distinct).mp live with ⟨hadded, rfl⟩ | ⟨hadded, hremoved, hold⟩
    · simp only [List.mem_cons, List.not_mem_nil, or_false] at hadded
      rcases hadded with rfl | rfl <;> exact absurd hp (by decide)
    · obtain ⟨hmem, rfl⟩ := (hlaid.live_iff _ _).mp hold
      simp only [hblocks, List.mem_cons, List.not_mem_nil, or_false] at hmem
      rcases hmem with rfl | rfl
      · exact hremoved (List.mem_singleton_self _)
      · exact hadded _ List.mem_cons_self rfl

end Board

end BlockPainting
