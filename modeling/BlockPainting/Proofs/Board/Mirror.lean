import BlockPainting.Proofs.Board.Reached

/-!
# Boards that mirror each other

Two boards mirror each other if their live blocks have the same rectangles under ids whose numbers
are one distance apart. How the blocks are painted does not matter. A legal change of one board is
answered by a legal change of the other at the same price, and the boards that come out mirror each
other again, as long as both have a number left for every merge.
-/

namespace BlockPainting

/-- The id with the number `s` moved to `n` and all larger numbers moved with it. -/
def BlockId.moved (s n : Nat) (id : BlockId) : BlockId :=
  id.withRoot (id.root - s + n)

namespace BlockId

variable {s n : Nat} {id id' : BlockId}

@[simp] lemma root_moved : (id.moved s n).root = id.root - s + n := rfl

@[simp] lemma moved_child (k : Nat) : (id.child k).moved s n = (id.moved s n).child k := rfl

@[simp] lemma moved_top (root : Nat) : (top root).moved s n = top (root - s + n) := rfl

@[simp] lemma moved_zero : id.moved 0 0 = id := rfl

lemma moved_inj (above : s ≤ id.root) (above' : s ≤ id'.root)
    (h : id.moved s n = id'.moved s n) : id = id' := by
  have hmoved : id.root - s + n = id'.root - s + n := congrArg root h
  have hroot : id.root = id'.root := by omega
  have hpath : id.path = id'.path := BlockId.mk.inj h |>.2
  cases id
  cases id'
  exact congrArg₂ BlockId.mk hroot hpath

end BlockId

/-- The same instruction under moved ids; its paint may be another. -/
inductive Instruction.Echoes (s n : Nat) : Instruction → Instruction → Prop
  | color (id : BlockId) (paint paint' : Color) :
      Echoes s n (.color id paint) (.color (id.moved s n) paint')
  | lineCut (id : BlockId) (axis : Axis) (position : Nat) :
      Echoes s n (.lineCut id axis position) (.lineCut (id.moved s n) axis position)
  | pointCut (id : BlockId) (x y : Nat) :
      Echoes s n (.pointCut id x y) (.pointCut (id.moved s n) x y)
  | merge (a b : BlockId) : Echoes s n (.merge a b) (.merge (a.moved s n) (b.moved s n))
  | swap (a b : BlockId) : Echoes s n (.swap a b) (.swap (a.moved s n) (b.moved s n))

def Block.outline (b : Block) : BlockId × Rect :=
  (b.id, b.rect)

/-- The same change under moved ids, up to paint. -/
structure Change.Echoes (s n : Nat) (c c' : Change) : Prop where
  removed_eq : c'.removed = c.removed.map (BlockId.moved s n)
  added_eq : c'.added.map Block.outline = c.added.map fun a => (a.id.moved s n, a.rect)
  next_eq : c'.ids.next = c.ids.next - s + n
  cost_eq : c'.cost = c.cost

namespace Board

def rectAt (b : Board) (id : BlockId) : Option Rect :=
  b.live[id]?.map Block.rect

/-- The live blocks of `b'` are those of `b` under moved ids, up to paint, and so is the next fresh
number. -/
structure Mirrors (b b' : Board) (width height s n : Nat) : Prop where
  sized : b.Sized width height
  sized' : b'.Sized width height
  next_le : s ≤ b.ids.next
  next_eq : b'.ids.next = b.ids.next - s + n
  above : ∀ id rect, b.rectAt id = some rect → s ≤ id.root
  forth : ∀ id rect, b.rectAt id = some rect → b'.rectAt (id.moved s n) = some rect
  back : ∀ id' rect, b'.rectAt id' = some rect →
    ∃ id, id.moved s n = id' ∧ b.rectAt id = some rect

variable {b b' : Board} {width height s n : Nat} {i i' : Instruction} {c c' : Change}
variable {id : BlockId} {block : Block} {rect : Rect}

lemma rectAt_eq_some :
    b.rectAt id = some rect ↔ ∃ block, b.live[id]? = some block ∧ block.rect = rect :=
  Option.map_eq_some_iff

lemma rectAt_of_live (live : b.live[id]? = some block) : b.rectAt id = some block.rect :=
  rectAt_eq_some.mpr ⟨block, live, rfl⟩

lemma rectAt_commit_iff (distinct : c.added.Pairwise fun a a' => a.id ≠ a'.id) :
    (b.commit c).rectAt id = some rect ↔
      (id, rect) ∈ c.added.map Block.outline ∨
        ((∀ a ∈ c.added, a.id ≠ id) ∧ id ∉ c.removed ∧ b.rectAt id = some rect) := by
  simp only [rectAt_eq_some, live_commit_iff distinct, List.mem_map]
  constructor
  · rintro ⟨block, ⟨hadded, rfl⟩ | ⟨hadded, hremoved, hlive⟩, rfl⟩
    · exact Or.inl ⟨block, hadded, rfl⟩
    · exact Or.inr ⟨hadded, hremoved, block, hlive, rfl⟩
  · rintro (⟨block, hadded, heq⟩ | ⟨hadded, hremoved, block, hlive, rfl⟩)
    · obtain ⟨rfl, rfl⟩ := Prod.mk.inj heq
      exact ⟨block, Or.inl ⟨hadded, rfl⟩, rfl⟩
    · exact ⟨block, Or.inr ⟨hadded, hremoved, hlive⟩, rfl⟩

lemma Legal.rectAt_of_removed (legal : b.Legal i c) (sized : b.Sized width height)
    (removed : id ∈ c.removed) : ∃ rect, b.rectAt id = some rect := by
  have hlive : ∀ {o : BlockId} {block : Block}, b.live[o]? = some block →
      b.rectAt block.id = some block.rect := by
    intro o block live
    rw [sized.keyed o block live]
    exact rectAt_of_live live
  cases legal with
  | color paint live => cases removed
  | lineCut live cut =>
    obtain rfl := List.mem_singleton.mp removed
    exact ⟨_, hlive live⟩
  | pointCut live cut =>
    obtain rfl := List.mem_singleton.mp removed
    exact ⟨_, hlive live⟩
  | merge live live' join left =>
    simp only [List.mem_cons, List.not_mem_nil, or_false] at removed
    rcases removed with rfl | rfl
    · exact ⟨_, hlive live⟩
    · exact ⟨_, hlive live'⟩
  | swap live live' different same => cases removed

namespace Mirrors

lemma live (mirrors : b.Mirrors b' width height s n) (live : b.live[id]? = some block) :
    ∃ block', b'.live[id.moved s n]? = some block' ∧ block'.rect = block.rect ∧
      block'.id = block.id.moved s n := by
  obtain ⟨block', live', hrect⟩ := rectAt_eq_some.mp (mirrors.forth id _ (rectAt_of_live live))
  refine ⟨block', live', hrect, ?_⟩
  rw [mirrors.sized'.keyed _ block' live', mirrors.sized.keyed id block live]

lemma above_of_live (mirrors : b.Mirrors b' width height s n) (live : b.live[id]? = some block) :
    s ≤ block.id.root := by
  rw [mirrors.sized.keyed id block live]
  exact mirrors.above id _ (rectAt_of_live live)

lemma above_of_added (mirrors : b.Mirrors b' width height s n) (legal : b.Legal i c) {a : Block}
    (added : a ∈ c.added) : s ≤ a.id.root := by
  rcases legal.root_of_added added with ⟨id, block, live, hroot⟩ | ⟨hroot, _⟩
  · rw [hroot]
    exact mirrors.above_of_live live
  · rw [hroot]
    exact mirrors.next_le

lemma prices_eq (mirrors : b.Mirrors b' width height s n) : b'.prices = b.prices :=
  mirrors.sized'.prices_eq.trans mirrors.sized.prices_eq.symm

theorem exists_legal (mirrors : b.Mirrors b' width height s n) (legal : b.Legal i c)
    (echoes : i.Echoes s n i') (room : numbersTaken i = 1 → b'.ids.next ≤ maxRoot) :
    ∃ c', b'.Legal i' c' ∧ c.Echoes s n c' := by
  -- One case for each instruction: the blocks it names have mirrors with the same rectangles.
  cases legal with
  | @color id block paint live =>
    cases echoes with
    | color _ _ paint' =>
      obtain ⟨block', live', hrect, hid⟩ := mirrors.live live
      refine ⟨_, .color paint' live', rfl, ?_, mirrors.next_eq, ?_⟩
      · simp only [List.map_cons, List.map_nil, Block.outline, hid, hrect]
      · simp only [mirrors.prices_eq, hrect]
  | @lineCut id block axis position low high live cut =>
    cases echoes
    obtain ⟨block', live', hrect, hid⟩ := mirrors.live live
    rw [← hrect] at cut
    refine ⟨_, .lineCut live' cut, ?_, ?_, mirrors.next_eq, ?_⟩
    · simp only [List.map_cons, List.map_nil, hid]
    · simp only [List.map_cons, List.map_nil, Block.outline, Block.part, hid, BlockId.moved_child]
    · simp only [mirrors.prices_eq, hrect]
  | @pointCut id block x y quarters live cut =>
    cases echoes
    obtain ⟨block', live', hrect, hid⟩ := mirrors.live live
    rw [← hrect] at cut
    refine ⟨_, .pointCut live' cut, ?_, ?_, mirrors.next_eq, ?_⟩
    · simp only [List.map_cons, List.map_nil, hid]
    · simp only [Quarters.mapIdx, Quarters.toList, List.map_cons, List.map_nil, Block.outline,
        Block.part, hid, BlockId.moved_child]
    · simp only [mirrors.prices_eq, hrect]
  | @merge id id' first second joined live live' join left =>
    cases echoes
    obtain ⟨first', hfirst, hrect, hid⟩ := mirrors.live live
    obtain ⟨second', hsecond, hrect', hid'⟩ := mirrors.live live'
    rw [← hrect, ← hrect'] at join
    refine ⟨_, .merge hfirst hsecond join (room rfl), ?_, ?_, ?_, ?_⟩
    · simp only [List.map_cons, List.map_nil, hid, hid']
    · simp only [List.map_cons, List.map_nil, Block.outline, BlockId.moved_top, mirrors.next_eq]
    · have hle := mirrors.next_le
      have hnext := mirrors.next_eq
      change b'.ids.next + 1 = b.ids.next + 1 - s + n
      omega
    · simp only [mirrors.prices_eq, hrect, hrect']
  | @swap id id' first second live live' different same =>
    cases echoes
    obtain ⟨first', hfirst, hrect, hid⟩ := mirrors.live live
    obtain ⟨second', hsecond, hrect', hid'⟩ := mirrors.live live'
    have hdifferent : first'.id ≠ second'.id := by
      intro heq
      rw [hid, hid'] at heq
      exact different (BlockId.moved_inj (mirrors.above_of_live live)
        (mirrors.above_of_live live') heq)
    rw [← hrect, ← hrect'] at same
    refine ⟨_, .swap hfirst hsecond hdifferent same, rfl, ?_, mirrors.next_eq, ?_⟩
    · simp only [List.map_cons, List.map_nil, Block.outline, hid, hid', hrect, hrect']
    · simp only [mirrors.prices_eq, hrect]

lemma added_iff (echoes : c.Echoes s n c') {id' : BlockId} :
    (∃ a' ∈ c'.added, a'.id = id') ↔ ∃ a ∈ c.added, a.id.moved s n = id' := by
  have hids : c'.added.map Block.id = c.added.map fun a => a.id.moved s n := by
    have hadded := congrArg (List.map Prod.fst) echoes.added_eq
    rw [List.map_map, List.map_map] at hadded
    exact hadded
  rw [← List.mem_map, hids, List.mem_map]

lemma rectAt_commit_moved (mirrors : b.Mirrors b' width height s n) (legal : b.Legal i c)
    (legal' : b'.Legal i' c') (echoes : c.Echoes s n c')
    (h : (b.commit c).rectAt id = some rect) :
    (b'.commit c').rectAt (id.moved s n) = some rect := by
  refine (rectAt_commit_iff legal'.distinct).mpr ?_
  rcases (rectAt_commit_iff legal.distinct).mp h with hmem | ⟨hnew, hremoved, hold⟩
  · obtain ⟨a, ha, heq⟩ := List.mem_map.mp hmem
    obtain ⟨rfl, rfl⟩ := Prod.mk.inj heq
    rw [echoes.added_eq]
    exact Or.inl (List.mem_map_of_mem (f := fun a : Block => (a.id.moved s n, a.rect)) ha)
  · -- Ids that are neither added nor removed stay so when moved, since moving is injective.
    have habove := mirrors.above id rect hold
    refine Or.inr ⟨?_, ?_, mirrors.forth id rect hold⟩
    · intro a' ha' heq
      obtain ⟨a, ha, hid⟩ := (added_iff echoes).mp ⟨a', ha', heq⟩
      exact hnew a ha (BlockId.moved_inj (mirrors.above_of_added legal ha) habove hid)
    · intro hmem
      rw [echoes.removed_eq, List.mem_map] at hmem
      obtain ⟨r, hr, heq⟩ := hmem
      obtain ⟨rect', hrect'⟩ := legal.rectAt_of_removed mirrors.sized hr
      obtain rfl := BlockId.moved_inj (mirrors.above r rect' hrect') habove heq
      exact hremoved hr

lemma exists_rectAt_commit (mirrors : b.Mirrors b' width height s n) (legal : b.Legal i c)
    (legal' : b'.Legal i' c') (echoes : c.Echoes s n c') {id' : BlockId}
    (h : (b'.commit c').rectAt id' = some rect) :
    ∃ id, id.moved s n = id' ∧ (b.commit c).rectAt id = some rect := by
  simp only [rectAt_commit_iff legal.distinct]
  rcases (rectAt_commit_iff legal'.distinct).mp h with hmem | ⟨hnew, hremoved, hold⟩
  · rw [echoes.added_eq, List.mem_map] at hmem
    obtain ⟨a, ha, heq⟩ := hmem
    obtain ⟨rfl, rfl⟩ := Prod.mk.inj heq
    exact ⟨a.id, rfl, Or.inl (List.mem_map_of_mem ha)⟩
  · obtain ⟨id, rfl, hlive⟩ := mirrors.back id' rect hold
    refine ⟨id, rfl, Or.inr ⟨?_, ?_, hlive⟩⟩
    · rintro a ha rfl
      obtain ⟨a', ha', hid⟩ := (added_iff echoes).mpr ⟨a, ha, rfl⟩
      exact hnew a' ha' hid
    · intro hr
      rw [echoes.removed_eq] at hremoved
      exact hremoved (List.mem_map_of_mem hr)

theorem commit (mirrors : b.Mirrors b' width height s n) (legal : b.Legal i c)
    (legal' : b'.Legal i' c') (echoes : c.Echoes s n c') :
    (b.commit c).Mirrors (b'.commit c') width height s n := by
  constructor
  · exact mirrors.sized.commit legal.distinct
  · exact mirrors.sized'.commit legal'.distinct
  · exact mirrors.next_le.trans legal.next_le
  · exact echoes.next_eq
  · intro id rect h
    rcases (rectAt_commit_iff legal.distinct).mp h with hmem | ⟨_, _, hold⟩
    · obtain ⟨a, ha, heq⟩ := List.mem_map.mp hmem
      obtain rfl : a.id = id := congrArg Prod.fst heq
      exact mirrors.above_of_added legal ha
    · exact mirrors.above id rect hold
  · intro id rect h
    exact mirrors.rectAt_commit_moved legal legal' echoes h
  · intro id' rect h
    exact mirrors.exists_rectAt_commit legal legal' echoes h

end Mirrors

end Board

end BlockPainting
