import BlockPainting.Proofs.Board.InPlace
import BlockPainting.Proofs.Board.Mirror

/-!
# Replays do not look at paint

Whether an instruction is allowed, what it costs and why it is refused can be told from the
rectangles of the live blocks. So two replays that differ in nothing but paint, in the initial
blocks or in the instructions, go side by side: every instruction comes to the same, and the live
blocks stay in the same places.
-/

namespace BlockPainting

def Instruction.outline : Instruction → Instruction
  | color block _ => color block .white
  | i => i

lemma Instruction.echoes_of_outline {i i' : Instruction} (h : i.outline = i'.outline) :
    i.Echoes 0 0 i' := by
  cases i with
  | color id paint =>
    cases i' <;> cases h
    exact .color id paint _
  | lineCut id axis position =>
    cases i' <;> cases h
    exact .lineCut id axis position
  | pointCut id x y =>
    cases i' <;> cases h
    exact .pointCut id x y
  | merge a b =>
    cases i' <;> cases h
    exact .merge a b
  | swap a b =>
    cases i' <;> cases h
    exact .swap a b

namespace Board

open Success InPlace

/-- What the instructions of a list come to one after the other, when failures are ignored: the
price of each or why it is refused. -/
def outcomes (b : Board) : List Instruction → List (Except ReplayError Nat)
  | [] => []
  | i :: rest => (runFrom b (step i)).1 :: (runFrom b (step i)).2.outcomes rest

def measure (b : Board) (id : BlockId) : Except ReplayError Rect :=
  match b.rectAt id with
  | some rect => .ok rect
  | none => .error (.unknownBlock b.applied id)

/-- The price of an instruction or why it is refused, told from rectangles alone. -/
def judge (b : Board) : Instruction → Except ReplayError Nat
  | .color id _ => do
    let rect ← b.measure id
    return b.prices.cost .color rect.area
  | .lineCut id axis position => do
    let rect ← b.measure id
    let _ ← b.refuse (rect.cut axis position)
    return b.prices.cost .lineCut rect.area
  | .pointCut id x y => do
    let rect ← b.measure id
    let _ ← b.refuse (rect.cutPoint x y)
    return b.prices.cost .pointCut rect.area
  | .merge id id' => do
    let first ← b.measure id
    let second ← b.measure id'
    let _ ← b.refuse (first.join second)
    if b.ids.next ≤ maxRoot then return b.prices.mergeCost first.area second.area
    else throw (.geometry b.applied .idsExhausted)
  | .swap id id' => do
    let first ← b.measure id
    let second ← b.measure id'
    if id = id' then throw (.geometry b.applied (.selfSwap first))
    else if first.sameSize second then return b.prices.cost .swap first.area
    else throw (.geometry b.applied (.sizeMismatch first second))

variable {b b' first first' : Board} {width height : Nat} {i i' : Instruction}

lemma measure_of_find {id : BlockId} {e : ReplayError} (h : b.find id = .error e) :
    b.measure id = .error e := by
  unfold find at h
  split at h
  · cases h
  · rename_i hnone
    simpa [measure, rectAt, hnone] using h

lemma measure_of_live {id : BlockId} {block : Block} (live : b.live[id]? = some block) :
    b.measure id = .ok block.rect := by
  rw [measure, rectAt_of_live live]

lemma cost_of_find {id : BlockId} {plan : Block → Except ReplayError Change}
    {judged : Rect → Except ReplayError Nat}
    (h : ∀ block, b.live[id]? = some block → (plan block).map Change.cost = judged block.rect) :
    (b.find id >>= plan).map Change.cost = b.measure id >>= judged := by
  cases hfind : b.find id with
  | error e =>
    rw [measure_of_find hfind]
    rfl
  | ok block =>
    have live := find_eq_ok.mp hfind
    rw [measure_of_live live]
    exact h block live

theorem cost_plan_eq_judge (sized : b.Sized width height) :
    (b.plan i).map Change.cost = b.judge i := by
  cases i with
  | color id paint => exact cost_of_find fun block _ => rfl
  | lineCut id axis position =>
    refine cost_of_find fun block _ => ?_
    simp only [Block.lineCut]
    cases block.rect.cut axis position <;> rfl
  | pointCut id x y =>
    refine cost_of_find fun block _ => ?_
    simp only [Block.pointCut]
    cases block.rect.cutPoint x y <;> rfl
  | merge id id' =>
    refine cost_of_find fun first _ => cost_of_find fun second _ => ?_
    simp only [Block.merge, IdSupply.take]
    cases first.rect.join second.rect with
    | error e => rfl
    | ok rect =>
      by_cases left : b.ids.next ≤ maxRoot
      · simp only [left, if_true]
        rfl
      · simp only [left, if_false]
        rfl
  | swap id id' =>
    refine cost_of_find fun first live => cost_of_find fun second live' => ?_
    rw [← sized.keyed id first live, ← sized.keyed id' second live', Block.swap]
    by_cases hself : first.id = second.id
    · rw [if_pos hself, if_pos hself]
      rfl
    · rw [if_neg hself, if_neg hself]
      by_cases hsame : first.rect.sameSize second.rect
      · rw [if_pos hsame, if_pos hsame]
        rfl
      · rw [if_neg hsame, if_neg hsame]
        rfl

/-- An instruction carried out in place comes to what is judged. -/
lemma runFrom_step_eq_judge (sized : b.Sized width height) :
    (runFrom b (step i)).1 = b.judge i := by
  rw [runFrom_step sized, ← cost_plan_eq_judge sized]
  cases b.plan i <;> rfl

structure Alike (b b' : Board) (width height : Nat) : Prop
    extends Mirrors b b' width height 0 0 where
  applied_eq : b'.applied = b.applied

namespace Alike

lemma rectAt_eq (alike : b.Alike b' width height) (id : BlockId) : b'.rectAt id = b.rectAt id := by
  ext rect
  constructor
  · intro h
    obtain ⟨id, rfl, hlive⟩ := alike.back id rect h
    exact hlive
  · exact alike.forth id rect

lemma ids_eq (alike : b.Alike b' width height) : b'.ids = b.ids :=
  congrArg IdSupply.mk alike.next_eq

lemma measure_eq (alike : b.Alike b' width height) (id : BlockId) :
    b'.measure id = b.measure id := by
  rw [measure, measure, alike.rectAt_eq, alike.applied_eq]

lemma refuse_eq (alike : b.Alike b' width height) {α : Type} (x : Except GeometryError α) :
    b'.refuse x = b.refuse x := by
  cases x with
  | ok a => rfl
  | error cause =>
    rw [refuse, refuse, alike.applied_eq]

lemma judge_eq (alike : b.Alike b' width height) (echoes : i.Echoes 0 0 i') :
    b'.judge i' = b.judge i := by
  cases echoes <;>
    simp only [judge, BlockId.moved_zero, alike.measure_eq, alike.refuse_eq, alike.ids_eq,
      alike.prices_eq, alike.applied_eq]

theorem step (alike : b.Alike b' width height) (echoes : i.Echoes 0 0 i') :
    (runFrom b' (InPlace.step i')).1 = (runFrom b (InPlace.step i)).1 ∧
      (runFrom b (InPlace.step i)).2.Alike (runFrom b' (InPlace.step i')).2 width height := by
  have hsame : (runFrom b' (InPlace.step i')).1 = (runFrom b (InPlace.step i)).1 := by
    rw [runFrom_step_eq_judge alike.sized', runFrom_step_eq_judge alike.sized,
      alike.judge_eq echoes]
  refine ⟨hsame, ?_⟩
  rcases runFrom_step_cases alike.sized i with ⟨c, legal, hrun⟩ | ⟨e, _, hrun⟩
  · rw [hrun] at hsame ⊢
    have room : numbersTaken i = 1 → b'.ids.next ≤ maxRoot := by
      intro htaken
      rw [alike.ids_eq]
      cases legal with
      | merge live live' join left => exact left
      | _ => cases htaken
    obtain ⟨c', legal', hc⟩ := alike.exists_legal legal echoes room
    have hrun' : runFrom b' (InPlace.step i') = (.ok c'.cost, b'.commit c') := by
      rw [runFrom_step alike.sized', plan_eq_ok_iff.mpr legal']
    rw [hrun']
    exact ⟨alike.toMirrors.commit legal legal' hc, congrArg (· + 1) alike.applied_eq⟩
  · rcases runFrom_step_cases alike.sized' i' with ⟨c', _, hrun'⟩ | ⟨e', _, hrun'⟩
    · rw [hrun, hrun'] at hsame
      cases hsame
    · rw [hrun, hrun']
      exact alike

/-- Programs that differ in nothing but paint come to the same step by step. -/
theorem run (alike : b.Alike b' width height) {program program' : List Instruction}
    (same : program.map Instruction.outline = program'.map Instruction.outline) :
    b'.outcomes program' = b.outcomes program ∧
      ∀ k, (b.feed (program.take k)).Alike (b'.feed (program'.take k)) width height := by
  induction program generalizing b b' program' with
  | nil =>
    obtain rfl := List.map_eq_nil_iff.mp same.symm
    refine ⟨rfl, fun k => ?_⟩
    cases k <;> exact alike
  | cons i rest ih =>
    obtain ⟨i', rest', rfl, hi, hrest⟩ := List.map_eq_cons_iff.mp same.symm
    obtain ⟨hsame, hnext⟩ := alike.step (Instruction.echoes_of_outline hi.symm)
    obtain ⟨houtcomes, hboards⟩ := ih hnext hrest.symm
    constructor
    · rw [outcomes, outcomes, hsame, houtcomes]
    · intro k
      cases k with
      | zero => exact alike
      | succ k =>
        rw [List.take_succ_cons, List.take_succ_cons, feed_cons, feed_cons]
        exact hboards k

lemma place (alike : b.Alike b' width height) {block block' : Block}
    (same : block.outline = block'.outline) :
    (∃ e, b.place block = .error e ∧ b'.place block' = .error e) ∨
      ∃ next next', b.place block = .ok next ∧ b'.place block' = .ok next' ∧
        next.Alike next' width height := by
  obtain ⟨hid, hrect⟩ := Prod.mk.inj same
  have hfree : b'.live[block.id]? = none ↔ b.live[block.id]? = none := by
    have heq := alike.rectAt_eq block.id
    rw [← Option.map_eq_none_iff (f := Block.rect), ← Option.map_eq_none_iff (f := Block.rect)]
    exact Eq.congr_left heq
  by_cases free : b.live[block.id]? = none
  · have free' : b'.live[block'.id]? = none := hid ▸ hfree.mpr free
    have hplace := place_eq_ok.mpr ⟨free, rfl⟩
    have hplace' := place_eq_ok.mpr ⟨free', rfl⟩
    refine Or.inr ⟨_, _, hplace, hplace', ?_⟩
    have hrects : ∀ (id : BlockId) (rect : Rect),
        (put b.live block)[id]?.map Block.rect = some rect ↔
          (put b'.live block')[id]?.map Block.rect = some rect := by
      intro id rect
      rw [getElem?_put, getElem?_put, ← hid]
      by_cases heq : block.id = id
      · rw [if_pos heq, if_pos heq, Option.map_some, Option.map_some, hrect]
      · rw [if_neg heq, if_neg heq]
        exact Eq.congr_left (alike.rectAt_eq id).symm
    refine ⟨⟨alike.sized.place hplace, alike.sized'.place hplace', Nat.zero_le _, alike.next_eq,
      fun _ _ _ => Nat.zero_le _, ?_, ?_⟩, alike.applied_eq⟩
    · exact fun id rect h => (hrects id rect).mp h
    · exact fun id rect h => ⟨id, rfl, (hrects id rect).mpr h⟩
  · have hcontains : b.live.contains block.id = true := by
      rw [Std.HashMap.contains_eq_isSome_getElem?]
      exact Option.isSome_iff_ne_none.mpr free
    have hcontains' : b'.live.contains block'.id = true := by
      rw [Std.HashMap.contains_eq_isSome_getElem?, ← hid]
      exact Option.isSome_iff_ne_none.mpr fun hnone => free (hfree.mp hnone)
    refine Or.inl ⟨.duplicateBlock block.id, ?_, ?_⟩
    · rw [Board.place, if_pos hcontains]
    · rw [Board.place, if_pos hcontains', hid]

lemma foldlM_place (alike : b.Alike b' width height) {rest rest' : List Block}
    (same : rest.map Block.outline = rest'.map Block.outline) :
    (∃ e, rest.foldlM Board.place b = .error e ∧ rest'.foldlM Board.place b' = .error e) ∨
      ∃ next next', rest.foldlM Board.place b = .ok next ∧
        rest'.foldlM Board.place b' = .ok next' ∧ next.Alike next' width height := by
  induction rest generalizing b b' rest' with
  | nil =>
    obtain rfl := List.map_eq_nil_iff.mp same.symm
    exact Or.inr ⟨b, b', rfl, rfl, alike⟩
  | cons block rest ih =>
    obtain ⟨block', rest', rfl, hblock, hrest⟩ := List.map_eq_cons_iff.mp same.symm
    simp only [List.foldlM_cons]
    rcases alike.place hblock.symm with ⟨e, he, he'⟩ | ⟨mid, mid', hmid, hmid', halike⟩
    · rw [he, he']
      exact Or.inl ⟨e, rfl, rfl⟩
    · rw [hmid, hmid']
      exact ih halike hrest.symm

end Alike

lemma largestRoot_of_outlines {initial initial' : List Block}
    (same : initial.map Block.outline = initial'.map Block.outline) :
    Block.largestRoot initial' = Block.largestRoot initial := by
  have hroots : ∀ blocks : List Block, Block.largestRoot blocks =
      (blocks.map Block.outline).foldl (fun n o => max n o.1.root) 0 := by
    intro blocks
    rw [List.foldl_map]
    rfl
  rw [hroots, hroots, same]

/-- Over targets of one size, from initial blocks that differ in nothing but paint, and under
programs that differ in nothing but the colors of their instructions: either both replays refuse the
initial blocks for one reason, or every instruction comes to the same in both, its price or why it
is refused, and at every moment the same ids are live in the same rectangles and the same numbers
are left. -/
theorem outcomes_of_outlines {target target' : Raster} {initial initial' : List Block}
    {program program' : List Instruction}
    (size : target.width = target'.width ∧ target.height = target'.height)
    (blocks : initial.map Block.outline = initial'.map Block.outline)
    (steps : program.map Instruction.outline = program'.map Instruction.outline) :
    (∃ e, start target.width target.height initial = .error e ∧
      start target'.width target'.height initial' = .error e) ∨
    ∃ first first', start target.width target.height initial = .ok first ∧
      start target'.width target'.height initial' = .ok first' ∧
      first.outcomes program = first'.outcomes program' ∧
      ∀ k, (∀ id, (first.feed (program.take k)).rectAt id =
          (first'.feed (program'.take k)).rectAt id) ∧
        (first.feed (program.take k)).ids = (first'.feed (program'.take k)).ids := by
  rw [← size.1, ← size.2, start_eq, start_eq, largestRoot_of_outlines blocks]
  have hblank := sized_blank target.width target.height (Block.largestRoot initial)
  have halike : (blank target.width target.height (Block.largestRoot initial)).Alike
      (blank target.width target.height (Block.largestRoot initial)) target.width target.height :=
    ⟨⟨hblank, hblank, Nat.zero_le _, rfl, fun _ _ _ => Nat.zero_le _, fun _ _ h => h,
      fun id _ h => ⟨id, rfl, h⟩⟩, rfl⟩
  rcases halike.foldlM_place blocks with herror | ⟨first, first', hfirst, hfirst', hstart⟩
  · exact Or.inl herror
  · obtain ⟨houtcomes, hboards⟩ := hstart.run steps
    refine Or.inr ⟨first, first', hfirst, hfirst', houtcomes.symm, ?_⟩
    intro k
    exact ⟨fun id => ((hboards k).rectAt_eq id).symm, (hboards k).ids_eq.symm⟩

def sideBySide (left right : Option Color) : List Block :=
  [⟨.top 0, ⟨0, 0, 1, 1, Nat.one_pos, Nat.one_pos⟩, left⟩,
    ⟨.top 1, ⟨1, 0, 1, 1, Nat.one_pos, Nat.one_pos⟩, right⟩]

/-- A block is painted and merged with the other, and is gone when it is to be swapped, whether the
blocks were painted alike or not. -/
theorem outcomes_of_sideBySide :
    ∃ first first', start 2 1 (sideBySide (some .white) none) = .ok first ∧
      start 2 1 (sideBySide (some .black) (some .black)) = .ok first' ∧
      first.outcomes [.color (.top 0) .black, .merge (.top 0) (.top 1),
          .swap (.top 0) (.top 2)] =
        first'.outcomes [.color (.top 0) .white, .merge (.top 0) (.top 1),
          .swap (.top 0) (.top 2)] := by
  obtain ⟨first, hfirst⟩ := @exists_start 2 1 (sideBySide (some .white) none) (by decide)
  rcases @outcomes_of_outlines (.filled 2 1 .white) (.filled 2 1 .black)
    (sideBySide (some .white) none) (sideBySide (some .black) (some .black))
    [.color (.top 0) .black, .merge (.top 0) (.top 1), .swap (.top 0) (.top 2)]
    [.color (.top 0) .white, .merge (.top 0) (.top 1), .swap (.top 0) (.top 2)]
    ⟨rfl, rfl⟩ rfl rfl with ⟨e, herror, _⟩ | ⟨first, first', hfirst, hfirst', houtcomes, _⟩
  · cases hfirst.symm.trans herror
  · exact ⟨first, first', hfirst, hfirst', houtcomes⟩

end Board

end BlockPainting
