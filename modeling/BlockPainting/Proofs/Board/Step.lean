import BlockPainting.Board
import BlockPainting.Proofs.Success

/-!
# What one instruction does to a board

`Legal b i c` lists the five ways in which an instruction can change a board, each with everything
it requires. Planning finds exactly the legal changes, so that later arguments go through these five
cases and never through the plans themselves. A refused instruction is skipped by `attempt`, and
`Reached` collects the boards that any list of instructions leads to.
-/

namespace BlockPainting

/-- `b.Extends a` if `b` is `a` or a descendant of it. -/
def BlockId.Extends (b a : BlockId) : Prop :=
  b.root = a.root ∧ a.path <+: b.path

instance (b a : BlockId) : Decidable (b.Extends a) :=
  inferInstanceAs (Decidable (_ ∧ _))

lemma BlockId.Extends.refl (a : BlockId) : a.Extends a :=
  ⟨rfl, List.prefix_rfl⟩

lemma BlockId.Extends.trans {a b c : BlockId} (hab : a.Extends b) (hbc : b.Extends c) :
    a.Extends c :=
  ⟨hab.1.trans hbc.1, hbc.2.trans hab.2⟩

namespace Block

open Success

variable {a b : Block} {prices : Pricing}

lemma lineCut_eq_ok {axis : Axis} {position : Nat} {move : Move (Block × Block)} :
    b.lineCut axis position prices = .ok move ↔
      ∃ low high, b.rect.cut axis position = .ok (low, high) ∧
        ⟨(b.part 0 low, b.part 1 high), .lineCut b.id axis position,
          prices.cost .lineCut b.rect.area⟩ = move := by
  simp only [lineCut, bind_eq_ok, pure_eq_ok, Prod.exists]

lemma pointCut_eq_ok {x y : Nat} {move : Move (Quarters Block)} :
    b.pointCut x y prices = .ok move ↔
      ∃ quarters, b.rect.cutPoint x y = .ok quarters ∧
        ⟨quarters.mapIdx b.part, .pointCut b.id x y, prices.cost .pointCut b.rect.area⟩ = move := by
  simp only [pointCut, bind_eq_ok, pure_eq_ok]

lemma merge_eq_ok {ids : IdSupply} {result : Move Block × IdSupply} :
    a.merge b ids prices = .ok result ↔
      ∃ rect, a.rect.join b.rect = .ok rect ∧ ids.next ≤ maxRoot ∧
        (⟨⟨.top ids.next, rect, commonPaint a b⟩, .merge a.id b.id,
          prices.mergeCost a.rect.area b.rect.area⟩, ⟨ids.next + 1⟩) = result := by
  simp only [merge, bind_eq_ok, IdSupply.take]
  by_cases left : ids.next ≤ maxRoot
  · simp only [left, if_true, pure_eq_ok, true_and]
  · simp only [left, if_false, throw_ne_ok, false_and, and_false]

lemma swap_eq_ok {move : Move (Block × Block)} :
    a.swap b prices = .ok move ↔
      a.id ≠ b.id ∧ a.rect.sameSize b.rect ∧
        ⟨({ a with rect := b.rect }, { b with rect := a.rect }), .swap a.id b.id,
          prices.cost .swap a.rect.area⟩ = move := by
  simp only [swap]
  split
  · simp [*]
  · split <;> simp [*]

end Block

namespace Board

open Success

/-- The changes that instructions may make to a board. -/
inductive Legal (b : Board) : Instruction → Change → Prop
  | color {id : BlockId} {block : Block} (paint : Color) (live : b.live[id]? = some block) :
      Legal b (.color id paint)
        ⟨[], [{ block with paint := some paint }], .fill block.rect paint, b.ids,
          b.prices.cost .color block.rect.area⟩
  | lineCut {id : BlockId} {block : Block} {axis : Axis} {position : Nat} {low high : Rect}
      (live : b.live[id]? = some block) (cut : block.rect.cut axis position = .ok (low, high)) :
      Legal b (.lineCut id axis position)
        ⟨[block.id], [block.part 0 low, block.part 1 high], .keep, b.ids,
          b.prices.cost .lineCut block.rect.area⟩
  | pointCut {id : BlockId} {block : Block} {x y : Nat} {quarters : Quarters Rect}
      (live : b.live[id]? = some block) (cut : block.rect.cutPoint x y = .ok quarters) :
      Legal b (.pointCut id x y)
        ⟨[block.id], (quarters.mapIdx block.part).toList, .keep, b.ids,
          b.prices.cost .pointCut block.rect.area⟩
  | merge {id id' : BlockId} {first second : Block} {rect : Rect}
      (live : b.live[id]? = some first) (live' : b.live[id']? = some second)
      (join : first.rect.join second.rect = .ok rect) (left : b.ids.next ≤ maxRoot) :
      Legal b (.merge id id')
        ⟨[first.id, second.id], [⟨.top b.ids.next, rect, Block.commonPaint first second⟩], .keep,
          ⟨b.ids.next + 1⟩, b.prices.mergeCost first.rect.area second.rect.area⟩
  | swap {id id' : BlockId} {first second : Block}
      (live : b.live[id]? = some first) (live' : b.live[id']? = some second)
      (different : first.id ≠ second.id) (same : first.rect.sameSize second.rect) :
      Legal b (.swap id id')
        ⟨[], [{ first with rect := second.rect }, { second with rect := first.rect }],
          .exchange second.rect first.rect, b.ids, b.prices.cost .swap first.rect.area⟩

lemma find_eq_ok {b : Board} {id : BlockId} {block : Block} :
    b.find id = .ok block ↔ b.live[id]? = some block := by
  simp only [find]
  split <;> simp [*]

lemma refuse_eq_ok {α : Type} {b : Board} {x : Except GeometryError α} {a : α} :
    b.refuse x = .ok a ↔ x = .ok a := by
  cases x <;> simp [refuse]

/-- Planning finds the legal changes and no others. -/
theorem plan_eq_ok_iff {b : Board} {i : Instruction} {c : Change} :
    b.plan i = .ok c ↔ b.Legal i c := by
  constructor
  · intro h
    cases i with
    | color id paint =>
      simp only [plan, bind_eq_ok, pure_eq_ok, find_eq_ok, Block.recolor] at h
      obtain ⟨block, live, rfl⟩ := h
      exact .color paint live
    | lineCut id axis position =>
      simp only [plan, bind_eq_ok, pure_eq_ok, find_eq_ok, refuse_eq_ok, Block.lineCut_eq_ok] at h
      obtain ⟨block, live, _, ⟨low, high, cut, rfl⟩, rfl⟩ := h
      exact .lineCut live cut
    | pointCut id x y =>
      simp only [plan, bind_eq_ok, pure_eq_ok, find_eq_ok, refuse_eq_ok, Block.pointCut_eq_ok] at h
      obtain ⟨block, live, _, ⟨quarters, cut, rfl⟩, rfl⟩ := h
      exact .pointCut live cut
    | merge id id' =>
      simp only [plan, bind_eq_ok, pure_eq_ok, find_eq_ok, refuse_eq_ok, Block.merge_eq_ok] at h
      obtain ⟨first, live, second, live', _, ⟨rect, join, left, rfl⟩, rfl⟩ := h
      exact .merge live live' join left
    | swap id id' =>
      simp only [plan, bind_eq_ok, pure_eq_ok, find_eq_ok, refuse_eq_ok, Block.swap_eq_ok] at h
      obtain ⟨first, live, second, live', _, ⟨different, same, rfl⟩, rfl⟩ := h
      exact .swap live live' different same
  · intro h
    cases h with
    | color paint live =>
      simp only [plan, bind_eq_ok, pure_eq_ok, find_eq_ok, Block.recolor]
      exact ⟨_, live, rfl⟩
    | lineCut live cut =>
      simp only [plan, bind_eq_ok, pure_eq_ok, find_eq_ok, refuse_eq_ok]
      exact ⟨_, live, _, Block.lineCut_eq_ok.mpr ⟨_, _, cut, rfl⟩, rfl⟩
    | pointCut live cut =>
      simp only [plan, bind_eq_ok, pure_eq_ok, find_eq_ok, refuse_eq_ok]
      exact ⟨_, live, _, Block.pointCut_eq_ok.mpr ⟨_, cut, rfl⟩, rfl⟩
    | merge live live' join left =>
      simp only [plan, bind_eq_ok, pure_eq_ok, find_eq_ok, refuse_eq_ok]
      exact ⟨_, live, _, live', _, Block.merge_eq_ok.mpr ⟨_, join, left, rfl⟩, rfl⟩
    | swap live live' different same =>
      simp only [plan, bind_eq_ok, pure_eq_ok, find_eq_ok, refuse_eq_ok]
      exact ⟨_, live, _, live', _, Block.swap_eq_ok.mpr ⟨different, same, rfl⟩, rfl⟩

theorem apply_eq_ok_iff {b next : Board} {i : Instruction} :
    b.apply i = .ok next ↔ ∃ c, b.Legal i c ∧ b.commit c = next := by
  simp only [apply, map_eq_ok, plan_eq_ok_iff]

lemma applyAll_cons_eq_ok {b next : Board} {i : Instruction} {program : List Instruction} :
    b.applyAll (i :: program) = .ok next ↔
      ∃ mid, b.apply i = .ok mid ∧ mid.applyAll program = .ok next := by
  simp only [applyAll, List.foldlM_cons, bind_eq_ok]

lemma Legal.applyAll {b : Board} {i : Instruction} {c : Change} (legal : b.Legal i c) :
    b.applyAll [i] = .ok (b.commit c) :=
  applyAll_cons_eq_ok.mpr ⟨b.commit c, apply_eq_ok_iff.mpr ⟨c, legal, rfl⟩, rfl⟩

lemma applyAll_append_eq_ok {b next : Board} {first second : List Instruction} :
    b.applyAll (first ++ second) = .ok next ↔
      ∃ mid, b.applyAll first = .ok mid ∧ mid.applyAll second = .ok next := by
  simp only [applyAll, List.foldlM_append, bind_eq_ok]

lemma mem_live_iff {b : Board} {id : BlockId} :
    id ∈ b.live ↔ ∃ block, b.live[id]? = some block := by
  rw [Std.HashMap.mem_iff_isSome_getElem?, Option.isSome_iff_exists]

lemma mem_of_live {b : Board} {id : BlockId} {block : Block} (live : b.live[id]? = some block) :
    id ∈ b.live :=
  mem_live_iff.mpr ⟨block, live⟩

lemma getElem?_foldl_drop (live : Std.HashMap BlockId Block) (removed : List BlockId)
    (id : BlockId) :
    (removed.foldl drop live)[id]? = if id ∈ removed then none else live[id]? := by
  induction removed generalizing live with
  | nil => simp
  | cons r rest ih =>
    rw [List.foldl_cons, ih, drop, Std.HashMap.getElem?_erase]
    by_cases hr : r = id
    · simp [hr]
    · simp [hr, Ne.symm hr]

lemma getElem?_foldl_put {added : List Block} (distinct : added.Pairwise fun a a' => a.id ≠ a'.id)
    (live : Std.HashMap BlockId Block) (id : BlockId) (block : Block) :
    (added.foldl put live)[id]? = some block ↔
      (block ∈ added ∧ block.id = id) ∨
        ((∀ a ∈ added, a.id ≠ id) ∧ live[id]? = some block) := by
  induction added generalizing live with
  | nil => simp
  | cons a rest ih =>
    rw [List.pairwise_cons] at distinct
    rw [List.foldl_cons, ih distinct.2, put, Std.HashMap.getElem?_insert, List.forall_mem_cons,
      List.mem_cons]
    by_cases ha : a.id = id
    · subst ha
      have hrest : ∀ a' ∈ rest, a'.id ≠ a.id := fun a' h => (distinct.1 a' h).symm
      simp only [beq_self_eq_true, if_true, Option.some.injEq]
      constructor
      · rintro (⟨hmem, hid⟩ | ⟨_, rfl⟩)
        · exact Or.inl ⟨Or.inr hmem, hid⟩
        · exact Or.inl ⟨Or.inl rfl, rfl⟩
      · rintro (⟨rfl | hmem, hid⟩ | ⟨⟨hne, _⟩, _⟩)
        · exact Or.inr ⟨hrest, rfl⟩
        · exact Or.inl ⟨hmem, hid⟩
        · exact False.elim (hne rfl)
    · have hbeq : (a.id == id) = false := by simpa using ha
      simp only [hbeq, if_false, ne_eq, ha, not_false_eq_true, true_and, Bool.false_eq_true]
      constructor
      · rintro (⟨hmem, hid⟩ | hlive)
        · exact Or.inl ⟨Or.inr hmem, hid⟩
        · exact Or.inr hlive
      · rintro (⟨rfl | hmem, hid⟩ | hlive)
        · exact False.elim (ha hid)
        · exact Or.inl ⟨hmem, hid⟩
        · exact Or.inr hlive

lemma live_commit_iff {b : Board} {c : Change}
    (distinct : c.added.Pairwise fun a a' => a.id ≠ a'.id) {id : BlockId} {block : Block} :
    (b.commit c).live[id]? = some block ↔
      (block ∈ c.added ∧ block.id = id) ∨
        ((∀ a ∈ c.added, a.id ≠ id) ∧ id ∉ c.removed ∧ b.live[id]? = some block) := by
  simp only [commit, getElem?_foldl_put distinct, getElem?_foldl_drop]
  by_cases h : id ∈ c.removed <;> simp [h]

lemma getElem?_commit {b : Board} {c : Change} {id : BlockId} (hadded : ∀ a ∈ c.added, a.id ≠ id)
    (hremoved : id ∉ c.removed) : (b.commit c).live[id]? = b.live[id]? := by
  have hput : ∀ (added : List Block) (live : Std.HashMap BlockId Block),
      (∀ a ∈ added, a.id ≠ id) → (added.foldl put live)[id]? = live[id]? := by
    intro added
    induction added with
    | nil => exact fun live _ => rfl
    | cons a rest ih =>
      intro live h
      rw [List.forall_mem_cons] at h
      rw [List.foldl_cons, ih _ h.2, put, Std.HashMap.getElem?_insert]
      simp [h.1]
  rw [commit, hput _ _ hadded, getElem?_foldl_drop, if_neg hremoved]

/-- The board after an instruction, the same board if the instruction is refused. -/
def attempt (b : Board) (i : Instruction) : Board :=
  match b.apply i with
  | .ok next => next
  | .error _ => b

/-- The board after a list of instructions, those refused being skipped. -/
def attemptAll (b : Board) (program : List Instruction) : Board :=
  program.foldl attempt b

/-- The boards that instructions lead to from given initial blocks. -/
def Reached (width height : Nat) (initial : List Block) (b : Board) : Prop :=
  ∃ first, start width height initial = .ok first ∧ ∃ program, first.attemptAll program = b

/-- What every legal change keeps, every run keeps. -/
theorem attemptAll_induction {P : Board → Prop} {b : Board} (first : P b)
    (step : ∀ b i c, P b → b.Legal i c → P (b.commit c)) (program : List Instruction) :
    P (b.attemptAll program) := by
  induction program generalizing b with
  | nil => exact first
  | cons i rest ih =>
    refine ih ?_
    unfold attempt
    split
    · rename_i next hnext
      obtain ⟨c, legal, rfl⟩ := apply_eq_ok_iff.mp hnext
      exact step b i c first legal
    · exact first

end Board

end BlockPainting
