import BlockPainting.Instruction
import BlockPainting.Proofs.Board.Outlines
import BlockPainting.Proofs.Board.Works

/-!
# A spliced program replays

An opening part leaves one working block. A body written for a working block with another number is
renumbered and runs on it as it would on its own: the boards mirror each other, each instruction
costs the same, and the blocks that are left differ by the distance between the two numbers. No
number overflows as long as there is one for every merge of the body.
-/

namespace BlockPainting

open Success

variable {s n : Nat} {id : BlockId} {i i' : Instruction}

lemma BlockId.renumber_eq_moved (above : s ≤ id.root) (small : id.root - s + n ≤ maxRoot) :
    id.renumber s n = .ok (id.moved s n) := by
  rw [renumber, if_neg (Nat.not_lt.mpr above), if_pos small]
  rfl

namespace Board

open InPlace

variable {b b' next last : Board} {width height : Nat} {c : Change}
variable {program first second : List Instruction}

lemma outcomes_of_applyAll (sized : b.Sized width height) (h : b.applyAll program = .ok next) :
    b.feed program = next ∧ ∃ costs : List Nat, b.outcomes program = costs.map .ok := by
  induction program generalizing b with
  | nil =>
    cases h
    exact ⟨rfl, [], rfl⟩
  | cons i rest ih =>
    obtain ⟨mid, hmid, hrest⟩ := applyAll_cons_eq_ok.mp h
    obtain ⟨c, legal, rfl⟩ := apply_eq_ok_iff.mp hmid
    obtain ⟨hfeed, costs, hcosts⟩ := ih (sized.commit legal.distinct) hrest
    rw [feed_cons, outcomes, runFrom_step_of_legal sized legal]
    exact ⟨hfeed, c.cost :: costs, by rw [hcosts, List.map_cons]⟩

lemma outcomes_append (b : Board) (first second : List Instruction) :
    b.outcomes (first ++ second) = b.outcomes first ++ (b.feed first).outcomes second := by
  induction first generalizing b with
  | nil => rfl
  | cons i rest ih => rw [List.cons_append, outcomes, outcomes, ih, feed_cons, List.cons_append]

/-- The ids of an instruction that is carried out can be moved, as long as the numbers on the other
board have not run out. -/
lemma Mirrors.exists_renumbered (mirrors : b.Mirrors b' width height s n) (rooted : b'.Rooted)
    (room : b'.ids.next ≤ maxRoot + 1) (legal : b.Legal i c) :
    ∃ i', i.mapIds (BlockId.renumber s n) = .ok i' ∧ i.Echoes s n i' := by
  have hmoved : ∀ {id : BlockId} {block : Block}, b.live[id]? = some block →
      id.renumber s n = .ok (id.moved s n) := by
    intro id block live
    obtain ⟨block', live', _⟩ := mirrors.live live
    have hlt := rooted _ block' live'
    rw [BlockId.root_moved] at hlt
    refine BlockId.renumber_eq_moved ?_ (by omega)
    exact mirrors.above id _ (rectAt_of_live live)
  cases legal with
  | @color id block paint live =>
    refine ⟨_, ?_, .color id paint paint⟩
    simp only [Instruction.mapIds, hmoved live]
    rfl
  | @lineCut id block axis position low high live cut =>
    refine ⟨_, ?_, .lineCut id axis position⟩
    simp only [Instruction.mapIds, hmoved live]
    rfl
  | @pointCut id block x y quarters live cut =>
    refine ⟨_, ?_, .pointCut id x y⟩
    simp only [Instruction.mapIds, hmoved live]
    rfl
  | @merge id id' first second rect live live' join left =>
    refine ⟨_, ?_, .merge id id'⟩
    simp only [Instruction.mapIds, hmoved live, hmoved live']
    rfl
  | @swap id id' first second live live' different same =>
    refine ⟨_, ?_, .swap id id'⟩
    simp only [Instruction.mapIds, hmoved live, hmoved live']
    rfl

/-- A program runs on a board that mirrors its own as it does on its own, if there is a number for
every merge. -/
theorem Mirrors.run (mirrors : b.Mirrors b' width height s n) (rooted : b'.Rooted)
    (room : b'.ids.next + (program.map numbersTaken).sum ≤ maxRoot + 1)
    (h : b.applyAll program = .ok last) :
    ∃ moved last', renumber program s n = .ok moved ∧ b'.applyAll moved = .ok last' ∧
      last.Mirrors last' width height s n ∧ b'.outcomes moved = b.outcomes program := by
  induction program generalizing b b' with
  | nil =>
    cases h
    exact ⟨[], b', rfl, rfl, mirrors, rfl⟩
  | cons i rest ih =>
    rw [List.map_cons, List.sum_cons] at room
    obtain ⟨mid, hmid, hrest⟩ := applyAll_cons_eq_ok.mp h
    obtain ⟨c, legal, rfl⟩ := apply_eq_ok_iff.mp hmid
    obtain ⟨i', hi', echoes⟩ := mirrors.exists_renumbered rooted (by omega) legal
    obtain ⟨c', legal', hc⟩ := mirrors.exists_legal legal echoes (by omega)
    have htaken : numbersTaken i' = numbersTaken i := by cases echoes <;> rfl
    have hnext : (b'.commit c').ids.next = b'.ids.next + numbersTaken i :=
      htaken ▸ legal'.next_eq
    obtain ⟨moved, last', hmoved, hlast, hmirrors, houtcomes⟩ :=
      ih (mirrors.commit legal legal' hc) (rooted.commit mirrors.sized' legal') (by omega) hrest
    refine ⟨i' :: moved, last', ?_, ?_, hmirrors, ?_⟩
    · exact mapM_eq_ok.mpr (List.Forall₂.cons hi' (mapM_eq_ok.mp hmoved))
    · exact applyAll_cons_eq_ok.mpr ⟨_, apply_eq_ok_iff.mpr ⟨c', legal', rfl⟩, hlast⟩
    · rw [outcomes, outcomes, runFrom_step_of_legal mirrors.sized legal,
        runFrom_step_of_legal mirrors.sized' legal', hc.cost_eq, houtcomes]

/-- Boards with one block in one rectangle mirror each other if their next numbers follow those of
the blocks. -/
lemma mirrors_of_single {whole : Rect} (sized : b.Sized width height)
    (sized' : b'.Sized width height)
    (single : ∀ id rect, b.rectAt id = some rect ↔ id = .top s ∧ rect = whole)
    (single' : ∀ id rect, b'.rectAt id = some rect ↔ id = .top n ∧ rect = whole)
    (next_eq : b.ids.next = s + 1) (next_eq' : b'.ids.next = n + 1) :
    b.Mirrors b' width height s n := by
  have hmoved : (BlockId.top s).moved s n = .top n := by
    rw [BlockId.moved_top, Nat.sub_self, Nat.zero_add]
  refine ⟨sized, sized', by omega, by omega, ?_, ?_, ?_⟩
  · intro id rect h
    obtain ⟨rfl, _⟩ := (single id rect).mp h
    exact Nat.le_refl s
  · intro id rect h
    obtain ⟨rfl, hrect⟩ := (single id rect).mp h
    exact (single' _ rect).mpr ⟨hmoved, hrect⟩
  · intro id' rect h
    obtain ⟨rfl, hrect⟩ := (single' id' rect).mp h
    exact ⟨.top s, hmoved, (single _ rect).mpr ⟨rfl, hrect⟩⟩

lemma single_of_start {o : Block} (h : start width height [o] = .ok b) (id : BlockId)
    (rect : Rect) : b.rectAt id = some rect ↔ id = o.id ∧ rect = o.rect := by
  simp only [rectAt_eq_some, live_start_iff h, List.mem_singleton]
  constructor
  · rintro ⟨block, ⟨rfl, rfl⟩, rfl⟩
    exact ⟨rfl, rfl⟩
  · rintro ⟨rfl, rfl⟩
    exact ⟨o, ⟨rfl, rfl⟩, rfl⟩

lemma sum_numbersTaken (program : List Instruction) :
    (program.map numbersTaken).sum = program.countP fun i => i.operation = .merge := by
  induction program with
  | nil => rfl
  | cons i rest ih =>
    rw [List.map_cons, List.sum_cons, ih, List.countP_cons, Nat.add_comm]
    cases i <;> rfl

/-- An opening part leaves one working block with the number `n`, and `n + 1` is the next number. A
body is carried out on a working block of the same rectangle with the number `s`, and the numbers
after `n` suffice for its merges. Then splicing succeeds, and the result replays: the opening part
costs what it costs alone, and every instruction of the body costs what it costs on its own block.
All blocks that the body leaves have numbers from `s` on, and the blocks left are these, in the same
rectangles, every number `r` being replaced by `r - s + n`. -/
theorem splice_replays {target : Raster} {initial : List Block} {opening body : List Instruction}
    {first board own last : Board} {whole : Rect} {paint : Option Color} {s n : Nat}
    (begins : start target.width target.height initial = .ok first)
    (opened : first.applyAll opening = .ok board)
    (single : ∀ id rect, board.rectAt id = some rect ↔ id = .top n ∧ rect = whole)
    (next_eq : board.ids.next = n + 1)
    (own_begins : start target.width target.height [⟨.top s, whole, paint⟩] = .ok own)
    (own_runs : own.applyAll body = .ok last)
    (room : n + body.countP (fun i => i.operation = .merge) ≤ maxRoot) :
    ∃ (spliced : List Instruction) (final : Board) (openingCosts bodyCosts : List Nat),
      splice opening body s n = .ok spliced ∧ first.applyAll spliced = .ok final ∧
      replay target initial spliced = .ok (final.finish target) ∧
      first.outcomes opening = openingCosts.map .ok ∧ own.outcomes body = bodyCosts.map .ok ∧
      first.outcomes spliced = (openingCosts ++ bodyCosts).map .ok ∧
      (∀ o rect, last.rectAt o = some rect → s ≤ o.root) ∧
      ∀ id rect, final.rectAt id = some rect ↔
        ∃ o, last.rectAt o = some rect ∧ o.withRoot (o.root - s + n) = id := by
  have hfirst : Reached target.width target.height initial first := ⟨first, begins, [], rfl⟩
  have hown : Reached target.width target.height _ own := ⟨own, own_begins, [], rfl⟩
  have hboard := sized_of_applyAll hfirst.sized opened
  have hrooted := rooted_of_applyAll hfirst.rooted hfirst.sized opened
  -- Where the opening ends, its board mirrors the one on which the body begins.
  have hmirrors : own.Mirrors board target.width target.height s n := by
    refine mirrors_of_single hown.sized hboard (single_of_start own_begins) single ?_ next_eq
    rw [(counters_of_start own_begins).1]
    change max 0 s + 1 = s + 1
    omega
  -- Each merge of the body takes one number, and there is room for all of them.
  obtain ⟨moved, final, hmoved, hfinal, hlast, houtcomes⟩ := hmirrors.run hrooted
    (by rw [sum_numbersTaken, next_eq]; omega) own_runs
  obtain ⟨hfeed, openingCosts, hopening⟩ := outcomes_of_applyAll hfirst.sized opened
  obtain ⟨_, bodyCosts, hbody⟩ := outcomes_of_applyAll hown.sized own_runs
  have hrun : first.applyAll (opening ++ moved) = .ok final :=
    applyAll_append_eq_ok.mpr ⟨board, opened, hfinal⟩
  refine ⟨opening ++ moved, final, openingCosts, bodyCosts, ?_, hrun, ?_, hopening, hbody, ?_,
    hlast.above, ?_⟩
  · rw [splice, hmoved]
    rfl
  · simp only [replay, bind_eq_ok, pure_eq_ok]
    exact ⟨first, begins, final, hrun, rfl⟩
  · rw [outcomes_append, hopening, hfeed, houtcomes, hbody, List.map_append]
  · intro id rect
    constructor
    · intro h
      obtain ⟨o, rfl, hrect⟩ := hlast.back id rect h
      exact ⟨o, hrect, rfl⟩
    · rintro ⟨o, hrect, rfl⟩
      exact hlast.forth o rect hrect

def bothSides : Rect := ⟨0, 0, 2, 1, Nat.two_pos, Nat.one_pos⟩

/-- A body for a working block with the number 5 that cuts it, merges the parts the other way round
and paints what they make. -/
def rejoining : List Instruction :=
  [.lineCut (.top 5) .x 1, .merge ⟨5, [1]⟩ ⟨5, [0]⟩, .color (.top 6) .black]

lemma rejoining_runs : ∃ own last, start 2 1 [⟨.top 5, bothSides, some .white⟩] = .ok own ∧
    own.applyAll rejoining = .ok last ∧ last.rectAt (.top 6) = some bothSides := by
  obtain ⟨own, hown⟩ := @exists_start 2 1 [⟨.top 5, bothSides, some .white⟩]
    (List.pairwise_singleton _ _)
  have hreached : Reached 2 1 _ own := ⟨own, hown, [], rfl⟩
  have hready := ready_of_start hown (by decide)
  have hcut : bothSides.cut .x 1 = .ok (_, _) := rfl
  obtain ⟨halves, works, hlow, hhigh⟩ := hready.lineCut hcut
  have hrooted := rooted_of_applyAll hreached.rooted hreached.sized works.run
  have hnext := ids_of_applyAll works.run
  rw [(counters_of_start hown).1] at hnext
  obtain ⟨merged, hmerge, _, _, hmerged⟩ :=
    @Ready.merge _ _ _ _ _ bothSides _ _ hhigh hlow hrooted rfl (by rw [hnext]; decide)
  rw [hnext] at hmerged
  obtain ⟨last, works', ready'⟩ := hmerged.color .black
  have hrest : halves.applyAll ([_] ++ [_]) = .ok last :=
    applyAll_append_eq_ok.mpr ⟨merged, hmerge, works'.run⟩
  have hall : own.applyAll ([_] ++ _) = .ok last :=
    applyAll_append_eq_ok.mpr ⟨halves, works.run, hrest⟩
  exact ⟨own, last, hown, hall, rectAt_eq_some.mpr ready'.live⟩

lemma merge_runs : ∃ first board,
    start 2 1 (sideBySide (some .white) (some .black)) = .ok first ∧
      first.applyAll [.merge (.top 0) (.top 1)] = .ok board ∧
      (∀ id rect, board.rectAt id = some rect ↔ id = .top 2 ∧ rect = bothSides) ∧
      board.ids.next = 2 + 1 := by
  obtain ⟨first, hfirst⟩ := @exists_start 2 1 (sideBySide (some .white) (some .black)) (by decide)
  have hleft : first.live[BlockId.top 0]? = some ⟨.top 0, _, some .white⟩ :=
    (live_start_iff hfirst).mpr ⟨List.mem_cons_self, rfl⟩
  have hright : first.live[BlockId.top 1]? = some ⟨.top 1, _, some .black⟩ :=
    (live_start_iff hfirst).mpr ⟨List.mem_cons_of_mem _ List.mem_cons_self, rfl⟩
  have hids : first.ids.next = 2 := by rw [(counters_of_start hfirst).1]; rfl
  have hlegal := @Legal.merge first _ _ _ _ bothSides hleft hright rfl (by rw [hids]; decide)
  refine ⟨first, _, hfirst, hlegal.applyAll, ?_, congrArg (· + 1) hids⟩
  intro id rect
  rw [rectAt_commit_iff hlegal.distinct, hids]
  constructor
  · rintro (hadded | ⟨_, hremoved, hold⟩)
    · exact Prod.mk.inj (List.mem_singleton.mp hadded)
    · obtain ⟨block, hlive, _⟩ := rectAt_eq_some.mp hold
      obtain ⟨hmem, rfl⟩ := (live_start_iff hfirst).mp hlive
      simp only [sideBySide, List.mem_cons, List.not_mem_nil, or_false] at hmem
      rcases hmem with rfl | rfl
      · exact absurd List.mem_cons_self hremoved
      · exact absurd (List.mem_cons_of_mem _ List.mem_cons_self) hremoved
  · rintro ⟨rfl, rfl⟩
    exact Or.inl List.mem_cons_self

/-- After two blocks were merged into block 2, the body works on it and leaves block 3. -/
theorem splice_replays_of_rejoining :
    ∃ first spliced final, start 2 1 (sideBySide (some .white) (some .black)) = .ok first ∧
      splice [.merge (.top 0) (.top 1)] rejoining 5 2 = .ok spliced ∧
      first.applyAll spliced = .ok final ∧ final.rectAt (.top 3) = some bothSides := by
  obtain ⟨first, board, hfirst, hopened, hsingle, hnext⟩ := merge_runs
  obtain ⟨own, last, hown, hlast, hleaves⟩ := rejoining_runs
  obtain ⟨spliced, final, _, _, hspliced, hfinal, _, _, _, _, _, hblocks⟩ :=
    @splice_replays (.filled 2 1 .white) _ _ _ _ _ _ _ _ _ 5 2 hfirst hopened hsingle hnext hown
      hlast (by decide)
  exact ⟨first, spliced, final, hfirst, hspliced, hfinal,
    (hblocks (.top 3) bothSides).mpr ⟨.top 6, hleaves, rfl⟩⟩

end Board

end BlockPainting
