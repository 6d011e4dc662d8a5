import BlockPainting.Proofs.Board.Reached

/-!
# Replay in place

Here an instruction works on the board itself, step by step, and steps that may fail come after
steps that have changed something: a merge takes a number and the first block before it looks for
the second one again, and a swap checks the sizes twice. On a board whose blocks stand under their
own ids these late steps never fail. So the instruction either does what was planned or leaves the
board as it was.
-/

namespace BlockPainting

/-- The number of instructions carried out before the one that was refused. -/
def ReplayError.index : ReplayError → Option Nat
  | .unknownBlock index _ => some index
  | .geometry index _ => some index
  | .duplicateBlock _ => none

namespace Board

open Success

/-- What an instruction requires: its ids are live, cuts run strictly inside, merged blocks touch
along a whole edge and a number is left, swapped blocks are two of one size. -/
def Allows (b : Board) : Instruction → Prop
  | .color id _ => ∃ block, b.live[id]? = some block
  | .lineCut id axis position =>
    ∃ block, b.live[id]? = some block ∧ block.rect.Inside axis position
  | .pointCut id x y =>
    ∃ block, b.live[id]? = some block ∧ block.rect.Inside .x x ∧ block.rect.Inside .y y
  | .merge id id' =>
    ∃ first second, b.live[id]? = some first ∧ b.live[id']? = some second ∧
      first.rect.Adjacent second.rect ∧ b.ids.next ≤ maxRoot
  | .swap id id' =>
    ∃ first second, b.live[id]? = some first ∧ b.live[id']? = some second ∧ id ≠ id' ∧
      first.rect.width = second.rect.width ∧ first.rect.height = second.rect.height

/-- Steps on a board. What is done before a failure stays done. -/
abbrev InPlace (α : Type) := ExceptT ReplayError (StateM Board) α

namespace InPlace

variable {α β : Type}

def look (f : Board → Except ReplayError α) : InPlace α :=
  ExceptT.mk fun b => (f b, b)

def change (f : Board → Board) : InPlace Unit :=
  ExceptT.mk fun b => (.ok (), f b)

/-- Looks for a live block and takes it off the board. -/
def take (id : BlockId) : InPlace Block := do
  let block ← look (·.find id)
  change fun b => { b with live := drop b.live id }
  return block

def putAll (blocks : List Block) : InPlace Unit :=
  change fun b => { b with live := blocks.foldl put b.live }

/-- Exchanges two regions of the raster, which must have the same size. -/
def exchange (r r' : Rect) : InPlace Unit := do
  let painted ← look fun b => b.refuse (b.painted.swapRegions r r')
  change fun b => { b with painted }

def carryOut : Instruction → InPlace Nat
  | .color id paint => do
    let block ← look (·.find id)
    let move ← look fun b => .ok (block.recolor paint b.prices)
    change fun b => { b with painted := b.painted.fill move.blocks.rect paint }
    putAll [move.blocks]
    return move.cost
  | .lineCut id axis position => do
    let block ← look (·.find id)
    let move ← look fun b => b.refuse (block.lineCut axis position b.prices)
    change fun b => { b with live := drop b.live id }
    putAll [move.blocks.1, move.blocks.2]
    return move.cost
  | .pointCut id x y => do
    let block ← look (·.find id)
    let move ← look fun b => b.refuse (block.pointCut x y b.prices)
    change fun b => { b with live := drop b.live id }
    putAll move.blocks.toList
    return move.cost
  | .merge id id' => do
    let first ← look (·.find id)
    let second ← look (·.find id')
    let (move, ids) ← look fun b => b.refuse (first.merge second b.ids b.prices)
    change fun b => { b with ids }
    let _ ← take id
    let _ ← take id'
    putAll [move.blocks]
    return move.cost
  | .swap id id' => do
    let first ← look (·.find id)
    let second ← look (·.find id')
    let move ← look fun b => b.refuse (first.swap second b.prices)
    exchange move.blocks.1.rect move.blocks.2.rect
    putAll [move.blocks.1, move.blocks.2]
    return move.cost

/-- Carries out an instruction, counts it and tells its price. -/
def step (i : Instruction) : InPlace Nat := do
  let cost ← carryOut i
  change fun b => { b with cost := b.cost + cost, applied := b.applied + 1 }
  return cost

end InPlace

open InPlace

/-- The board after a list of instructions carried out in place, failures being ignored. -/
def feed (b : Board) (program : List Instruction) : Board :=
  program.foldl (fun b i => (runFrom b (step i)).2) b

/-- The instructions of a list that succeed when failures are ignored. -/
def accepted (b : Board) : List Instruction → List Instruction
  | [] => []
  | i :: rest =>
    match runFrom b (step i) with
    | (.ok _, next) => i :: next.accepted rest
    | (.error _, next) => next.accepted rest

variable {α β : Type} {b next : Board} {width height : Nat} {i : Instruction} {c : Change}

lemma exists_legal_iff (sized : b.Sized width height) : (∃ c, b.Legal i c) ↔ b.Allows i := by
  constructor
  · rintro ⟨c, legal⟩
    cases legal with
    | color paint live => exact ⟨_, live⟩
    | lineCut live cut => exact ⟨_, live, Rect.exists_cut_iff.mp ⟨_, _, cut⟩⟩
    | pointCut live cut => exact ⟨_, live, Rect.exists_cutPoint_iff.mp ⟨_, cut⟩⟩
    | merge live live' join left =>
      exact ⟨_, _, live, live', Rect.exists_join_iff.mp ⟨_, join⟩, left⟩
    | swap live live' different same =>
      obtain rfl := sized.keyed _ _ live
      obtain rfl := sized.keyed _ _ live'
      exact ⟨_, _, live, live', different, of_decide_eq_true same⟩
  · intro allows
    cases i with
    | color id paint =>
      obtain ⟨block, live⟩ := allows
      exact ⟨_, .color paint live⟩
    | lineCut id axis position =>
      obtain ⟨block, live, inside⟩ := allows
      obtain ⟨low, high, cut⟩ := Rect.exists_cut_iff.mpr inside
      exact ⟨_, .lineCut live cut⟩
    | pointCut id x y =>
      obtain ⟨block, live, inside⟩ := allows
      obtain ⟨quarters, cut⟩ := Rect.exists_cutPoint_iff.mpr inside
      exact ⟨_, .pointCut live cut⟩
    | merge id id' =>
      obtain ⟨first, second, live, live', adjacent, left⟩ := allows
      obtain ⟨joined, join⟩ := Rect.exists_join_iff.mpr adjacent
      exact ⟨_, .merge live live' join left⟩
    | swap id id' =>
      obtain ⟨first, second, live, live', different, same⟩ := allows
      obtain rfl := sized.keyed _ _ live
      obtain rfl := sized.keyed _ _ live'
      exact ⟨_, .swap live live' different (decide_eq_true same)⟩

lemma index_of_find {id : BlockId} {e : ReplayError} (h : b.find id = .error e) :
    e.index = some b.applied := by
  unfold find at h
  split at h <;> cases h
  rfl

lemma index_of_refuse {x : Except GeometryError α} {e : ReplayError} (h : b.refuse x = .error e) :
    e.index = some b.applied := by
  cases x <;> cases h
  rfl

namespace InPlace

lemma runFrom_look (f : Board → Except ReplayError α) : runFrom b (look f) = (f b, b) :=
  rfl

lemma runFrom_change (f : Board → Board) : runFrom b (change f) = (.ok (), f b) :=
  rfl

lemma runFrom_take {id : BlockId} {block : Block} (live : b.live[id]? = some block) :
    runFrom b (take id) = (.ok block, { b with live := drop b.live id }) := by
  simp only [take, runFrom_bind, runFrom_look, find_eq_ok.mpr live, runFrom_change, runFrom_pure]

lemma runFrom_exchange {r r' : Rect} (same : r.sameSize r') :
    runFrom b (exchange r r') = (.ok (), { b with painted := b.painted.exchange r r' }) := by
  simp only [exchange, runFrom_bind, runFrom_look, Raster.swapRegions, if_pos same, refuse,
    runFrom_change]

/-- A legal instruction succeeds; in particular its late steps do. -/
lemma runFrom_carryOut_of_legal (sized : b.Sized width height) (legal : b.Legal i c) :
    runFrom b (carryOut i) = (.ok c.cost, { b with
      live := c.added.foldl put (c.removed.foldl drop b.live)
      painted := b.painted.stroke c.stroke
      ids := c.ids }) := by
  cases legal with
  | color paint live =>
    simp only [carryOut, runFrom_bind, runFrom_look, find_eq_ok.mpr live, runFrom_change, putAll,
      runFrom_pure]
    rfl
  | @lineCut id block axis position low high live cut =>
    obtain rfl := sized.keyed id block live
    have hmove : b.refuse (block.lineCut axis position b.prices) = .ok _ :=
      refuse_eq_ok.mpr (Block.lineCut_eq_ok.mpr ⟨low, high, cut, rfl⟩)
    simp only [carryOut, runFrom_bind, runFrom_look, find_eq_ok.mpr live, hmove,
      runFrom_change, putAll, runFrom_pure]
    rfl
  | @pointCut id block x y quarters live cut =>
    obtain rfl := sized.keyed id block live
    have hmove : b.refuse (block.pointCut x y b.prices) = .ok _ :=
      refuse_eq_ok.mpr (Block.pointCut_eq_ok.mpr ⟨quarters, cut, rfl⟩)
    simp only [carryOut, runFrom_bind, runFrom_look, find_eq_ok.mpr live, hmove,
      runFrom_change, putAll, runFrom_pure]
    rfl
  | @merge id id' first second rect live live' join left =>
    obtain rfl := sized.keyed id first live
    obtain rfl := sized.keyed id' second live'
    have hmove : b.refuse (first.merge second b.ids b.prices) = .ok _ :=
      refuse_eq_ok.mpr (Block.merge_eq_ok.mpr ⟨rect, join, left, rfl⟩)
    -- The second block is still there when the first is gone.
    have hne : first.id ≠ second.id := ne_of_join live live' join
    have hstill : (drop b.live first.id)[second.id]? = some second := by
      rw [drop, Std.HashMap.getElem?_erase]
      simpa [hne] using live'
    have htake : runFrom { b with ids := ⟨b.ids.next + 1⟩ } (take first.id) = _ := runFrom_take live
    have htake' : runFrom { b with live := drop b.live first.id, ids := ⟨b.ids.next + 1⟩ }
        (take second.id) = _ := runFrom_take hstill
    simp only [carryOut, runFrom_bind, runFrom_look, find_eq_ok.mpr live,
      find_eq_ok.mpr live', hmove, runFrom_change, htake, htake', putAll, runFrom_pure]
    rfl
  | @swap id id' first second live live' different same =>
    have hmove : b.refuse (first.swap second b.prices) = .ok _ :=
      refuse_eq_ok.mpr (Block.swap_eq_ok.mpr ⟨different, same, rfl⟩)
    have hsame : second.rect.sameSize first.rect := Rect.sameSize_comm.symm.trans same
    simp only [carryOut, runFrom_bind, runFrom_look, find_eq_ok.mpr live,
      find_eq_ok.mpr live', hmove, runFrom_exchange hsame, runFrom_change, putAll, runFrom_pure]
    rfl

/-- Steps fail as a plan does if both look at the same thing first and go on to fail alike. -/
lemma refused_of_look {γ : Type} {f : Board → Except ReplayError α} {k : α → InPlace β}
    {k' : α → Except ReplayError γ} {e : ReplayError} (h : (f b >>= k') = .error e)
    (counted : ∀ e, f b = .error e → e.index = some b.applied)
    (rest : ∀ a, k' a = .error e → runFrom b (k a) = (.error e, b) ∧ e.index = some b.applied) :
    runFrom b (look f >>= k) = (.error e, b) ∧ e.index = some b.applied := by
  rw [runFrom_bind, runFrom_look]
  rcases bind_eq_error.mp h with hf | ⟨a, hf, ha⟩
  · rw [hf]
    exact ⟨rfl, counted e hf⟩
  · rw [hf]
    exact rest a ha

lemma refused_of_plan {e : ReplayError} (h : b.plan i = .error e) :
    runFrom b (carryOut i) = (.error e, b) ∧ e.index = some b.applied := by
  cases i with
  | color id paint =>
    refine refused_of_look h (fun _ => index_of_find) ?_
    intro block h
    cases h
  | lineCut id axis position =>
    refine refused_of_look h (fun _ => index_of_find) ?_
    intro block h
    refine refused_of_look h (fun _ => index_of_refuse) ?_
    intro move h
    cases h
  | pointCut id x y =>
    refine refused_of_look h (fun _ => index_of_find) ?_
    intro block h
    refine refused_of_look h (fun _ => index_of_refuse) ?_
    intro move h
    cases h
  | merge id id' =>
    refine refused_of_look h (fun _ => index_of_find) ?_
    intro first h
    refine refused_of_look h (fun _ => index_of_find) ?_
    intro second h
    refine refused_of_look h (fun _ => index_of_refuse) ?_
    intro move h
    cases h
  | swap id id' =>
    refine refused_of_look h (fun _ => index_of_find) ?_
    intro first h
    refine refused_of_look h (fun _ => index_of_find) ?_
    intro second h
    refine refused_of_look h (fun _ => index_of_refuse) ?_
    intro move h
    cases h

/-- An instruction carried out in place does what is planned, or nothing if planning fails. -/
theorem runFrom_step (sized : b.Sized width height) :
    runFrom b (step i) =
      match b.plan i with
      | .ok c => (.ok c.cost, b.commit c)
      | .error e => (.error e, b) := by
  cases hplan : b.plan i with
  | error e => simp only [step, runFrom_bind, (refused_of_plan hplan).1]
  | ok c =>
    simp only [step, runFrom_bind, runFrom_carryOut_of_legal sized (plan_eq_ok_iff.mp hplan),
      runFrom_change, runFrom_pure]
    rfl

end InPlace

/-- On a keyed board an instruction is carried out as a legal change, or refused without one. -/
lemma runFrom_step_cases (sized : b.Sized width height) (i : Instruction) :
    (∃ c, b.Legal i c ∧ runFrom b (step i) = (.ok c.cost, b.commit c)) ∨
      ∃ e, b.plan i = .error e ∧ runFrom b (step i) = (.error e, b) := by
  rw [runFrom_step sized]
  cases hplan : b.plan i with
  | ok c => exact Or.inl ⟨c, plan_eq_ok_iff.mp hplan, rfl⟩
  | error e => exact Or.inr ⟨e, rfl, rfl⟩

lemma runFrom_step_of_legal (sized : b.Sized width height) (legal : b.Legal i c) :
    runFrom b (step i) = (.ok c.cost, b.commit c) := by
  rw [runFrom_step sized, plan_eq_ok_iff.mpr legal]

lemma legal_of_runFrom_step (sized : b.Sized width height) {cost : Nat}
    (ran : runFrom b (step i) = (.ok cost, next)) :
    ∃ c, b.Legal i c ∧ c.cost = cost ∧ b.commit c = next := by
  rcases runFrom_step_cases sized i with ⟨c, legal, hrun⟩ | ⟨e, _, hrun⟩
  · cases hrun.symm.trans ran
    exact ⟨c, legal, rfl, rfl⟩
  · cases hrun.symm.trans ran

lemma feed_cons (b : Board) (i : Instruction) (rest : List Instruction) :
    b.feed (i :: rest) = (runFrom b (step i)).2.feed rest :=
  rfl

lemma feed_eq_attemptAll (sized : b.Sized width height) (program : List Instruction) :
    b.feed program = b.attemptAll program := by
  induction program generalizing b with
  | nil => rfl
  | cons i rest ih =>
    have hstep : (runFrom b (step i)).2 = b.attempt i := by
      rw [runFrom_step sized, attempt, apply]
      cases b.plan i <;> rfl
    have hsized : (b.attempt i).Sized width height := by
      refine attemptAll_induction (P := (Sized · width height)) sized ?_ [i]
      intro b i c sized legal
      exact sized.commit legal.distinct
    rw [feed_cons, hstep, ih hsized]
    rfl

lemma accepted_sublist (b : Board) (program : List Instruction) :
    (b.accepted program).Sublist program := by
  induction program generalizing b with
  | nil => exact List.Sublist.refl []
  | cons i rest ih =>
    unfold accepted
    split
    · exact (ih _).cons_cons i
    · exact (ih _).cons i

lemma applyAll_accepted (sized : b.Sized width height) (program : List Instruction) :
    b.applyAll (b.accepted program) = .ok (b.feed program) ∧
      (b.feed program).applied = b.applied + (b.accepted program).length := by
  induction program generalizing b with
  | nil => exact ⟨rfl, rfl⟩
  | cons i rest ih =>
    rw [feed_cons, accepted]
    rcases runFrom_step_cases sized i with ⟨c, legal, hrun⟩ | ⟨e, _, hrun⟩
    · obtain ⟨hall, happlied⟩ := ih (sized.commit legal.distinct)
      simp only [hrun]
      refine ⟨applyAll_cons_eq_ok.mpr ⟨_, apply_eq_ok_iff.mpr ⟨c, legal, rfl⟩, hall⟩, ?_⟩
      rw [happlied, List.length_cons]
      change b.applied + 1 + _ = _
      omega
    · simp only [hrun]
      exact ih sized

/-- From any blocks on the raster with different ids, whatever instructions came before: an
instruction carried out in place succeeds exactly if it is allowed. If it fails, the board is as it
was, and the error tells how many instructions were carried out so far. Those that succeeded lead to
the same board on their own. -/
theorem step_of_distinct {target : Raster} {initial : List Block}
    (distinct : initial.Pairwise fun a a' => a.id ≠ a'.id)
    (onRaster : ∀ block ∈ initial, block.rect.Within target.width target.height) :
    ∃ first, start target.width target.height initial = .ok first ∧ ∀ program b,
      first.feed program = b →
      (∀ (id : BlockId) (block : Block), b.live[id]? = some block →
        block.rect.Within target.width target.height) ∧
      (∀ i, (∃ cost next, runFrom b (step i) = (.ok cost, next)) ↔ b.Allows i) ∧
      (∀ i cost next, runFrom b (step i) = (.ok cost, next) →
        b.apply i = .ok next ∧ next.cost = b.cost + cost) ∧
      (∀ i e next, runFrom b (step i) = (.error e, next) →
        next = b ∧ b.apply i = .error e ∧ e.index = some (first.accepted program).length) ∧
      (first.accepted program).Sublist program ∧
      first.applyAll (first.accepted program) = .ok b ∧
      replay target initial (first.accepted program) = .ok (b.finish target) := by
  obtain ⟨first, hfirst⟩ := @exists_start target.width target.height initial distinct
  have hsized : first.Sized target.width target.height := Reached.sized ⟨first, hfirst, [], rfl⟩
  refine ⟨first, hfirst, ?_⟩
  rintro program b rfl
  have hreached : Reached target.width target.height initial (first.feed program) :=
    ⟨first, hfirst, program, (feed_eq_attemptAll hsized program).symm⟩
  obtain ⟨hall, happlied⟩ := applyAll_accepted hsized program
  refine ⟨fun id block => hreached.within onRaster, ?_, ?_, ?_, accepted_sublist first program,
    hall, ?_⟩
  · intro i
    rw [← exists_legal_iff hreached.sized]
    rcases runFrom_step_cases hreached.sized i with ⟨c, legal, hrun⟩ | ⟨e, herror, hrun⟩
    · exact iff_of_true ⟨_, _, hrun⟩ ⟨c, legal⟩
    · refine iff_of_false ?_ ?_
      · rintro ⟨cost, next, hok⟩
        cases hrun.symm.trans hok
      · rintro ⟨c, legal⟩
        cases (plan_eq_ok_iff.mpr legal).symm.trans herror
  · intro i cost next hok
    rcases runFrom_step_cases hreached.sized i with ⟨c, legal, hrun⟩ | ⟨e, _, hrun⟩
    · cases hrun.symm.trans hok
      exact ⟨apply_eq_ok_iff.mpr ⟨c, legal, rfl⟩, rfl⟩
    · cases hrun.symm.trans hok
  · intro i e next hfail
    rcases runFrom_step_cases hreached.sized i with ⟨c, _, hrun⟩ | ⟨e, herror, hrun⟩
    · cases hrun.symm.trans hfail
    · cases hrun.symm.trans hfail
      refine ⟨rfl, by rw [apply, herror]; rfl, ?_⟩
      rw [(refused_of_plan herror).2, happlied, (counters_of_start hfirst).2.2, Nat.zero_add]
  · simp only [replay, bind_eq_ok, pure_eq_ok]
    exact ⟨first, hfirst, _, hall, rfl⟩

/-- Two blocks side by side, the left one with the last number. -/
def lastPair : List Block :=
  [⟨.top maxRoot, ⟨0, 0, 1, 1, by decide, by decide⟩, some .white⟩,
    ⟨.top 0, ⟨1, 0, 1, 1, by decide, by decide⟩, some .white⟩]

/-- No number is left for a merge after a swap, so the merge fails and leaves the swapped blocks. -/
theorem step_of_lastPair :
    ∃ first e, start 2 1 lastPair = .ok first ∧
      runFrom (first.feed [.swap (.top 0) (.top maxRoot)]) (step (.merge (.top 0) (.top maxRoot))) =
        (.error e, first.feed [.swap (.top 0) (.top maxRoot)]) ∧
      e.index = some 1 := by
  obtain ⟨first, hfirst, hall⟩ := @step_of_distinct (.filled 2 1 .white) lastPair (by decide)
    (by decide)
  have hzero : first.live[BlockId.top 0]? =
      some ⟨.top 0, ⟨1, 0, 1, 1, by decide, by decide⟩, some .white⟩ :=
    (live_start_iff hfirst).mpr (by simp [lastPair])
  have hlast : first.live[BlockId.top maxRoot]? =
      some ⟨.top maxRoot, ⟨0, 0, 1, 1, by decide, by decide⟩, some .white⟩ :=
    (live_start_iff hfirst).mpr (by simp [lastPair])
  have hids : first.ids = ⟨maxRoot + 1⟩ := (counters_of_start hfirst).1
  obtain ⟨_, hallows, happly, _⟩ := hall [] first rfl
  obtain ⟨cost, next, hswap⟩ := (hallows (.swap (.top 0) (.top maxRoot))).mpr
    ⟨_, _, hzero, hlast, by decide, rfl, rfl⟩
  have hfeed : first.feed [.swap (.top 0) (.top maxRoot)] = next := by rw [feed_cons, hswap]; rfl
  obtain ⟨_, hallows', _, hfail, _⟩ := hall _ next hfeed
  simp only [accepted, hswap] at hfail
  have hnone : ¬ next.Allows (.merge (.top 0) (.top maxRoot)) := by
    obtain ⟨c, legal, rfl⟩ := apply_eq_ok_iff.mp (happly _ _ _ hswap).1
    rintro ⟨_, _, _, _, _, left⟩
    cases legal
    change first.ids.next ≤ maxRoot at left
    rw [hids] at left
    exact Nat.not_succ_le_self maxRoot left
  rcases hrun : runFrom next (step (.merge (.top 0) (.top maxRoot))) with ⟨e | cost', next'⟩
  · obtain ⟨rfl, _, hindex⟩ := hfail _ _ _ hrun
    refine ⟨first, e, hfirst, ?_, hindex⟩
    rw [hfeed, hrun]
  · exact absurd ((hallows' _).mp ⟨_, _, hrun⟩) hnone

end Board

end BlockPainting
