import BlockPainting.Proofs.Board.Works
import BlockPainting.Proofs.Search.Uncached

/-!
# Grid walks can be retraced

A walk predicts what a board would do: the numbers of merged blocks, the ids of children, and the
blocks that are left. `Retraces` says that a board has carried out the instructions of a walk and
agrees with it in all this. Every move of a walk can be retraced on such a board.
-/

namespace BlockPainting

namespace GridWalk

open Board Success

/-- The board has carried out the instructions of the walk at their price and agrees with the walk
about the next number and the block it is in. Outside `rect` nothing was painted. -/
structure Retraces (b : Board) (width height : Nat) (rect : Rect) (w : Walk) (b' : Board) :
    Prop where
  run : b.applyAll w.instructions.toList = .ok b'
  ready : b'.Ready width height w.block.id w.block.rect
  rooted : b'.Rooted
  ids_eq : b'.ids = w.ids
  cost_eq : b'.cost = b.cost + w.cost
  kept : ∀ x y, x < width → y < height → (x, y) ∉ rect →
    b'.painted.pixel x y = b.painted.pixel x y
  inside : ∀ p : Nat × Nat, p ∈ w.block.rect → p ∈ rect

variable {b mid b' : Board} {width height : Nat} {rect : Rect} {w w' : Walk}
variable {target : Raster} {direction : Direction} {size cost : Nat} {program : List Instruction}

lemma Retraces.append (retraces : Retraces b width height rect w mid)
    (run : mid.applyAll program = .ok b')
    (instructions_eq : w'.instructions.toList = w.instructions.toList ++ program)
    (ready : b'.Ready width height w'.block.id w'.block.rect)
    (ids_eq : w'.ids.next = w.ids.next + (program.map numbersTaken).sum)
    (board_cost : b'.cost = mid.cost + cost) (walk_cost : w'.cost = w.cost + cost)
    (kept : ∀ x y, x < width → y < height → (x, y) ∉ w.block.rect →
      b'.painted.pixel x y = mid.painted.pixel x y)
    (inside : ∀ p : Nat × Nat, p ∈ w'.block.rect → p ∈ w.block.rect) :
    Retraces b width height rect w' b' := by
  have hids := ids_of_applyAll run
  rw [retraces.ids_eq, ← ids_eq] at hids
  have hcost := retraces.cost_eq
  refine ⟨?_, ready, rooted_of_applyAll retraces.rooted retraces.ready.sized run,
    congrArg IdSupply.mk hids, by omega, ?_, fun p hp => retraces.inside p (inside p hp)⟩
  · rw [instructions_eq]
    exact applyAll_append_eq_ok.mpr ⟨mid, retraces.run, run⟩
  · intro x y hx hy hout
    rw [kept x y hx hy fun hp => hout (retraces.inside _ hp)]
    exact retraces.kept x y hx hy hout

lemma Retraces.paintAll (retraces : Retraces b width height rect w mid) (c : Color) :
    ∃ b', Retraces b width height rect (w.paintAll c (.contest width height)) b' := by
  obtain ⟨b', works, ready⟩ := retraces.ready.color c
  refine ⟨b', retraces.append works.run ?_ ready rfl works.cost_eq rfl works.kept fun _ hp => hp⟩
  simp [Walk.paintAll, Walk.push, Block.recolor]

lemma far_inside {axis : Axis} {position : Nat} {farIsHigh : Bool} {low high : Rect}
    (cut : w.block.rect.cut axis position = .ok (low, high)) (p : Nat × Nat)
    (hp : p ∈ far farIsHigh low high) : p ∈ w.block.rect := by
  rw [(Rect.cut_tiles cut).mem_iff]
  cases farIsHigh with
  | true => exact ⟨high, List.mem_cons_of_mem low List.mem_cons_self, hp⟩
  | false => exact ⟨low, List.mem_cons_self, hp⟩

/-- The board cuts and paints the children that the walk names, and the merged block gets the number
that the walk took. -/
lemma Retraces.repaint (retraces : Retraces b width height rect w mid) {axis : Axis}
    {position : Nat} {farIsHigh : Bool} {c : Color} {low high : Rect}
    (cut : w.block.rect.cut axis position = .ok (low, high)) (left : w.ids.next ≤ maxRoot)
    (repainted : Repainted (.contest width height) axis position farIsHigh c low high w w') :
    ∃ b', Retraces b width height rect w' b' := by
  -- The replayed instructions cut the block, color the far part and merge both again.
  obtain ⟨divided, hcut, hlow, hhigh⟩ := retraces.ready.lineCut cut
  have hfar : divided.Ready width height (w.block.id.child (far farIsHigh 0 1))
      (far farIsHigh low high) := by
    cases farIsHigh with
    | true => exact hhigh
    | false => exact hlow
  obtain ⟨painted, hpaint, hdone⟩ := hfar.color c
  have hready : painted.Ready width height (w.block.id.child 0) low ∧
      painted.Ready width height (w.block.id.child 1) high := by
    cases farIsHigh with
    | true => exact ⟨hpaint.ready hlow (BlockId.child_unrelated _ Nat.zero_ne_one), hdone⟩
    | false => exact ⟨hdone, hpaint.ready hhigh (BlockId.child_unrelated _ Nat.one_ne_zero)⟩
  have hboth := hcut.trans (hpaint.widen (BlockId.child_extends _ _) (far_inside cut))
  have hids : painted.ids.next = w.ids.next := by
    rw [ids_of_applyAll hboth.run, retraces.ids_eq]
    rfl
  rw [← hids] at left
  obtain ⟨b', hmerge, hcost, hpainted, hmerged⟩ := hready.1.merge hready.2
    (rooted_of_applyAll retraces.rooted retraces.ready.sized hboth.run) (Rect.join_of_cut cut) left
  have hrun := applyAll_append_eq_ok.mpr ⟨painted, hboth.run, hmerge⟩
  rw [hids, ← repainted.id_eq, ← repainted.rect_eq] at hmerged
  refine ⟨b', retraces.append hrun repainted.instructions_eq hmerged ?_ ?_ repainted.cost_eq ?_ ?_⟩
  · rw [repainted.ids_eq]
    rfl
  · rw [hcost, hboth.cost_eq]
    omega
  · intro x y hx hy hout
    rw [hpainted]
    exact hboth.kept x y hx hy hout
  · intro p hp
    rwa [repainted.rect_eq] at hp

lemma Retraces.advance (retraces : Retraces b width height rect w mid)
    {quarters : Quarters Rect}
    (advanced : Advanced (.contest width height) direction size quarters w w') :
    ∃ b', Retraces b width height rect w' b' := by
  obtain ⟨block, hlive, hrect⟩ := retraces.ready.live
  have hprices := retraces.ready.sized.prices_eq
  have htiles := Rect.cutPoint_tiles advanced.cut
  have hlegal : mid.Legal (.pointCut w.block.id (columnLine w.block.rect direction size)
        (rowLine w.block.rect direction size))
      ⟨[block.id], quarters.toList.mapIdx block.part, .keep, mid.ids,
        mid.prices.cost .pointCut block.rect.area⟩ :=
    .pointCut hlive (hrect ▸ advanced.cut)
  obtain ⟨b', works, hparts⟩ := retraces.ready.cut hlive hlegal htiles
  have hready : b'.Ready width height w'.block.id w'.block.rect := by
    rw [advanced.id_eq, advanced.rect_eq]
    cases direction with
    | downLeft => exact hparts 0 (by simp [Quarters.toList])
    | downRight => exact hparts 1 (by simp [Quarters.toList])
    | upRight => exact hparts 2 (by simp [Quarters.toList])
    | upLeft => exact hparts 3 (by simp [Quarters.toList])
  refine ⟨b', retraces.append works.run advanced.instructions_eq hready ?_ works.cost_eq ?_
    works.kept ?_⟩
  · rw [advanced.ids_eq]
    rfl
  · rw [advanced.cost_eq, hprices, hrect]
  · intro p hp
    rw [advanced.rect_eq] at hp
    rw [htiles.mem_iff]
    refine ⟨_, ?_, hp⟩
    cases direction <;> simp [continuation, Quarters.toList]

lemma Retraces.moves (retraces : Retraces b target.width target.height rect w mid)
    (moves : Moves target direction size w w') :
    ∃ b', Retraces b target.width target.height rect w' b' := by
  cases moves with
  | paintAll c => exact retraces.paintAll c
  | paintBeyond h =>
    obtain ⟨low, high, cut, left, repainted⟩ := repainted_of_paintBeyond h
    exact retraces.repaint cut left repainted
  | advance h =>
    obtain ⟨quarters, advanced⟩ := advanced_of_advance h
    exact retraces.advance advanced

/-- Whatever a walk comes to, a board on which it could begin can follow it. -/
theorem Retraces.trail (retraces : Retraces b target.width target.height rect w mid)
    (trail : Trail target direction size w w') :
    ∃ b', Retraces b target.width target.height rect w' b' := by
  induction trail with
  | refl => exact ⟨mid, retraces⟩
  | tail _ moves ih =>
    obtain ⟨b', retraces⟩ := ih
    exact retraces.moves moves

lemma prefix_of_trail (trail : Trail target direction size w w') :
    w.instructions.toList <+: w'.instructions.toList := by
  induction trail with
  | refl => exact List.prefix_rfl
  | @tail v v' _ moves ih =>
    refine ih.trans ?_
    cases moves with
    | paintAll c => simp [Walk.paintAll, Walk.push]
    | paintBeyond h =>
      obtain ⟨low, high, _, _, repainted⟩ := repainted_of_paintBeyond h
      exact ⟨_, repainted.instructions_eq.symm⟩
    | advance h =>
      obtain ⟨quarters, advanced⟩ := advanced_of_advance h
      exact ⟨_, advanced.instructions_eq.symm⟩

lemma extract_of_trail (trail : Trail target direction size w w') :
    (w'.instructions.extract 0 w.instructions.size).toList = w.instructions.toList := by
  rw [List.prefix_iff_eq_take.mp (prefix_of_trail trail)]
  simp

/-- What a run makes of the result of its loop. -/
def outcome (size : Nat) (direction : Direction) :
    Except GeometryError (Walk × Milestone) → Except SolveError GridRun
  | .error e => .error (.geometry e)
  | .ok (walk, best) => .ok {
      cellSize := size
      direction
      instructions := (walk.instructions.extract 0 best.length).toList
      cost := best.cost
      similarity := best.similarity }

lemma run_eq {start : Block} {painted : Raster} {ids : IdSupply} {epsilon : Float}
    {cache : ColorCache} (onRaster : start.rect.Within target.width target.height)
    (positive : 0 < size) :
    runFrom cache (run target epsilon start painted ids size direction) =
      Prod.map (outcome size direction) id (runFrom cache
        (passes target epsilon direction size start.rect.width (Walk.start start painted ids)
          ((Walk.start start painted ids).milestone target))) := by
  have hcheck : target.check start.rect = .ok () := if_pos onRaster
  have hsize : size ≠ 0 := Nat.pos_iff_ne_zero.mp positive
  simp only [run, hcheck, hsize, if_false]
  change runFrom cache (ExceptT.adapt SolveError.geometry _ >>= _) = _
  have hadapt : ∀ m : GridM (Walk × Milestone),
      runFrom cache (ExceptT.adapt SolveError.geometry m) =
        ((runFrom cache m).1.mapError SolveError.geometry, (runFrom cache m).2) :=
    fun _ => rfl
  rw [runFrom_bind, hadapt]
  rcases runFrom cache (passes target epsilon direction size start.rect.width
    (Walk.start start painted ids) ((Walk.start start painted ids).milestone target))
    with ⟨e | ⟨walk, best⟩, cache'⟩
  · rfl
  · rfl

lemma Retraces.beginning {w₀ : Walk} {best : Milestone}
    (retraces : Retraces b target.width target.height rect w₀ mid)
    (kept : Kept target direction size w₀ (w₀.milestone target) w best) :
    ∃ v b', (w.instructions.extract 0 best.length).toList = v.instructions.toList ∧
      best.cost = v.cost ∧ Retraces b target.width target.height rect v b' := by
  obtain ⟨v, hv, hv', rfl⟩ : ∃ v, Trail target direction size w₀ v ∧
      Trail target direction size v w ∧ best = v.milestone target := by
    rcases kept.2 with hbest | later
    · exact ⟨w₀, .refl, kept.1, hbest⟩
    · exact later
  obtain ⟨b', hretraces⟩ := retraces.trail hv
  exact ⟨v, b', extract_of_trail hv', rfl, hretraces⟩

/-- Five columns of three pixels, white in the first two and black beyond. -/
def blackBeyond : Raster := .ofFn 5 3 fun x _ => if x < 2 then .white else .black

def fiveColumns : Block :=
  ⟨.top 0, ⟨0, 0, 5, 3, Nat.succ_pos 4, Nat.succ_pos 2⟩, some .white⟩

/-- A walk from this block as it begins on a board. -/
def whiteWalk : Walk :=
  Walk.start fiveColumns ((Raster.filled 5 3 .white).fill fiveColumns.rect .white) (.after 0)

/-- What this walk keeps: all columns beyond the second are cut off, painted and merged back. -/
def keptMoves : List Instruction :=
  [.lineCut (.top 0) .x 2, .color (.child (.top 0) 1) .black,
    .merge (.child (.top 0) 0) (.child (.top 0) 1)]

/-- After its best moment the walk goes on with a point cut, which does not pay. -/
lemma judged_of_whiteWalk : ∃ last best,
    judgePasses blackBeyond 0.5 .upRight 2 5 whiteWalk (whiteWalk.milestone blackBeyond) =
      .ok (last, best) ∧
    last.instructions.toList = keptMoves ++ [.pointCut (.top 1) 2 2] ∧
    last.painted.pixel 4 2 = .black ∧ best.length = 3 ∧ best.cost = 17 := by
  have heval : (judgePasses blackBeyond 0.5 .upRight 2 5 whiteWalk
      (whiteWalk.milestone blackBeyond)).toOption.map (fun r =>
        (r.1.instructions.toList, r.1.painted.pixel 4 2, r.2.length, r.2.cost)) =
      some (keptMoves ++ [.pointCut (.top 1) 2 2], .black, 3, 17) := by
    decide +kernel
  obtain ⟨⟨last, best⟩, hjudged, heq⟩ := exists_of_toOption heval
  simp only [Prod.mk.injEq] at heq
  exact ⟨last, best, hjudged, heq⟩

lemma run_of_whiteWalk {cache : ColorCache}
    (sound : cache.Sound (blackBeyond.medianColor · 0.5)) :
    ∃ kept, (runFrom cache (run blackBeyond 0.5 fiveColumns whiteWalk.painted (.after 0) 2
      .upRight)).1 = .ok kept ∧ kept.instructions = keptMoves ∧ kept.cost = 17 := by
  obtain ⟨last, best, hjudged, hinstructions, _, hlength, hcost⟩ := judged_of_whiteWalk
  have hpasses := (@yields_passes blackBeyond 0.5 .upRight 2 5 whiteWalk
    (whiteWalk.milestone blackBeyond) cache sound).1
  rw [hjudged] at hpasses
  refine ⟨_, (congrArg Prod.fst (run_eq (by decide) (by decide))).trans
    (congrArg (outcome 2 .upRight) hpasses), ?_, hcost⟩
  change (last.instructions.extract 0 best.length).toList = keptMoves
  rw [hlength, Array.toList_extract, hinstructions]
  rfl

/-- A walk of cells of at least one pixel from a block on the raster ends, and it fails only if
fewer numbers were left than the block has pixels. Its counters stay coordinates on a raster with
sides of at most `2 ^ 31`. On every board that has the block as it is, with no other id below it and
the same next number, what was kept of the walk goes through, costs what it says and leaves all
pixels outside the block alone. -/
theorem run_retraced {start : Block} (onRaster : start.rect.Within target.width target.height)
    (sides : target.width ≤ 2 ^ 31 ∧ target.height ≤ 2 ^ 31) (positive : 0 < size)
    (epsilon : Float) (painted : Raster) (ids : IdSupply) (direction : Direction)
    (cache : ColorCache) :
    ∃ result cache',
      Walks target epsilon direction size (Walk.start start painted ids)
        ((Walk.start start painted ids).milestone target) cache result cache' ∧
      runFrom cache (run target epsilon start painted ids size direction) =
        (outcome size direction result, cache') ∧
      (∀ length along, length ≤ start.rect.width ∨ length ≤ start.rect.height →
        along ∈ offsets size length → along + size ≤ maxCoordinate) ∧
      match outcome size direction result with
      | .error e => e = .geometry .idsExhausted ∧
          ∃ w, Trail target direction size (Walk.start start painted ids) w ∧ w.ids.take = none ∧
            w.ids.next < ids.next + start.rect.area
      | .ok kept => ∀ initial b, Reached target.width target.height initial b →
          b.live[start.id]? = some start → b.ids = ids →
          (∀ id, id ≠ start.id → id.Extends start.id → b.live[id]? = none) →
          ∃ b', b.applyAll kept.instructions = .ok b' ∧ b'.cost = b.cost + kept.cost ∧
            ∀ x y, x < target.width → y < target.height → (x, y) ∉ start.rect →
              b'.painted.pixel x y = b.painted.pixel x y := by
  have hwalks : Walks target epsilon direction size (Walk.start start painted ids)
      ((Walk.start start painted ids).milestone target) cache _ _ :=
    walks_passes positive (Nat.le_refl start.rect.width)
  refine ⟨_, _, hwalks, run_eq onRaster positive, ?_, ?_⟩
  · intro length along hlength halong
    have hright := onRaster.1
    have htop := onRaster.2
    refine offset_add_size_le positive ?_ halong
    unfold Rect.right at hright
    unfold Rect.top at htop
    omega
  · have hsettles := hwalks.settles positive
    -- From here on only how the walk settled matters, not how it was run.
    generalize (runFrom cache (passes target epsilon direction size start.rect.width
      (Walk.start start painted ids) ((Walk.start start painted ids).milestone target))).1 = result
      at hsettles
    rcases result with e | ⟨walk, best⟩
    · exact ⟨congrArg SolveError.geometry hsettles.1, hsettles.2⟩
    · intro initial b reached live hids alone
      have ready : b.Ready target.width target.height start.id start.rect :=
        ⟨reached.sized, onRaster, ⟨start, live, rfl⟩, alone⟩
      have begun : Retraces b target.width target.height start.rect
          (Walk.start start painted ids) b :=
        ⟨rfl, ready, reached.rooted, hids, rfl, fun _ _ _ _ _ => rfl, fun _ hp => hp⟩
      obtain ⟨v, b', hinstructions, hcost, retraces⟩ := begun.beginning hsettles
      refine ⟨b', ?_, ?_, retraces.kept⟩
      · change b.applyAll (walk.instructions.extract 0 best.length).toList = .ok b'
        rw [hinstructions]
        exact retraces.run
      · change b'.cost = b.cost + best.cost
        rw [hcost]
        exact retraces.cost_eq

/-- The walk takes a number for its merge, the board gives the same one, and both count the same
cost. -/
theorem run_of_blackBeyond :
    ∃ kept cache' first b',
      runFrom .empty (run blackBeyond 0.5 fiveColumns whiteWalk.painted (.after 0) 2 .upRight) =
        (.ok kept, cache') ∧
      kept.instructions = keptMoves ∧ kept.cost = 17 ∧ start 5 3 [fiveColumns] = .ok first ∧
      first.applyAll kept.instructions = .ok b' ∧ b'.cost = first.cost + kept.cost := by
  obtain ⟨first, hfirst⟩ := @exists_start 5 3 [fiveColumns] (List.pairwise_singleton _ _)
  obtain ⟨hlive, halone⟩ := live_start_single hfirst
  obtain ⟨result, cache', _, hrun, _, hresult⟩ := @run_retraced blackBeyond 2 fiveColumns
    (by decide) (by decide) (by decide) 0.5 whiteWalk.painted (.after 0) .upRight .empty
  obtain ⟨kept, hkept, hinstructions, hcost⟩ := run_of_whiteWalk (ColorCache.sound_empty _)
  rw [hrun] at hkept
  change outcome 2 .upRight result = .ok kept at hkept
  rw [hkept] at hrun hresult
  obtain ⟨b', hall, hprice, _⟩ := hresult [fiveColumns] first ⟨first, hfirst, [], rfl⟩ hlive
    (counters_of_start hfirst).1 fun id hne _ => halone id hne
  exact ⟨kept, cache', first, b', hrun, hinstructions, hcost, hfirst, hall, hprice⟩

end GridWalk

end BlockPainting
