import BlockPainting.Proofs.Search.Moments
import BlockPainting.Proofs.Search.Retrace

/-!
# Grid walks account for every pixel

At every moment of a walk the parts left behind and the block that the walk is in tile the block
where it started. The log tells how the painting and the similarity of the parts left behind came
about, and nothing is painted where something was left before. A board that follows the walk shows
the same painting.
-/

namespace BlockPainting.GridWalk

open Board Success

variable {target : Raster} {epsilon : Float} {direction : Direction} {size : Nat}
variable {w w' : Walk} {notes log : List Note} {prices : Pricing} {axis : Axis} {position : Nat}
variable {farIsHigh : Bool} {c : Color} {low high whole : Rect} {quarters : Quarters Rect}
variable {painted : Raster}

/-- What is filled later does not touch what was left before. -/
def Note.Spares : Note → Note → Prop
  | .left rect, .filled rect' _ => rect.Apart rect'
  | _, _ => True

/-- The notes of a step account for it: the block that the walk is in now and the rectangles left
behind tile the block before, and the notes tell how the painting and the similarity changed. -/
structure Entry (target : Raster) (w : Walk) (notes : List Note) (w' : Walk) : Prop where
  tiles : Rect.Tiles (w'.block.rect :: leftIn notes) w.block.rect
  replayed : notes.foldl (Note.replay target) (w.painted, w.frozen) = (w'.painted, w'.frozen)
  inside : ∀ rect c, Note.filled rect c ∈ notes → ∀ p : Nat × Nat, p ∈ rect → p ∈ w.block.rect
  spared : notes.Pairwise Note.Spares

lemma mem_leftIn {rect : Rect} : rect ∈ leftIn log ↔ Note.left rect ∈ log := by
  simp only [leftIn, List.mem_filterMap]
  constructor
  · rintro ⟨_ | rect', hmem, heq⟩
    · cases heq
    · obtain rfl := Option.some.inj heq
      exact hmem
  · exact fun hmem => ⟨_, hmem, rfl⟩

lemma leftIn_append (log notes : List Note) : leftIn (log ++ notes) = leftIn log ++ leftIn notes :=
  List.filterMap_append

lemma leftIn_map_left (rects : List Rect) : leftIn (rects.map .left) = rects := by
  rw [leftIn, List.filterMap_map]
  exact List.filterMap_some

lemma painted_of_paintBeyond (cut : w.block.rect.cut axis position = .ok (low, high))
    (h : w.paintBeyond axis position farIsHigh c prices = .ok w') :
    w'.painted = w.painted.fill (far farIsHigh low high) c ∧ w'.frozen = w.frozen := by
  obtain ⟨_, hcut, h⟩ := bind_eq_ok.mp h
  obtain ⟨low', high', cut', rfl⟩ := Block.lineCut_eq_ok.mp hcut
  obtain ⟨rfl, rfl⟩ := Prod.mk.inj (Except.ok.inj (cut.symm.trans cut'))
  cases farIsHigh with
  | true =>
    obtain ⟨_, _, h⟩ := bind_eq_ok.mp h
    obtain rfl := Except.ok.inj h
    exact ⟨rfl, rfl⟩
  | false =>
    obtain ⟨_, _, h⟩ := bind_eq_ok.mp h
    obtain rfl := Except.ok.inj h
    exact ⟨rfl, rfl⟩

lemma state_of_advance
    (cut : w.block.rect.cutPoint (columnLine w.block.rect direction size)
      (rowLine w.block.rect direction size) = .ok quarters)
    (h : w.advance target direction size prices = .ok w') :
    w'.block.rect = continuation quarters direction ∧ w'.painted = w.painted ∧
      w'.frozen = (leftBehind quarters direction).foldl
        (fun sum rect => sum + w.painted.similarityTo target rect) w.frozen := by
  simp only [Walk.advance, bind_eq_ok, pure_eq_ok, Block.pointCut_eq_ok] at h
  obtain ⟨_, ⟨quarters', cut', rfl⟩, rfl⟩ := h
  obtain rfl := Except.ok.inj (cut.symm.trans cut')
  cases direction <;> exact ⟨rfl, rfl, rfl⟩

lemma entry_of_rect_eq {rect : Rect} (rect_eq : w'.block.rect = w.block.rect)
    (inside : ∀ p : Nat × Nat, p ∈ rect → p ∈ w.block.rect)
    (painted_eq : w'.painted = w.painted.fill rect c) (frozen_eq : w'.frozen = w.frozen) :
    Entry target w [.filled rect c] w' := by
  refine ⟨?_, ?_, ?_, List.pairwise_singleton _ _⟩
  · rw [rect_eq]
    exact Rect.Tiles.singleton w.block.rect
  · rw [painted_eq, frozen_eq]
    rfl
  · intro rect' c' hmem
    obtain ⟨rfl, rfl⟩ := Note.filled.inj (List.mem_singleton.mp hmem)
    exact inside

lemma rect_of_paints (paints : Paints prices w notes w') : w'.block.rect = w.block.rect := by
  cases paints with
  | nothing => rfl
  | whole c => rfl
  | beyond cut h =>
    obtain ⟨_, _, _, _, repainted⟩ := repainted_of_paintBeyond h
    exact repainted.rect_eq

lemma entry_of_paints (paints : Paints prices w notes w') : Entry target w notes w' := by
  have hrect := rect_of_paints paints
  cases paints with
  | nothing =>
    exact ⟨Rect.Tiles.singleton w.block.rect, rfl, fun _ _ hmem => absurd hmem List.not_mem_nil,
      List.Pairwise.nil⟩
  | whole c => exact entry_of_rect_eq hrect (fun _ hp => hp) rfl rfl
  | beyond cut h =>
    obtain ⟨painted_eq, frozen_eq⟩ := painted_of_paintBeyond cut h
    exact entry_of_rect_eq hrect (far_inside cut) painted_eq frozen_eq

lemma continuation_cons_perm (quarters : Quarters Rect) (direction : Direction) :
    quarters.toList.Perm (continuation quarters direction :: leftBehind quarters direction) := by
  obtain ⟨bottomLeft, bottomRight, topRight, topLeft⟩ := quarters
  cases direction with
  | downLeft => exact List.Perm.refl _
  | downRight => exact @List.perm_middle _ bottomRight [bottomLeft] [topRight, topLeft]
  | upRight => exact @List.perm_middle _ topRight [bottomLeft, bottomRight] [topLeft]
  | upLeft => exact @List.perm_middle _ topLeft [bottomLeft, bottomRight, topRight] []

lemma replay_left (rects : List Rect) (painted : Raster) (frozen : Float) :
    (rects.map .left).foldl (Note.replay target) (painted, frozen) =
      (painted, rects.foldl (fun sum rect => sum + painted.similarityTo target rect) frozen) := by
  induction rects generalizing frozen with
  | nil => rfl
  | cons rect rest ih => exact ih (frozen + painted.similarityTo target rect)

lemma entry_of_advance
    (cut : w.block.rect.cutPoint (columnLine w.block.rect direction size)
      (rowLine w.block.rect direction size) = .ok quarters)
    (h : w.advance target direction size prices = .ok w') :
    Entry target w ((leftBehind quarters direction).map .left) w' := by
  obtain ⟨rect_eq, painted_eq, frozen_eq⟩ := state_of_advance cut h
  refine ⟨?_, ?_, ?_, ?_⟩
  · rw [rect_eq, leftIn_map_left]
    exact (Rect.cutPoint_tiles cut).perm (continuation_cons_perm quarters direction)
  · rw [replay_left, painted_eq, frozen_eq]
  · intro rect c hmem
    obtain ⟨_, _, heq⟩ := List.mem_map.mp hmem
    cases heq
  · rw [List.pairwise_map]
    exact List.pairwise_of_forall fun _ _ => trivial

/-- The log accounts for a walk that started in `whole` on this painting. -/
structure Balanced (target : Raster) (whole : Rect) (painted : Raster) (w : Walk)
    (log : List Note) : Prop where
  tiles : Rect.Tiles (w.block.rect :: leftIn log) whole
  replayed : log.foldl (Note.replay target) (painted, 0.0) = (w.painted, w.frozen)
  spared : log.Pairwise Note.Spares

lemma Balanced.append (balanced : Balanced target whole painted w log)
    (entry : Entry target w notes w') : Balanced target whole painted w' (log ++ notes) := by
  refine ⟨?_, ?_, ?_⟩
  · refine (balanced.tiles.replace entry.tiles).perm ?_
    rw [leftIn_append, List.cons_append]
    exact List.perm_append_comm.cons _
  · rw [List.foldl_append, balanced.replayed, entry.replayed]
  · -- A later fill stays in the block, and the block is apart from what was left behind.
    refine List.pairwise_append.mpr ⟨balanced.spared, entry.spared, ?_⟩
    intro earlier hearlier later hlater
    match earlier, later with
    | .left rect, .filled rect' c =>
      intro p hp hp'
      have hblock := entry.inside rect' c hlater p hp'
      exact (List.pairwise_cons.mp balanced.tiles.apart).1 rect (mem_leftIn.mpr hearlier) p
        hblock hp
    | .left _, .left _ => trivial
    | .filled .., _ => trivial

lemma balanced_start (start : Block) (ids : IdSupply) :
    Balanced target start.rect painted (Walk.start start painted ids) [] :=
  ⟨Rect.Tiles.singleton start.rect, rfl, List.Pairwise.nil⟩

lemma Step.balanced {m m' : Moment} (step : Step target epsilon direction size m m')
    (balanced : Balanced target whole painted m.walk m.log) (rect_eq : m.walk.block.rect = m.rect) :
    Balanced target whole painted m'.walk m'.log ∧ m'.walk.block.rect = m'.rect := by
  cases step with
  | look ran paints =>
    exact ⟨balanced.append (entry_of_paints paints), (rect_of_paints paints).trans rect_eq⟩
  | onward large cut next => exact ⟨balanced.append (entry_of_advance cut next), rfl⟩

lemma balanced_of_reaches {m m' : Moment} (reaches : Reaches target epsilon direction size m m')
    (balanced : Balanced target whole painted m.walk m.log) (rect_eq : m.walk.block.rect = m.rect) :
    Balanced target whole painted m'.walk m'.log ∧ m'.walk.block.rect = m'.rect := by
  induction reaches with
  | refl => exact ⟨balanced, rect_eq⟩
  | tail _ step ih => exact step.balanced ih.1 ih.2

section Boards

variable {b mid b' : Board} {width height : Nat} {rect : Rect} {block : Block} {o : BlockId}

lemma painted_of_color {paint : Color} (live : b.live[o]? = some block)
    (h : b.apply (.color o paint) = .ok b') : b'.painted = b.painted.fill block.rect paint := by
  obtain ⟨_, legal, rfl⟩ := apply_eq_ok_iff.mp h
  cases legal with
  | color paint live' =>
    obtain rfl := Option.some.inj (live.symm.trans live')
    rfl

lemma painted_of_regrouping {i : Instruction} (h : b.apply i = .ok b')
    (regroups : i.isCut = true ∨ i.operation = .merge) : b'.painted = b.painted := by
  obtain ⟨change, legal, rfl⟩ := apply_eq_ok_iff.mp h
  have hkeep : change.stroke = .keep := by
    cases legal with
    | color => simp [Instruction.isCut, Instruction.operation] at regroups
    | swap => simp [Instruction.isCut, Instruction.operation] at regroups
    | lineCut => rfl
    | pointCut => rfl
    | merge => rfl
  change b.painted.stroke change.stroke = b.painted
  rw [hkeep]
  rfl

lemma live_of_lineCut (farIsHigh : Bool) (sized : b.Sized width height)
    (live : b.live[o]? = some block) (cut : block.rect.cut axis position = .ok (low, high))
    (h : b.apply (.lineCut o axis position) = .ok b') :
    b'.live[o.child (far farIsHigh 0 1)]? =
      some (block.part (far farIsHigh 0 1) (far farIsHigh low high)) := by
  obtain rfl := sized.keyed o block live
  obtain ⟨_, legal, rfl⟩ := apply_eq_ok_iff.mp h
  have hlive := @live_commit_iff b _ legal.distinct
  cases legal with
  | lineCut live' cut' =>
    obtain rfl := Option.some.inj (live.symm.trans live')
    obtain ⟨rfl, rfl⟩ := Prod.mk.inj (Except.ok.inj (cut.symm.trans cut'))
    cases farIsHigh with
    | true => exact hlive.mpr (Or.inl ⟨List.mem_cons_of_mem _ List.mem_cons_self, rfl⟩)
    | false => exact hlive.mpr (Or.inl ⟨List.mem_cons_self, rfl⟩)

/-- A board that has carried out the instructions of the walk and shows the same painting. -/
structure Follows (b : Board) (width height : Nat) (rect : Rect) (w : Walk) (b' : Board) : Prop
    extends Retraces b width height rect w b' where
  painted_eq : b'.painted = w.painted

/-- What a board has to do that has followed a walk up to the last instructions. -/
lemma Retraces.rest {program : List Instruction} (retraces : Retraces b width height rect w mid)
    (retraces' : Retraces b width height rect w' b')
    (instructions_eq : w'.instructions.toList = w.instructions.toList ++ program) :
    mid.applyAll program = .ok b' := by
  have hrun := retraces'.run
  rw [instructions_eq] at hrun
  obtain ⟨mid', hmid', hrest⟩ := applyAll_append_eq_ok.mp hrun
  obtain rfl := Except.ok.inj (retraces.run.symm.trans hmid')
  exact hrest

lemma Follows.beyond (follows : Follows b target.width target.height rect w mid)
    (cut : w.block.rect.cut axis position = .ok (low, high))
    (h : w.paintBeyond axis position farIsHigh c target.pricing = .ok w') :
    ∃ b', Follows b target.width target.height rect w' b' := by
  obtain ⟨low', high', cut', left, repainted⟩ := repainted_of_paintBeyond h
  obtain ⟨b', retraces⟩ := follows.repaint cut' left repainted
  have hrest := follows.rest retraces repainted.instructions_eq
  obtain ⟨divided, hcut, hrest⟩ := applyAll_cons_eq_ok.mp hrest
  obtain ⟨colored, hcolor, hrest⟩ := applyAll_cons_eq_ok.mp hrest
  obtain ⟨merged, hmerge, hrest⟩ := applyAll_cons_eq_ok.mp hrest
  obtain rfl := Except.ok.inj hrest
  obtain ⟨block, live, hblock⟩ := follows.ready.live
  rw [← hblock] at cut
  have hpart := live_of_lineCut farIsHigh follows.ready.sized live cut hcut
  rw [hblock] at cut
  refine ⟨merged, retraces, ?_⟩
  rw [painted_of_regrouping hmerge (Or.inr rfl), painted_of_color hpart hcolor,
    painted_of_regrouping hcut (Or.inl rfl), follows.painted_eq,
    (painted_of_paintBeyond cut h).1, Board.part_rect]

lemma Follows.color (follows : Follows b target.width target.height rect w mid) (c : Color) :
    ∃ b', Follows b target.width target.height rect (w.paintAll c target.pricing) b' := by
  obtain ⟨b', retraces⟩ := follows.paintAll c
  have hrest : mid.applyAll [.color w.block.id c] = .ok b' :=
    follows.rest retraces (by simp [Walk.paintAll, Walk.push, Block.recolor])
  obtain ⟨colored, hcolor, hrest⟩ := applyAll_cons_eq_ok.mp hrest
  obtain rfl := Except.ok.inj hrest
  obtain ⟨block, live, hblock⟩ := follows.ready.live
  refine ⟨colored, retraces, ?_⟩
  rw [painted_of_color live hcolor, follows.painted_eq, hblock]
  rfl

lemma Follows.onward (follows : Follows b target.width target.height rect w mid)
    (cut : w.block.rect.cutPoint (columnLine w.block.rect direction size)
      (rowLine w.block.rect direction size) = .ok quarters)
    (h : w.advance target direction size target.pricing = .ok w') :
    ∃ b', Follows b target.width target.height rect w' b' := by
  obtain ⟨_, advanced⟩ := advanced_of_advance h
  obtain ⟨b', retraces⟩ := follows.advance advanced
  have hrest := follows.rest retraces advanced.instructions_eq
  obtain ⟨divided, hcut, hrest⟩ := applyAll_cons_eq_ok.mp hrest
  obtain rfl := Except.ok.inj hrest
  refine ⟨divided, retraces, ?_⟩
  rw [painted_of_regrouping hcut (Or.inl rfl), follows.painted_eq, (state_of_advance cut h).2.1]

lemma Step.follows {m m' : Moment} (step : Step target epsilon direction size m m')
    (follows : Follows b target.width target.height rect m.walk mid) :
    ∃ b', Follows b target.width target.height rect m'.walk b' := by
  cases step with
  | look ran paints =>
    cases paints with
    | nothing => exact ⟨mid, follows⟩
    | whole c => exact follows.color c
    | beyond cut h => exact follows.beyond cut h
  | onward large cut next => exact follows.onward cut next

lemma follows_of_reaches {m m' : Moment} (reaches : Reaches target epsilon direction size m m')
    (follows : Follows b target.width target.height rect m.walk mid) :
    ∃ b', Follows b target.width target.height rect m'.walk b' := by
  induction reaches with
  | refl => exact ⟨mid, follows⟩
  | tail _ step ih =>
    obtain ⟨between, follows⟩ := ih
    exact step.follows follows

end Boards

/-- A walk from a block on the raster is followed from one cell to the next, until its block is
small or a look fails. At every moment its block has the rectangle with which the pass began, and
this rectangle tiles that of the start block together with all whose similarity was added up so far.
The painting and this sum are what the log makes of those at the start, and after a rectangle was
added nothing is painted in it. Every board with the painting and the next number of the start, the
start block live and no other id below it, can carry out the instructions so far: it then shows the
painting of the walk and has the block of the walk live. -/
theorem run_accounts {start : Block} (onRaster : start.rect.Within target.width target.height)
    (positive : 0 < size) (epsilon : Float) (painted : Raster) (ids : IdSupply)
    (direction : Direction) (cache : ColorCache) :
    (∃ result cache',
      runFrom cache (run target epsilon start painted ids size direction) =
        (outcome size direction result, cache') ∧
      Completes target epsilon direction size (Moment.first start painted ids size cache)
        ((Walk.start start painted ids).milestone target) result cache') ∧
    ∀ m, Reaches target epsilon direction size (Moment.first start painted ids size cache) m →
      m.walk.block.rect = m.rect ∧
      Rect.Tiles (m.walk.block.rect :: leftIn m.log) start.rect ∧
      m.log.foldl (Note.replay target) (painted, 0.0) = (m.walk.painted, m.walk.frozen) ∧
      m.log.Pairwise Note.Spares ∧
      ∀ initial b block, Reached target.width target.height initial b → b.painted = painted →
        b.ids = ids → b.live[start.id]? = some block → block.rect = start.rect →
        (∀ id, id ≠ start.id → id.Extends start.id → b.live[id]? = none) →
        ∃ b', b.applyAll m.walk.instructions.toList = .ok b' ∧ b'.painted = m.walk.painted ∧
          ∃ block, b'.live[m.walk.block.id]? = some block ∧ block.id = m.walk.block.id ∧
            block.rect = m.walk.block.rect := by
  constructor
  · have hwalks : Walks target epsilon direction size (Walk.start start painted ids)
        ((Walk.start start painted ids).milestone target) cache _ _ :=
      walks_passes positive (Nat.le_refl start.rect.width)
    exact ⟨_, _, run_eq onRaster positive, completes_of_walks positive hwalks .refl (Or.inl rfl)⟩
  · intro m reaches
    obtain ⟨balanced, rect_eq⟩ := balanced_of_reaches reaches (balanced_start start ids) rfl
    refine ⟨rect_eq, balanced.tiles, balanced.replayed, balanced.spared, ?_⟩
    intro initial b block reached hpainted hids live hrect alone
    have ready : b.Ready target.width target.height start.id start.rect :=
      ⟨reached.sized, onRaster, ⟨block, live, hrect⟩, alone⟩
    have begun : Follows b target.width target.height start.rect
        (Walk.start start painted ids) b :=
      ⟨⟨rfl, ready, reached.rooted, hids, rfl, fun _ _ _ _ _ => rfl, fun _ hp => hp⟩, hpainted⟩
    obtain ⟨b', follows⟩ := follows_of_reaches reaches begun
    obtain ⟨block', hlive, hrect'⟩ := follows.ready.live
    exact ⟨b', follows.run, follows.painted_eq, block', hlive,
      follows.ready.sized.keyed _ block' hlive, hrect'⟩

/-- At its end the walk has painted the black columns and left three quarters of the block behind,
which with the last quarter are all fifteen pixels. The board that follows it is painted alike. -/
theorem run_accounts_of_blackBeyond :
    ∃ board last b', start 5 3 [fiveColumns] = .ok board ∧
      Reaches blackBeyond 0.5 .upRight 2
        (Moment.first fiveColumns board.painted board.ids 2 .empty) last ∧ last.rest = [] ∧
      last.walk.instructions.toList = keptMoves ++ [.pointCut (.top 1) 2 2] ∧
      ((last.walk.block.rect :: leftIn last.log).map Rect.area).sum = 15 ∧
      board.applyAll last.walk.instructions.toList = .ok b' ∧ b'.painted = last.walk.painted ∧
      b'.painted.pixel 4 2 = .black := by
  obtain ⟨board, hboard⟩ := @exists_start 5 3 [fiveColumns] (List.pairwise_singleton _ _)
  obtain ⟨hlive, halone⟩ := live_start_single hboard
  have hwalk : Walk.start fiveColumns board.painted board.ids = whiteWalk := by
    rw [painted_start_single hboard, (counters_of_start hboard).1]
    rfl
  have hreaches := (@run_accounts blackBeyond 2 fiveColumns (by decide) (by decide) 0.5
    board.painted board.ids .upRight .empty).2
  obtain ⟨w, best, hjudged, hmoves, hblack, _⟩ := judged_of_whiteWalk
  obtain ⟨rect, log, reached⟩ : ∃ rect log, Reaches blackBeyond 0.5 .upRight 2
      (Moment.first fiveColumns board.painted board.ids 2 .empty) ⟨rect, [], w, _, log⟩ := by
    have hwalks := @walks_passes blackBeyond 0.5 .upRight 2 5 whiteWalk
      (whiteWalk.milestone blackBeyond) .empty (by decide) (Nat.le_refl 5)
    rw [(yields_passes _ _ _ .empty (ColorCache.sound_empty _)).1, hjudged] at hwalks
    have begun : Reaches blackBeyond 0.5 .upRight 2
        (Moment.first fiveColumns board.painted board.ids 2 .empty)
        ⟨whiteWalk.block.rect, looks whiteWalk.block.rect 2, whiteWalk, .empty, []⟩ := by
      rw [Moment.first, hwalk]
      exact .refl
    exact (completes_of_walks (by decide) hwalks begun (Or.inl rfl)).1
  obtain ⟨_, tiles, _, _, hboards⟩ := hreaches _ reached
  obtain ⟨b', hrun, hpainted, _⟩ := hboards [fiveColumns] board fiveColumns
    ⟨board, hboard, [], rfl⟩ rfl rfl hlive rfl fun id hne _ => halone id hne
  exact ⟨board, _, b', hboard, reached, rfl, hmoves, tiles.area_eq, hrun, hpainted,
    hpainted ▸ hblack⟩

end BlockPainting.GridWalk
