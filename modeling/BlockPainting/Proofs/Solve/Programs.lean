import BlockPainting.Proofs.Layout.Exchanging
import BlockPainting.Proofs.Layout.Joining
import BlockPainting.Proofs.Search.Bands
import BlockPainting.Proofs.Search.Execution
import BlockPainting.Proofs.Search.Places
import BlockPainting.Proofs.Search.Retrace
import BlockPainting.Proofs.Solve.Winner

/-!
# Every strategy ends with a program that replays

A strategy starts from the one block that an opening leaves on the board. Subdivisions and stripes
always come to a program that the board carries out. A grid walk does, too, unless one of its merges
finds no number left; then there were fewer numbers than the raster has pixels.
-/

namespace BlockPainting.Solve

open Success Board

section Ends

variable {α β γ : Type} {scarce scarce' p : Prop} {P Q : α → Prop} {R : β → Prop}
variable {x y : Except SolveError α} {f : α → Except SolveError β} {a : α}

/-- The computation comes to a result that satisfies `P`, or it runs out of numbers where they are
scarce. -/
def Ends (scarce : Prop) (P : α → Prop) (x : Except SolveError α) : Prop :=
  (∃ a, x = .ok a ∧ P a) ∨ scarce ∧ x = .error (.geometry .idsExhausted)

lemma ends_ok (h : x = .ok a) (ha : P a) : Ends scarce P x :=
  Or.inl ⟨a, h, ha⟩

lemma Ends.mono (h : Ends scarce P x) (more : scarce → scarce') (results : ∀ a, P a → Q a) :
    Ends scarce' Q x := by
  rcases h with ⟨a, ha, hP⟩ | ⟨few, he⟩
  · exact Or.inl ⟨a, ha, results a hP⟩
  · exact Or.inr ⟨more few, he⟩

lemma Ends.bind (h : Ends scarce P x) (hf : ∀ a, P a → Ends scarce R (f a)) :
    Ends scarce R (x >>= f) := by
  rcases h with ⟨a, rfl, hP⟩ | ⟨few, rfl⟩
  · exact hf a hP
  · exact Or.inr ⟨few, rfl⟩

/-- Where two branches go on in one way, this way is followed once. -/
lemma Ends.join [Decidable p] (h : p → Ends scarce P x) (h' : ¬ p → Ends scarce P y)
    (hf : ∀ a, P a → Ends scarce R (f a)) :
    Ends scarce R (if p then x >>= f else y >>= f) := by
  split
  · exact (h ‹p›).bind hf
  · exact (h' ‹¬ p›).bind hf

lemma Ends.join_map [Decidable p] {z : Except SolveError γ} {g : γ → α}
    (h : p → Ends scarce (fun c => P (g c)) z) (h' : ¬ p → Ends scarce P y)
    (hf : ∀ a, P a → Ends scarce R (f a)) :
    Ends scarce R (if p then z >>= fun c => pure (g c) >>= f else y >>= f) := by
  split
  · exact (h ‹p›).bind fun c hc => hf (g c) hc
  · exact (h' ‹¬ p›).bind hf

lemma Ends.runFrom_bind {σ : Type} {s : σ} {m : ExceptT SolveError (StateM σ) α}
    {f : α → ExceptT SolveError (StateM σ) β} (h : Ends scarce P (runFrom s m).1)
    (hf : ∀ a s', P a → Ends scarce R (runFrom s' (f a)).1) :
    Ends scarce R (runFrom s (m >>= f)).1 := by
  rw [Success.runFrom_bind]
  rcases hm : runFrom s m with ⟨e | a, s'⟩
  · rw [hm] at h
    rcases h with ⟨a, ha, _⟩ | ⟨few, he⟩
    · cases ha
    · cases he
      exact Or.inr ⟨few, rfl⟩
  · rw [hm] at h
    rcases h with ⟨a, ha, hP⟩ | ⟨_, he⟩
    · cases ha
      exact hf a s' hP
    · cases he

end Ends

variable {target : Raster} {initial : List Block} {settings : Settings} {clock : Clock}
variable {base : Base} {first board last : Board} {program : List Instruction}

def Plays (board : Board) (program : List Instruction) : Prop :=
  ∃ last, board.applyAll program = .ok last

/-- The opening of a base leads from the first board to one with nothing but the block of the base.
Every number up to the next one was in use at the start or paid for by a block. -/
structure Opened (target : Raster) (initial : List Block) (base : Base) (first board : Board) :
    Prop where
  start : Board.start target.width target.height initial = .ok first
  run : first.applyAll base.opening = .ok board
  holds : board.Holds target.width target.height [base.block]
  next_eq : board.ids.next = Block.largestRoot initial + initial.length

lemma Opened.ready (opened : Opened target initial base first board) :
    board.Ready target.width target.height base.block.id base.block.rect :=
  opened.holds.ready

lemma Opened.onRaster (opened : Opened target initial base first board) :
    base.block.rect.Within target.width target.height :=
  opened.ready.within

lemma Opened.plays (opened : Opened target initial base first board)
    (h : board.applyAll program = .ok last) : Plays first (base.opening ++ program) :=
  ⟨last, applyAll_append_eq_ok.mpr ⟨board, opened.run, h⟩⟩

lemma works_of_improve (sides : target.width ≤ 2 ^ 31 ∧ target.height ≤ 2 ^ 31)
    {o : BlockId} {rect : Rect} (ready : board.Ready target.width target.height o rect)
    (estimator : Estimator) (maxDepth : Nat) (current : Color) (history : List Subdivision.Query) :
    ∃ recipe next, Subdivision.improve target estimator maxDepth rect current 0
        (.after target estimator maxDepth history) = .ok (recipe, next) ∧
      Plays board (recipe.bind o) := by
  obtain ⟨recipe, next, himprove⟩ := Subdivision.improve_succeeds
    ⟨sides.1.trans (by decide), sides.2.trans (by decide)⟩ ready.within estimator maxDepth current 0
    (.after target estimator maxDepth history)
  obtain ⟨b', works⟩ := (Subdivision.planned_of_improve himprove).2.performs board o ready
  exact ⟨recipe, next, himprove, b', works.run⟩

lemma subdivide_plays (sides : target.width ≤ 2 ^ 31 ∧ target.height ≤ 2 ^ 31)
    (opened : Opened target initial base first board) (settings : Settings) (clock : Clock) :
    ∃ c counters, subdivide target settings base clock = .ok (c, counters) ∧
      Plays first c.instructions := by
  obtain ⟨estimator, hestimator⟩ := Subdivision.exists_estimator opened.onRaster settings
  simp only [subdivide, hestimator]
  cases base.block.paint with
  | some current =>
    obtain ⟨recipe, next, himprove, last, hlast⟩ :=
      works_of_improve sides opened.ready estimator settings.maxDepth current []
    exact ⟨_, _, bind_eq_ok.mpr ⟨_, himprove, rfl⟩, opened.plays hlast⟩
  | none =>
    obtain ⟨painted, works, ready⟩ := opened.ready.color
      (ColorCache.empty.color (estimator.estimate target) base.block.rect).1
    obtain ⟨recipe, next, himprove, last, hlast⟩ :=
      works_of_improve sides ready estimator settings.maxDepth
        (ColorCache.empty.color (estimator.estimate target) base.block.rect).1
        [.color base.block.rect]
    refine ⟨_, _, bind_eq_ok.mpr ⟨_, himprove, rfl⟩, ?_⟩
    rw [List.append_assoc]
    exact opened.plays (applyAll_append_eq_ok.mpr ⟨painted, works.run, hlast⟩)

section Walks

open GridWalk

variable {size : Nat} {direction : Direction} {epsilon : Float} {painted : Raster}

/-- The numbers may run out: a walk over the raster can take one for every pixel but the first. -/
def Scarce (target : Raster) (initial : List Block) : Prop :=
  maxRoot + 1 < Block.largestRoot initial + initial.length + target.width * target.height

lemma ends_run (opened : Opened target initial base first board) (positive : 0 < size)
    (cache : ColorCache) :
    Ends (Scarce target initial) (fun kept => Plays board kept.instructions)
      (runFrom cache (run target epsilon base.block painted board.ids size direction)).1 := by
  have hwalks : Walks target epsilon direction size (Walk.start base.block painted board.ids)
      ((Walk.start base.block painted board.ids).milestone target) cache _ _ :=
    walks_passes positive (Nat.le_refl base.block.rect.width)
  have hsettles := hwalks.settles positive
  rw [run_eq opened.onRaster positive, Prod.map_fst]
  generalize (runFrom cache (passes target epsilon direction size base.block.rect.width
    (Walk.start base.block painted board.ids)
    ((Walk.start base.block painted board.ids).milestone target))).1 = result at hsettles
  rcases result with e | ⟨walk, best⟩
  · obtain ⟨rfl, w, _, none_left, hlt⟩ := hsettles
    have hnone := take_eq_none_iff.mp none_left
    have harea := opened.onRaster.area_le
    have hnext := opened.next_eq
    change w.ids.next < board.ids.next + base.block.rect.area at hlt
    refine Or.inr ⟨?_, rfl⟩
    unfold Scarce
    omega
  · have begun : Retraces board target.width target.height base.block.rect
        (Walk.start base.block painted board.ids) board :=
      ⟨rfl, opened.ready, opened.holds.rooted, rfl, rfl, fun _ _ _ _ _ => rfl, fun _ hp => hp⟩
    obtain ⟨v, last, hinstructions, _, retraces⟩ := begun.beginning hsettles
    refine ends_ok rfl ⟨last, ?_⟩
    change board.applyAll (walk.instructions.extract 0 best.length).toList = .ok last
    rw [hinstructions]
    exact retraces.run

lemma ends_sweep (opened : Opened target initial base first board)
    {walks : List (Nat × Direction)} (positive : ∀ walk ∈ walks, 0 < walk.1)
    {best : Option GridRun} (kept : ∀ r ∈ best, Plays board r.instructions) (cache : ColorCache) :
    Ends (Scarce target initial) (fun best => ∀ r ∈ best, Plays board r.instructions)
      (runFrom cache (walks.foldlM (fun best (size, direction) => do
        let walk ← run target epsilon base.block painted board.ids size direction
        return some (cheaper best walk)) best)).1 := by
  induction walks generalizing best cache with
  | nil => exact ends_ok rfl kept
  | cons walk rest ih =>
    obtain ⟨size, direction⟩ := walk
    rw [List.forall_mem_cons] at positive
    have hrun := @ends_run target initial base first board size direction epsilon painted opened
      positive.1 cache
    rw [List.foldlM_cons]
    refine Ends.runFrom_bind (hrun.runFrom_bind fun walk s' hwalk => ?_)
      fun best' s' hbest' => ih positive.2 hbest' s'
    refine ends_ok rfl ?_
    intro r hr
    obtain rfl := Option.some.inj hr
    cases best with
    | none => exact hwalk
    | some b =>
      simp only [cheaper]
      split
      · exact hwalk
      · exact kept b rfl

/-- The grid walks end with a program that replays, or there were fewer numbers than pixels. -/
lemma ends_walkGrid (opened : Opened target initial base first board)
    (positive : ∀ size ∈ settings.gridCellSizes, 0 < size) (painted : Raster) (clock : Clock) :
    Ends (Scarce target initial) (fun cs => ∀ c ∈ cs, Plays first c.instructions)
      (walkGrid target painted board.ids settings base clock) := by
  have hpositive : ∀ walk ∈ settings.gridCellSizes.flatMap fun size =>
      settings.gridDirections.map fun direction => (size, direction), 0 < walk.1 := by
    intro walk hwalk
    obtain ⟨size, hsize, hwalk⟩ := List.mem_flatMap.mp hwalk
    obtain ⟨direction, _, rfl⟩ := List.mem_map.mp hwalk
    exact positive size hsize
  have hsweep : Ends (Scarce target initial) (fun best => ∀ r ∈ best, Plays board r.instructions)
      (runFrom ColorCache.empty (sweep target settings.medianEpsilon base.block painted board.ids
        settings.gridCellSizes settings.gridDirections)).1 :=
    ends_sweep opened hpositive (by simp) ColorCache.empty
  refine hsweep.bind ?_
  rintro (_ | walk) hbest
  · exact ends_ok rfl (by simp)
  · obtain ⟨last, hlast⟩ := hbest walk rfl
    refine ends_ok rfl ?_
    intro c hc
    obtain rfl := List.mem_singleton.mp hc
    exact opened.plays hlast

end Walks

lemma stripe_plays (opened : Opened target initial base first board)
    (positive : 0 < settings.stripeStep) (painted : Raster) (clock : Clock) :
    ∃ c, stripe target painted settings base clock = .ok c ∧ Plays first c.instructions := by
  obtain ⟨bands, similarity, hrun, stacked⟩ :=
    Stripes.stripes_eq_ok target painted opened.onRaster positive
  obtain ⟨b', works⟩ := stacked.works opened.ready
  exact ⟨_, bind_eq_ok.mpr ⟨_, hrun, rfl⟩, opened.plays works.run⟩

structure Sensible (settings : Settings) : Prop where
  cells : ∀ size ∈ settings.gridCellSizes, 0 < size
  step : 0 < settings.stripeStep

lemma sensible_of_validate (h : settings.validate = .ok ()) : Sensible settings := by
  unfold Settings.validate at h
  split at h
  · cases h
  · split at h
    · cases h
    · split at h
      · cases h
      · rename_i hcells
        split at h
        · cases h
        · rename_i hstep
          refine ⟨?_, Nat.pos_of_ne_zero hstep⟩
          intro size hsize
          exact Nat.pos_of_ne_zero fun hzero => hcells (hzero ▸ hsize)

lemma ends_paintBase (sides : target.width ≤ 2 ^ 31 ∧ target.height ≤ 2 ^ 31)
    (sensible : Sensible settings) (opened : Opened target initial base first board)
    (clock : Clock) :
    Ends (settings.strategy.runs .pixelGrid ∧ Scarce target initial)
      (fun painted => ∀ c ∈ painted.1, Plays first c.instructions)
      (paintBase target initial settings base clock) := by
  have hsubdivide : Ends (settings.strategy.runs .pixelGrid ∧ Scarce target initial)
      (fun r => ∀ c ∈ [r.1], Plays first c.instructions)
      (subdivide target settings base clock) := by
    obtain ⟨c, counters, hc, hplays⟩ := subdivide_plays sides opened settings clock
    exact ends_ok hc (by simpa using hplays)
  have hstripe : Ends (settings.strategy.runs .pixelGrid ∧ Scarce target initial)
      (fun c => ∀ c' ∈ [c], Plays first c'.instructions)
      (stripe target board.painted settings base clock) := by
    obtain ⟨c, hc, hplays⟩ := stripe_plays opened sensible.step board.painted clock
    exact ends_ok hc (by simpa using hplays)
  have hwalk := ends_walkGrid opened sensible.cells board.painted clock
  unfold paintBase
  refine Ends.bind (P := (· = first)) (ends_ok (replayed_eq_ok.mpr opened.start) rfl) ?_
  rintro first rfl
  refine Ends.bind (P := (· = board)) (ends_ok (replayed_eq_ok.mpr opened.run) rfl) ?_
  rintro board rfl
  refine Ends.join_map (P := fun r : List Candidate × Option Subdivision.Counters =>
      ∀ c ∈ r.1, Plays first c.instructions)
    (fun _ => hsubdivide) (fun _ => ends_ok rfl (by simp)) ?_
  rintro ⟨subdivided, counters⟩ hsubdivided
  refine Ends.join (fun hruns => hwalk.mono (fun few => ⟨hruns, few⟩) fun _ h => h)
    (fun _ => ends_ok rfl (by simp)) ?_
  intro walked hwalked
  refine Ends.join_map (P := fun cs : List Candidate => ∀ c ∈ cs, Plays first c.instructions)
    (fun _ => hstripe) (fun _ => ends_ok rfl (by simp)) ?_
  intro striped hstriped
  refine ends_ok rfl ?_
  simp only [List.forall_mem_append]
  exact ⟨⟨hsubdivided, hwalked⟩, hstriped⟩

end BlockPainting.Solve
