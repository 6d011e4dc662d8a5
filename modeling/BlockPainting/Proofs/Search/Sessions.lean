import BlockPainting.Proofs.Number.Least
import BlockPainting.Proofs.Number.Sum
import BlockPainting.Proofs.Search.Accounts

/-!
# Sessions of grid walks

The walks of a session share one cache of colors. Walks only ever ask a cache for the color of a
rectangle, and a cache that holds nothing but medians answers like an empty one, so no earlier walk
changes a later one. Then a sweep keeps the first of the cheapest among walks that begin afresh, and
a walk keeps the first of the cheapest among its beginnings that end with a pass.
-/

namespace BlockPainting.GridWalk

open Success

variable {ε α β : Type} {target : Raster} {epsilon : Float}

/-- What a computation comes to if nothing is in the cache. -/
def afresh (m : ExceptT ε (StateM ColorCache) α) : Except ε α :=
  (runFrom .empty m).1

/-- With any medians in the cache the computation comes to what it comes to without, and only
medians are in the cache when it ends. -/
def Forgetful (target : Raster) (epsilon : Float) (m : ExceptT ε (StateM ColorCache) α) : Prop :=
  Yields target epsilon m (afresh m)

lemma Yields.afresh_eq {m : ExceptT ε (StateM ColorCache) α} {x : Except ε α}
    (h : Yields target epsilon m x) : afresh m = x :=
  (h .empty (ColorCache.sound_empty _)).1

lemma Yields.forgetful {m : ExceptT ε (StateM ColorCache) α} {x : Except ε α}
    (h : Yields target epsilon m x) : Forgetful target epsilon m := by
  rwa [Forgetful, h.afresh_eq]

lemma forgetful_except (x : Except ε α) :
    Forgetful target epsilon (ExceptT.mk (pure x) : ExceptT ε (StateM ColorCache) α) :=
  (yields_except x).forgetful

lemma forgetful_pure (a : α) :
    Forgetful target epsilon (pure a : ExceptT ε (StateM ColorCache) α) :=
  (yields_pure a).forgetful

lemma afresh_bind {m : ExceptT ε (StateM ColorCache) α}
    {f : α → ExceptT ε (StateM ColorCache) β} (h : Forgetful target epsilon m)
    (hf : ∀ a, Forgetful target epsilon (f a)) :
    afresh (m >>= f) = (afresh m >>= fun a => afresh (f a)) :=
  (Yields.bind h hf).afresh_eq

lemma Forgetful.bind {m : ExceptT ε (StateM ColorCache) α}
    {f : α → ExceptT ε (StateM ColorCache) β} (h : Forgetful target epsilon m)
    (hf : ∀ a, Forgetful target epsilon (f a)) : Forgetful target epsilon (m >>= f) :=
  (Yields.bind h hf).forgetful

lemma forgetful_foldlM {step : β → α → ExceptT ε (StateM ColorCache) β}
    (h : ∀ b a, Forgetful target epsilon (step b a)) (as : List α) (b : β) :
    Forgetful target epsilon (as.foldlM step b) :=
  (yields_foldlM h as b).forgetful

section Walks

variable {direction : Direction} {size : Nat}

lemma forgetful_run (start : Block) (painted : Raster) (ids : IdSupply) (size : Nat)
    (direction : Direction) :
    Forgetful target epsilon (run target epsilon start painted ids size direction) := by
  unfold run
  split
  · exact forgetful_except _
  · by_cases zero : size = 0
    · simp only [zero, if_true]
      exact forgetful_except _
    · simp only [zero, if_false]
      exact ((yields_passes _ _ _).adapt _).forgetful.bind fun last => forgetful_pure _

lemma forgetful_sweep (start : Block) (painted : Raster) (ids : IdSupply) (sizes : List Nat)
    (directions : List Direction) :
    Forgetful target epsilon (sweep target epsilon start painted ids sizes directions) :=
  forgetful_foldlM (fun _ _ => (forgetful_run _ _ _ _ _).bind fun _ => forgetful_pure _) _ _

end Walks

inductive Call where
  | run (start : Block) (painted : Raster) (ids : IdSupply) (size : Nat) (direction : Direction)
  | sweep (start : Block) (painted : Raster) (ids : IdSupply) (sizes : List Nat)
      (directions : List Direction)

/-- The cache after a call, also after one that fails. -/
def Call.perform (target : Raster) (epsilon : Float) (cache : ColorCache) : Call → ColorCache
  | .run start painted ids size direction =>
    (runFrom cache (GridWalk.run target epsilon start painted ids size direction)).2
  | .sweep start painted ids sizes directions =>
    (runFrom cache (GridWalk.sweep target epsilon start painted ids sizes directions)).2

def after (target : Raster) (epsilon : Float) (history : List Call) : ColorCache :=
  history.foldl (Call.perform target epsilon) .empty

lemma Call.sound_perform {cache : ColorCache} (sound : cache.Sound (target.medianColor · epsilon))
    (call : Call) : (call.perform target epsilon cache).Sound (target.medianColor · epsilon) := by
  cases call with
  | run start painted ids size direction => exact (forgetful_run _ _ _ _ _ cache sound).2
  | sweep start painted ids sizes directions => exact (forgetful_sweep _ _ _ _ _ cache sound).2

lemma sound_after (history : List Call) :
    (after target epsilon history).Sound (target.medianColor · epsilon) := by
  induction history using List.reverseRecOn with
  | nil => exact ColorCache.sound_empty _
  | append_singleton history call ih =>
    rw [after, List.foldl_append]
    exact call.sound_perform ih

/-- What the walk has come to costs so much and is so far from the target. -/
def Walk.total (target : Raster) (w : Walk) : Float :=
  exactScore w.cost (w.similarity target)

def Milestone.total (m : Milestone) : Float :=
  exactScore m.cost m.similarity

section Ends

variable (target : Raster) (epsilon : Float) (direction : Direction) (size : Nat)

/-- The walk with which a loop begins goes through passes that end with these walks. -/
inductive Ends : Walk → List Walk → Prop
  | last {w w' : Walk} (ran : afresh (pass target epsilon direction size w) = .ok w')
      (small : w'.block.rect.width ≤ size ∨ w'.block.rect.height ≤ size) : Ends w [w']
  | onward {w w' w'' : Walk} {ends : List Walk}
      (ran : afresh (pass target epsilon direction size w) = .ok w')
      (large : ¬ (w'.block.rect.width ≤ size ∨ w'.block.rect.height ≤ size))
      (next : w'.advance target direction size target.pricing = .ok w'')
      (rest : Ends w'' ends) : Ends w (w' :: ends)

end Ends

section Kept

variable {direction : Direction} {size : Nat} {w w' last : Walk} {best best' : Milestone}
variable {cache cache' : ColorCache} {ends : List Walk}

lemma afresh_pass (sound : cache.Sound (target.medianColor · epsilon))
    (ran : runFrom cache (pass target epsilon direction size w) = (.ok w', cache')) :
    afresh (pass target epsilon direction size w) = .ok w' ∧
      cache'.Sound (target.medianColor · epsilon) := by
  obtain ⟨hpass, hsound⟩ := (yields_pass w).forgetful cache sound
  rw [ran] at hpass hsound
  exact ⟨hpass.symm, hsound⟩

/-- The loop keeps the best of the milestones at the ends of its passes, all of which lie on its
way. -/
def Visits (target : Raster) (epsilon : Float) (direction : Direction) (size : Nat) (w : Walk)
    (best : Milestone) : Except GeometryError (Walk × Milestone) → Prop
  | .error _ => True
  | .ok (last, best') => ∃ ends, Ends target epsilon direction size w ends ∧
      best' = (ends.map (·.milestone target)).foldl Milestone.better best ∧
      ∀ v ∈ w :: ends, Trail target direction size w v ∧ Trail target direction size v last

lemma Walks.visits (positive : 0 < size) {result : Except GeometryError (Walk × Milestone)}
    (walks : Walks target epsilon direction size w best cache result cache')
    (sound : cache.Sound (target.medianColor · epsilon)) :
    Visits target epsilon direction size w best result := by
  induction walks with
  | refused h => trivial
  | stuck h large next => trivial
  | @done w w' best cache cache' h small =>
    have htrail := (lingers_of_pass positive h).trail
    refine ⟨[w'], .last (afresh_pass sound h).1 small, rfl, ?_⟩
    exact List.forall_mem_cons.mpr ⟨⟨.refl, htrail⟩, by simpa using ⟨htrail, .refl⟩⟩
  | @onward w w' w'' best cache cache' cache'' result h large next rest ih =>
    obtain ⟨hpass, hsound⟩ := afresh_pass sound h
    rcases result with e | ⟨last, best'⟩
    · trivial
    · obtain ⟨ends, hends, hbest, hway⟩ := ih hsound
      obtain ⟨⟨_, honward⟩, hway⟩ := List.forall_mem_cons.mp hway
      have hfirst := (lingers_of_pass positive h).trail
      have hcut : Trail target direction size w' w'' := .single (.advance next)
      refine ⟨w' :: ends, .onward hpass large next hends, hbest, ?_⟩
      refine List.forall_mem_cons.mpr ⟨⟨.refl, hfirst.trans (hcut.trans honward)⟩, ?_⟩
      refine List.forall_mem_cons.mpr ⟨⟨hfirst, hcut.trans honward⟩, fun v hv => ?_⟩
      exact ⟨hfirst.trans (hcut.trans (hway v hv).1), (hway v hv).2⟩

lemma nonneg_frozen (trail : Trail target direction size w w') (nonneg : 0.0 ≤ w.frozen) :
    0.0 ≤ w'.frozen := by
  induction trail with
  | refl => exact nonneg
  | @tail v v' _ moves ih =>
    cases moves with
    | paintAll c => exact ih
    | paintBeyond h =>
      obtain ⟨low, high, cut, _⟩ := repainted_of_paintBeyond h
      rw [(painted_of_paintBeyond cut h).2]
      exact ih
    | advance h =>
      obtain ⟨quarters, advanced⟩ := advanced_of_advance h
      rw [(state_of_advance advanced.cut h).2.2]
      exact List.foldlRecOn _ _ ih fun _ hsum rect _ =>
        nonneg_add hsum (v.painted.nonneg_similarityTo target rect)

lemma nonneg_total (nonneg : 0.0 ≤ w.frozen) : 0.0 ≤ w.total target :=
  nonneg_exactScore w.cost (nonneg_add nonneg (w.painted.nonneg_similarityTo target w.block.rect))

variable {start : Block} {painted : Raster} {ids : IdSupply} {kept : GridRun}

lemma zero_add_zero_add_le {x : Float} (nonneg : 0.0 ≤ x) : countToFloat 0 + (0.0 + x) ≤ x := by
  have hzero : (0.0 : Float) = countToFloat 0 := by rfl
  have hsum : 0.0 ≤ (0.0 : Float) + x := nonneg_add nonneg_zero nonneg
  rw [le_iff_units (nonneg_add (nonneg_countToFloat 0) hsum) nonneg, units_zero_add hsum, hzero,
    units_zero_add nonneg]

lemma total_start (start : Block) (painted : Raster) (ids : IdSupply) :
    (Walk.start start painted ids).total target ≤ painted.similarityTo target start.rect :=
  zero_add_zero_add_le (painted.nonneg_similarityTo target start.rect)

lemma proper_of_run (h : afresh (run target epsilon start painted ids size direction) = .ok kept) :
    start.rect.Within target.width target.height ∧ 0 < size := by
  unfold run at h
  split at h
  · cases h
  · rename_i hcheck
    by_cases zero : size = 0
    · simp only [zero, if_true] at h
      cases h
    · refine ⟨?_, Nat.pos_of_ne_zero zero⟩
      unfold Raster.check at hcheck
      split at hcheck
      · assumption
      · cases hcheck

lemma exists_loop (epsilon : Float) (painted : Raster) (ids : IdSupply) (direction : Direction)
    (onRaster : start.rect.Within target.width target.height) (positive : 0 < size) :
    ∃ result cache', Walks target epsilon direction size (Walk.start start painted ids)
        ((Walk.start start painted ids).milestone target) .empty result cache' ∧
      afresh (run target epsilon start painted ids size direction) =
        outcome size direction result :=
  ⟨_, _, walks_passes positive (Nat.le_refl start.rect.width),
    congrArg Prod.fst (run_eq onRaster positive)⟩

/-- A walk keeps the first of the cheapest among its beginnings that end with a pass. -/
lemma run_keeps (h : afresh (run target epsilon start painted ids size direction) = .ok kept) :
    ∃ ends stop, Ends target epsilon direction size (Walk.start start painted ids) ends ∧
      FirstLeast (Walk.total target) stop (Walk.start start painted ids :: ends) ∧
      kept = ⟨size, direction, stop.instructions.toList, stop.cost, stop.similarity target⟩ ∧
      ∀ v ∈ Walk.start start painted ids :: ends, 0.0 ≤ v.total target := by
  obtain ⟨onRaster, positive⟩ := proper_of_run h
  obtain ⟨result, cache', hwalks, hrun⟩ :=
    exists_loop epsilon painted ids direction onRaster positive
  have hvisits := hwalks.visits positive (ColorCache.sound_empty _)
  rw [hrun] at h
  rcases result with e | ⟨last, best⟩
  · cases h
  · obtain ⟨ends, hends, hbest, hway⟩ := hvisits
    have hnonneg : ∀ v ∈ Walk.start start painted ids :: ends, 0.0 ≤ v.total target :=
      fun v hv => nonneg_total (nonneg_frozen (hway v hv).1 nonneg_zero)
    have hmilestones : ∀ m ∈ (Walk.start start painted ids :: ends).map (·.milestone target),
        0.0 ≤ m.total := List.forall_mem_map.mpr hnonneg
    have hleast : FirstLeast Milestone.total best
        ((Walk.start start painted ids :: ends).map (·.milestone target)) := by
      rw [hbest]
      exact firstLeast_foldl_of_nonneg hmilestones
    obtain ⟨stop, rfl, hstop⟩ := hleast.of_map
    obtain rfl := Except.ok.inj h
    refine ⟨ends, stop, hends, hstop, ?_, hnonneg⟩
    have hbeginning := extract_of_trail (hway stop hstop.mem).2
    exact congrArg (GridRun.mk size direction · stop.cost (stop.similarity target)) hbeginning

lemma nonneg_score
    (h : afresh (run target epsilon start painted ids size direction) = .ok kept) :
    0.0 ≤ kept.score := by
  obtain ⟨ends, stop, _, hstop, rfl, hnonneg⟩ := run_keeps h
  exact hnonneg stop hstop.mem

/-- A walk scores no more than doing nothing. -/
lemma score_le_idle
    (h : afresh (run target epsilon start painted ids size direction) = .ok kept) :
    kept.score ≤ painted.similarityTo target start.rect := by
  obtain ⟨ends, stop, _, hstop, rfl, hnonneg⟩ := run_keeps h
  exact le_trans_of_nonneg (hnonneg stop hstop.mem) (hnonneg _ List.mem_cons_self)
    (painted.nonneg_similarityTo target start.rect)
    (hstop.le_of_nonneg hnonneg List.mem_cons_self) (total_start start painted ids)

end Kept

def combinations (sizes : List Nat) (directions : List Direction) : List (Nat × Direction) :=
  sizes.flatMap fun size => directions.map fun direction => (size, direction)

lemma combinations_eq_nil_iff {sizes : List Nat} {directions : List Direction} :
    combinations sizes directions = [] ↔ sizes = [] ∨ directions = [] := by
  rw [combinations, List.flatMap_eq_nil_iff]
  constructor
  · intro h
    cases sizes with
    | nil => exact Or.inl rfl
    | cons size sizes => exact Or.inr (List.map_eq_nil_iff.mp (h size List.mem_cons_self))
  · rintro (rfl | rfl)
    · simp
    · simp

/-- Going through walks and keeping the cheaper one is to walk them all afresh and choose then. -/
lemma afresh_foldlM_cheaper {walk : α → ExceptT ε (StateM ColorCache) GridRun}
    (h : ∀ a, Forgetful target epsilon (walk a)) (as : List α) (best : Option GridRun) :
    afresh (as.foldlM (fun best a => do
        let later ← walk a
        return some (cheaper best later)) best) =
      (as.mapM fun a => afresh (walk a)).map
        (fun walks => walks.foldl (fun best later => some (cheaper best later)) best) := by
  have hstep : ∀ best a, Forgetful target epsilon (do
      let later ← walk a
      return some (cheaper best later)) :=
    fun best a => (h a).bind fun _ => forgetful_pure _
  induction as generalizing best with
  | nil => rfl
  | cons a as ih =>
    rw [List.foldlM_cons, afresh_bind (hstep best a) (forgetful_foldlM hstep as),
      afresh_bind (h a) fun _ => forgetful_pure _, List.mapM_cons]
    cases afresh (walk a) with
    | error e => rfl
    | ok later =>
      change afresh (as.foldlM _ (some (cheaper best later))) = _
      rw [ih]
      change _ = Except.map _ (as.mapM (fun a => afresh (walk a)) >>= fun walks =>
        pure (later :: walks))
      cases as.mapM (fun a => afresh (walk a)) <;> rfl

lemma foldl_some_cheaper (first : GridRun) (rest : List GridRun) :
    rest.foldl (fun best later => some (cheaper best later)) (some first) =
      some (rest.foldl (lesser GridRun.score) first) := by
  induction rest generalizing first with
  | nil => rfl
  | cons later rest ih => exact ih (lesser GridRun.score first later)

lemma afresh_sweep (start : Block) (painted : Raster) (ids : IdSupply) (sizes : List Nat)
    (directions : List Direction) :
    afresh (sweep target epsilon start painted ids sizes directions) =
      ((combinations sizes directions).mapM fun c =>
        afresh (run target epsilon start painted ids c.1 c.2)).map
        (fun walks => walks.foldl (fun best later => some (cheaper best later)) none) :=
  afresh_foldlM_cheaper
    (fun c : Nat × Direction => forgetful_run start painted ids c.1 c.2) _ none

section Swept

variable {start : Block} {painted : Raster} {ids : IdSupply} {sizes : List Nat}
variable {directions : List Direction}

lemma sweep_eq_none_iff :
    afresh (sweep target epsilon start painted ids sizes directions) = .ok none ↔
      sizes = [] ∨ directions = [] := by
  rw [afresh_sweep, map_eq_ok, ← combinations_eq_nil_iff]
  constructor
  · rintro ⟨_ | ⟨first, rest⟩, hwalks, hnone⟩
    · exact List.forall₂_nil_right_iff.mp (mapM_eq_ok.mp hwalks)
    · cases (foldl_some_cheaper first rest).symm.trans hnone
  · intro hnil
    rw [hnil]
    exact ⟨[], rfl, rfl⟩

lemma sweep_eq_error_iff {e : SolveError} :
    afresh (sweep target epsilon start painted ids sizes directions) = .error e ↔
      ∃ before c later, combinations sizes directions = before ++ c :: later ∧
        (∀ c ∈ before, ∃ kept, afresh (run target epsilon start painted ids c.1 c.2) = .ok kept) ∧
        afresh (run target epsilon start painted ids c.1 c.2) = .error e := by
  rw [afresh_sweep, map_eq_error, mapM_eq_error]

lemma sweep_eq_some_iff {kept : GridRun} :
    afresh (sweep target epsilon start painted ids sizes directions) = .ok (some kept) ↔
      ∃ walks, List.Forall₂
        (fun c walk => afresh (run target epsilon start painted ids c.1 c.2) = .ok walk)
          (combinations sizes directions) walks ∧ FirstLeast GridRun.score kept walks := by
  rw [afresh_sweep, map_eq_ok]
  refine exists_congr fun walks => ?_
  rw [mapM_eq_ok]
  refine and_congr_right fun hwalks => ?_
  have hnonneg : ∀ walk ∈ walks, 0.0 ≤ walk.score := by
    intro walk hwalk
    obtain ⟨c, _, hc⟩ := exists_of_mem_right hwalks hwalk
    exact nonneg_score hc
  cases walks with
  | nil =>
    refine iff_of_false (fun h => by cases h) fun h => ?_
    exact absurd h.mem List.not_mem_nil
  | cons first rest =>
    have hleast := firstLeast_foldl_of_nonneg hnonneg
    change rest.foldl _ (some first) = _ ↔ _
    rw [foldl_some_cheaper, Option.some.injEq]
    constructor
    · rintro rfl
      exact hleast
    · intro h
      exact ((firstLeast_units_iff hnonneg).mp hleast).unique
        ((firstLeast_units_iff hnonneg).mp h)

end Swept

/-- What a session answers to a question depends on no earlier one. A sweep comes to nothing exactly
if it has no sizes or no directions, it fails exactly with the first combination that fails, and
else it keeps the first of the walks that score least, sizes before directions. A walk keeps what it
had come to before it began or at the end of one of its passes, the earliest where the total is
least, and so it never scores more than doing nothing. -/
theorem sessions_remember_nothing (target : Raster) (epsilon : Float) (history : List Call)
    (start : Block) (painted : Raster) (ids : IdSupply) :
    (∀ size direction,
      (runFrom (after target epsilon history)
        (run target epsilon start painted ids size direction)).1 =
          afresh (run target epsilon start painted ids size direction) ∧
      ∀ kept, afresh (run target epsilon start painted ids size direction) = .ok kept →
        (∃ ends stop, Ends target epsilon direction size (Walk.start start painted ids) ends ∧
          FirstLeast (Walk.total target) stop (Walk.start start painted ids :: ends) ∧
          kept = ⟨size, direction, stop.instructions.toList, stop.cost, stop.similarity target⟩) ∧
        kept.score ≤ painted.similarityTo target start.rect) ∧
    ∀ sizes directions swept,
      (runFrom (after target epsilon history)
        (sweep target epsilon start painted ids sizes directions)).1 = swept →
      (swept = .ok none ↔ sizes = [] ∨ directions = []) ∧
      (∀ e, swept = .error e ↔ ∃ before c later,
        combinations sizes directions = before ++ c :: later ∧
        (∀ c ∈ before, ∃ kept, afresh (run target epsilon start painted ids c.1 c.2) = .ok kept) ∧
        afresh (run target epsilon start painted ids c.1 c.2) = .error e) ∧
      ∀ kept, swept = .ok (some kept) ↔ ∃ walks,
        List.Forall₂
          (fun c walk => afresh (run target epsilon start painted ids c.1 c.2) = .ok walk)
          (combinations sizes directions) walks ∧
        FirstLeast GridRun.score kept walks := by
  constructor
  · intro size direction
    refine ⟨(forgetful_run start painted ids size direction _ (sound_after history)).1, ?_⟩
    intro kept h
    obtain ⟨ends, stop, hends, hstop, hkept, _⟩ := run_keeps h
    exact ⟨⟨ends, stop, hends, hstop, hkept⟩, score_le_idle h⟩
  · rintro sizes directions _ rfl
    rw [(forgetful_sweep start painted ids sizes directions _ (sound_after history)).1]
    exact ⟨sweep_eq_none_iff, fun e => sweep_eq_error_iff, fun kept => sweep_eq_some_iff⟩

def leftwardSweep : Call :=
  .sweep fiveColumns whiteWalk.painted (.after 0) [2, 3] [.upLeft, .downLeft]

/-- After this sweep the walk still paints the black columns and leaves no more wrong than was, and
a sweep with this one walk keeps it. -/
theorem sessions_remember_nothing_of_blackBeyond :
    ∃ kept, (runFrom (after blackBeyond 0.5 [leftwardSweep])
        (run blackBeyond 0.5 fiveColumns whiteWalk.painted (.after 0) 2 .upRight)).1 = .ok kept ∧
      (runFrom (after blackBeyond 0.5 [leftwardSweep])
        (sweep blackBeyond 0.5 fiveColumns whiteWalk.painted (.after 0) [2] [.upRight])).1 =
          .ok (some kept) ∧
      kept.instructions = keptMoves ∧
      kept.score ≤ whiteWalk.painted.similarityTo blackBeyond fiveColumns.rect := by
  obtain ⟨hruns, hsweeps⟩ := sessions_remember_nothing blackBeyond 0.5 [leftwardSweep] fiveColumns
    whiteWalk.painted (.after 0)
  obtain ⟨hsame, hkeeps⟩ := hruns 2 .upRight
  obtain ⟨kept, hkept, hmoves, _⟩ := run_of_whiteWalk (ColorCache.sound_empty _)
  obtain ⟨_, _, hswept⟩ := hsweeps [2] [.upRight] _ rfl
  refine ⟨kept, hsame.trans hkept, (hswept kept).mpr ⟨[kept], ?_, ?_⟩, hmoves,
    (hkeeps kept hkept).2⟩
  · exact .cons hkept .nil
  · exact ⟨[], [], rfl, by simp, by simp⟩

end BlockPainting.GridWalk
