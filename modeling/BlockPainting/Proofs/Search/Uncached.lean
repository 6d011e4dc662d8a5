import BlockPainting.Proofs.Search.Afresh
import BlockPainting.Proofs.Search.Moments

/-!
# Grid walks without a cache

A walk asks its cache for nothing but the median of a cell. So from a cache that holds only medians
it comes to what it comes to when every median is computed on the spot, and it leaves only medians.
A walk without a cache is computed by recursion alone, which lets examples be evaluated.
-/

namespace BlockPainting.GridWalk

open Success

variable {ε α β : Type} {target : Raster} {epsilon : Float}

/-- From any cache of medians the computation comes to this result, and it leaves only medians. -/
def Yields (target : Raster) (epsilon : Float) (m : ExceptT ε (StateM ColorCache) α)
    (x : Except ε α) : Prop :=
  ∀ cache : ColorCache, cache.Sound (target.medianColor · epsilon) →
    (runFrom cache m).1 = x ∧ (runFrom cache m).2.Sound (target.medianColor · epsilon)

lemma Yields.exists_cache {m : ExceptT ε (StateM ColorCache) α} {x : Except ε α}
    (h : Yields target epsilon m x) : ∃ cache, runFrom .empty m = (x, cache) :=
  ⟨_, Prod.ext (h .empty (ColorCache.sound_empty _)).1 rfl⟩

lemma yields_except (x : Except ε α) :
    Yields target epsilon (ExceptT.mk (pure x) : ExceptT ε (StateM ColorCache) α) x :=
  fun _ sound => ⟨rfl, sound⟩

lemma yields_pure (a : α) :
    Yields target epsilon (pure a : ExceptT ε (StateM ColorCache) α) (.ok a) :=
  yields_except (.ok a)

lemma Yields.bind {m : ExceptT ε (StateM ColorCache) α} {x : Except ε α}
    {f : α → ExceptT ε (StateM ColorCache) β} {g : α → Except ε β}
    (h : Yields target epsilon m x) (hf : ∀ a, Yields target epsilon (f a) (g a)) :
    Yields target epsilon (m >>= f) (x >>= g) := by
  intro cache sound
  obtain ⟨hm, hsound⟩ := h cache sound
  rw [runFrom_bind, ← hm]
  rcases hrun : runFrom cache m with ⟨e | a, cache'⟩
  · rw [hrun] at hsound
    exact ⟨rfl, hsound⟩
  · rw [hrun] at hsound
    exact hf a cache' hsound

lemma Yields.adapt {ε' : Type} {m : ExceptT ε (StateM ColorCache) α} {x : Except ε α}
    (h : Yields target epsilon m x) (f : ε → ε') :
    Yields target epsilon (ExceptT.adapt f m) (x.mapError f) := by
  intro cache sound
  obtain ⟨hm, hsound⟩ := h cache sound
  exact ⟨congrArg (Except.mapError f) hm, hsound⟩

lemma yields_foldlM {step : β → α → ExceptT ε (StateM ColorCache) β} {pureStep : β → α → Except ε β}
    (h : ∀ b a, Yields target epsilon (step b a) (pureStep b a)) (as : List α) (b : β) :
    Yields target epsilon (as.foldlM step b) (as.foldlM pureStep b) := by
  induction as generalizing b with
  | nil => exact yields_pure b
  | cons a as ih =>
    rw [List.foldlM_cons, List.foldlM_cons]
    exact (h b a).bind ih

section

variable (target : Raster) (epsilon : Float) (direction : Direction) (size : Nat)

/-- The median of a cell, if painting `area` pixels with it pays within the cell. -/
def pickMedian (painted : Raster) (c : Rect) (area : Nat) : Option Color :=
  let median := target.medianColor c epsilon
  if Pays target painted c median area then some median else none

def Look.judge (w : Walk) : Look → Except GeometryError Walk
  | .corner => do
    let c ← cell w.block.rect direction 0 0 size
    match pickMedian target epsilon w.painted c w.block.rect.area with
    | none => return w
    | some paint => return w.paintAll paint target.pricing
  | .row along => do
    let rect := w.block.rect
    let c ← cell rect direction along 0 size
    match pickMedian target epsilon w.painted c ((rect.width - along) * rect.height) with
    | none => return w
    | some paint =>
      w.paintBeyond .x (columnLine rect direction along) direction.rightward paint target.pricing
  | .column along => do
    let rect := w.block.rect
    let c ← cell rect direction 0 along size
    match pickMedian target epsilon w.painted c (rect.width * (rect.height - along)) with
    | none => return w
    | some paint =>
      w.paintBeyond .y (rowLine rect direction along) direction.upward paint target.pricing

def judgePass (w : Walk) : Except GeometryError Walk :=
  (looks w.block.rect size).foldlM (fun w look => look.judge target epsilon direction size w) w

def judgePasses : Nat → Walk → Milestone → Except GeometryError (Walk × Milestone)
  | 0, w, best => return (w, best)
  | n + 1, w, best => do
    let w ← judgePass target epsilon direction size w
    let best := best.better (w.milestone target)
    if w.block.rect.width ≤ size ∨ w.block.rect.height ≤ size then
      return (w, best)
    else
      let w ← w.advance target direction size target.pricing
      judgePasses n w best

end

variable {direction : Direction} {size : Nat}

lemma yields_pick {painted : Raster} {c : Rect} {area : Nat} {f : Option Color → GridM Walk}
    {x : Except GeometryError Walk}
    (h : Yields target epsilon (f (pickMedian target epsilon painted c area)) x) :
    Yields target epsilon
      ((liftM (pick target epsilon painted c area) : GridM (Option Color)) >>= f) x := by
  intro cache sound
  obtain ⟨hmedian, hsound⟩ := sound.color c
  rw [runFrom_bind, runFrom_pick, asked, hmedian]
  exact h _ hsound

lemma yields_take (w : Walk) (look : Look) :
    Yields target epsilon (look.take target epsilon direction size w)
      (look.judge target epsilon direction size w) := by
  cases look with
  | corner =>
    refine (yields_except _).bind fun c => yields_pick ?_
    cases pickMedian target epsilon w.painted c w.block.rect.area with
    | none => exact yields_pure w
    | some paint => exact yields_pure (w.paintAll paint target.pricing)
  | row along =>
    refine (yields_except _).bind fun c => yields_pick ?_
    cases pickMedian target epsilon w.painted c _ with
    | none => exact yields_pure w
    | some paint => exact yields_except _
  | column along =>
    refine (yields_except _).bind fun c => yields_pick ?_
    cases pickMedian target epsilon w.painted c _ with
    | none => exact yields_pure w
    | some paint => exact yields_except _

lemma yields_pass (w : Walk) :
    Yields target epsilon (pass target epsilon direction size w)
      (judgePass target epsilon direction size w) := by
  rw [pass_eq]
  exact yields_foldlM (fun w look => yields_take w look) _ w

lemma yields_passes (n : Nat) (w : Walk) (best : Milestone) :
    Yields target epsilon (passes target epsilon direction size n w best)
      (judgePasses target epsilon direction size n w best) := by
  induction n generalizing w best with
  | zero => exact yields_pure (w, best)
  | succ n ih =>
    refine (yields_pass w).bind fun w' => ?_
    by_cases small : w'.block.rect.width ≤ size ∨ w'.block.rect.height ≤ size
    · simp only [small, if_true]
      exact yields_pure _
    · simp only [small, if_false]
      exact (yields_except _).bind fun w'' => ih w'' _

end BlockPainting.GridWalk
