import BlockPainting.Proofs.Search.Loop

/-!
# The moments of a grid walk

A walk is followed from one cell that it looks at to the next, with a log of the rectangles that it
fills and of those that it leaves behind. Every run of the loop goes from moment to moment until the
block is small enough or a look fails.
-/

namespace BlockPainting.GridWalk

open Success

/-- The cells that a pass looks at: the one in the corner and those so far along the first row and
the first column. -/
inductive Look where
  | corner
  | row (along : Nat)
  | column (along : Nat)

def Look.take (target : Raster) (epsilon : Float) (direction : Direction) (size : Nat) (w : Walk) :
    Look → GridM Walk
  | .corner => cornerCell target epsilon direction size w
  | .row along => rowCell target epsilon direction size w along
  | .column along => columnCell target epsilon direction size w along

/-- The cells of a pass in the order in which it looks at them. -/
def looks (rect : Rect) (size : Nat) : List Look :=
  .corner :: ((offsets size rect.width).map .row ++ (offsets size rect.height).map .column)

inductive Note where
  | filled (rect : Rect) (color : Color)
  /-- The similarity of the rectangle was added to that of the parts left behind. -/
  | left (rect : Rect)

/-- The raster and the similarity of the parts left behind, after what is noted. -/
def Note.replay (target : Raster) (before : Raster × Float) : Note → Raster × Float
  | .filled rect color => (before.1.fill rect color, before.2)
  | .left rect => (before.1, before.2 + before.1.similarityTo target rect)

def leftIn (log : List Note) : List Rect :=
  log.filterMap fun
    | .filled .. => none
    | .left rect => some rect

/-- What a look can do to a walk, and what is noted of it. -/
inductive Paints (prices : Pricing) : Walk → List Note → Walk → Prop
  | nothing (w : Walk) : Paints prices w [] w
  | whole (w : Walk) (c : Color) :
      Paints prices w [.filled w.block.rect c] (w.paintAll c prices)
  | beyond {w w' : Walk} {axis : Axis} {position : Nat} {farIsHigh : Bool} {c : Color}
      {low high : Rect} (cut : w.block.rect.cut axis position = .ok (low, high))
      (h : w.paintBeyond axis position farIsHigh c prices = .ok w') :
      Paints prices w [.filled (far farIsHigh low high) c] w'

/-- Where a walk stands in one of its passes. -/
structure Moment where
  /-- The rectangle of the block when the pass began. -/
  rect : Rect
  /-- The cells that the pass has still to look at. -/
  rest : List Look
  walk : Walk
  cache : ColorCache
  log : List Note

def Moment.first (start : Block) (painted : Raster) (ids : IdSupply) (size : Nat)
    (cache : ColorCache) : Moment :=
  ⟨start.rect, looks start.rect size, Walk.start start painted ids, cache, []⟩

section

variable (target : Raster) (epsilon : Float) (direction : Direction) (size : Nat)

/-- The next look of a pass, or after the last one the way to the next pass. -/
inductive Step : Moment → Moment → Prop
  | look {rect : Rect} {look : Look} {rest : List Look} {w w' : Walk} {cache cache' : ColorCache}
      {log notes : List Note}
      (ran : runFrom cache (look.take target epsilon direction size w) = (.ok w', cache'))
      (paints : Paints target.pricing w notes w') :
      Step ⟨rect, look :: rest, w, cache, log⟩ ⟨rect, rest, w', cache', log ++ notes⟩
  | onward {rect : Rect} {w w' : Walk} {cache : ColorCache} {log : List Note}
      {quarters : Quarters Rect}
      (large : ¬ (w.block.rect.width ≤ size ∨ w.block.rect.height ≤ size))
      (cut : w.block.rect.cutPoint (columnLine w.block.rect direction size)
        (rowLine w.block.rect direction size) = .ok quarters)
      (next : w.advance target direction size target.pricing = .ok w') :
      Step ⟨rect, [], w, cache, log⟩
        ⟨w'.block.rect, looks w'.block.rect size, w', cache,
          log ++ (leftBehind quarters direction).map .left⟩

/-- The moments to which looks and the ways between passes lead. -/
def Reaches : Moment → Moment → Prop :=
  Relation.ReflTransGen (Step target epsilon direction size)

def Fails (m : Moment) (e : GeometryError) (cache : ColorCache) : Prop :=
  ∃ look rest, m.rest = look :: rest ∧
    runFrom m.cache (look.take target epsilon direction size m.walk) = (.error e, cache)

/-- What a pass comes to: a moment with nothing more to look at, or one at which a look fails. -/
def Comes (m : Moment) (rect : Rect) : Except GeometryError Walk × ColorCache → Prop
  | (.ok w, cache) => ∃ log, Reaches target epsilon direction size m ⟨rect, [], w, cache, log⟩
  | (.error e, cache) => ∃ last, Reaches target epsilon direction size m last ∧
      Fails target epsilon direction size last e cache

/-- The milestone is the one known before or that of the end of a pass. -/
def Passed (m : Moment) (known best : Milestone) : Prop :=
  best = known ∨ ∃ last, Reaches target epsilon direction size m last ∧ last.rest = [] ∧
    best = last.walk.milestone target

/-- What the loop comes to: the end of the pass over the first small block and a milestone that it
has passed, or a moment at which a look fails. -/
def Completes (m : Moment) (known : Milestone) :
    Except GeometryError (Walk × Milestone) → ColorCache → Prop
  | .ok (w, best), cache =>
      (∃ rect log, Reaches target epsilon direction size m ⟨rect, [], w, cache, log⟩) ∧
      (w.block.rect.width ≤ size ∨ w.block.rect.height ≤ size) ∧
      Passed target epsilon direction size m known best
  | .error e, cache => ∃ last, Reaches target epsilon direction size m last ∧
      Fails target epsilon direction size last e cache

end

variable {target : Raster} {epsilon : Float} {direction : Direction} {size : Nat}
variable {w w' : Walk} {cache cache' : ColorCache}

lemma pass_eq (w : Walk) :
    pass target epsilon direction size w = (looks w.block.rect size).foldlM
      (fun w look => look.take target epsilon direction size w) w := by
  simp only [pass, looks, List.foldlM_cons, List.foldlM_append, List.foldlM_map, Look.take]

lemma exists_of_look {α β : Type} {x : Except GeometryError α} {m : α → StateM ColorCache β}
    {f : α → β → GridM Walk}
    (ran : runFrom cache (ExceptT.mk (pure x) >>= fun a => (liftM (m a) : GridM β) >>= f a) =
      (.ok w', cache')) : ∃ a b mid, runFrom mid (f a b) = (.ok w', cache') := by
  obtain ⟨a, _, _, rest⟩ := runFrom_bind_eq_ok.mp ran
  obtain ⟨b, mid, _, last⟩ := runFrom_bind_eq_ok.mp rest
  exact ⟨a, b, mid, last⟩

lemma paints_of_paintBeyond {axis : Axis} {position : Nat} {farIsHigh : Bool} {c : Color}
    {prices : Pricing} (h : w.paintBeyond axis position farIsHigh c prices = .ok w') :
    ∃ notes, Paints prices w notes w' := by
  obtain ⟨low, high, cut, _⟩ := repainted_of_paintBeyond h
  exact ⟨_, .beyond cut h⟩

lemma paints_of_take {look : Look}
    (ran : runFrom cache (look.take target epsilon direction size w) = (.ok w', cache')) :
    ∃ notes, Paints target.pricing w notes w' := by
  cases look with
  | corner =>
    obtain ⟨c, _ | paint, mid, last⟩ := exists_of_look ran
    · obtain rfl := Except.ok.inj (congrArg Prod.fst last)
      exact ⟨_, .nothing w⟩
    · obtain rfl := Except.ok.inj (congrArg Prod.fst last)
      exact ⟨_, .whole w paint⟩
  | row along =>
    obtain ⟨c, _ | paint, mid, last⟩ := exists_of_look ran
    · obtain rfl := Except.ok.inj (congrArg Prod.fst last)
      exact ⟨_, .nothing w⟩
    · exact paints_of_paintBeyond (congrArg Prod.fst last)
  | column along =>
    obtain ⟨c, _ | paint, mid, last⟩ := exists_of_look ran
    · obtain rfl := Except.ok.inj (congrArg Prod.fst last)
      exact ⟨_, .nothing w⟩
    · exact paints_of_paintBeyond (congrArg Prod.fst last)

section Runs

variable {m m' : Moment} {rect : Rect} {log : List Note} {known best : Milestone}

lemma Comes.of_reaches {result : Except GeometryError Walk × ColorCache}
    (reaches : Reaches target epsilon direction size m m')
    (comes : Comes target epsilon direction size m' rect result) :
    Comes target epsilon direction size m rect result := by
  rcases result with ⟨e | w, cache⟩
  · obtain ⟨last, hlast, fails⟩ := comes
    exact ⟨last, reaches.trans hlast, fails⟩
  · obtain ⟨log, hlog⟩ := comes
    exact ⟨log, reaches.trans hlog⟩

lemma comes_of_looks (rest : List Look) (w : Walk) (cache : ColorCache) (log : List Note) :
    Comes target epsilon direction size ⟨rect, rest, w, cache, log⟩ rect
      (runFrom cache (rest.foldlM (fun w look => look.take target epsilon direction size w) w)) := by
  induction rest generalizing w cache log with
  | nil => exact ⟨log, .refl⟩
  | cons look rest ih =>
    rw [List.foldlM_cons]
    rcases hlook : runFrom cache (look.take target epsilon direction size w) with
      ⟨e | w', cache'⟩
    · rw [runFrom_bind_of_error hlook]
      exact ⟨_, .refl, look, rest, rfl, hlook⟩
    · rw [runFrom_bind_of_ok hlook]
      obtain ⟨notes, paints⟩ := paints_of_take hlook
      exact (ih w' cache' (log ++ notes)).of_reaches (.single (.look hlook paints))

lemma comes_of_pass (reaches : Reaches target epsilon direction size m
    ⟨w.block.rect, looks w.block.rect size, w, cache, log⟩) :
    Comes target epsilon direction size m w.block.rect
      (runFrom cache (pass target epsilon direction size w)) := by
  rw [pass_eq]
  exact (comes_of_looks (looks w.block.rect size) w cache log).of_reaches reaches

lemma Passed.better (passed : Passed target epsilon direction size m known best)
    (reached : Reaches target epsilon direction size m ⟨rect, [], w, cache, log⟩) :
    Passed target epsilon direction size m known (best.better (w.milestone target)) := by
  unfold Milestone.better
  split
  · exact Or.inr ⟨_, reached, rfl, rfl⟩
  · exact passed

theorem completes_of_walks (positive : 0 < size)
    {result : Except GeometryError (Walk × Milestone)}
    (walks : Walks target epsilon direction size w best cache result cache')
    (reaches : Reaches target epsilon direction size m
      ⟨w.block.rect, looks w.block.rect size, w, cache, log⟩)
    (passed : Passed target epsilon direction size m known best) :
    Completes target epsilon direction size m known result cache' := by
  induction walks generalizing log with
  | @refused w best cache cache' e h =>
    have hpass := comes_of_pass reaches
    rw [h] at hpass
    exact hpass
  | @done w w' best cache cache' h small =>
    have hpass := comes_of_pass reaches
    rw [h] at hpass
    obtain ⟨log', hreached⟩ := hpass
    exact ⟨⟨_, log', hreached⟩, small, passed.better hreached⟩
  | @stuck w w' best cache cache' e h large next =>
    obtain ⟨w'', hnext⟩ : ∃ w'', w'.advance target direction size target.pricing = .ok w'' :=
      exists_advance positive (by omega)
    cases hnext.symm.trans next
  | @onward w w' w'' best cache cache' cache'' result h large next rest ih =>
    have hpass := comes_of_pass reaches
    rw [h] at hpass
    obtain ⟨log', hreached⟩ := hpass
    obtain ⟨quarters, advanced⟩ := advanced_of_advance next
    exact ih (hreached.tail (.onward large advanced.cut next)) (passed.better hreached)

end Runs

end BlockPainting.GridWalk
