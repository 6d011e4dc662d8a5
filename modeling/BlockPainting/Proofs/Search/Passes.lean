import BlockPainting.Proofs.Board.Tiled
import BlockPainting.Proofs.Search.Cells

/-!
# One pass of a grid walk

Everything a walk does is one of three moves: it paints its block, paints the part of it beyond a
line, or goes on in a quarter. A pass makes moves of the first two kinds, which leave the block
where it is. It fails only where a merge finds no number left, and it needs at most one number for
every column and row but the first.
-/

namespace BlockPainting.GridWalk

open Success

section Ensures

variable {α β : Type} {E E' : GeometryError → Prop} {P Q : α → Prop} {R : β → Prop}

/-- Whatever was cached before, results satisfy `P` and failures satisfy `E`. -/
def Ensures (E : GeometryError → Prop) (P : α → Prop) (m : GridM α) : Prop :=
  ∀ cache, match (runFrom cache m).1 with
    | .ok a => P a
    | .error e => E e

lemma ensures_pure {a : α} (h : P a) : Ensures E P (pure a : GridM α) :=
  fun _ => h

lemma Ensures.mono {m : GridM α} (h : Ensures E P m) (errors : ∀ e, E e → E' e)
    (results : ∀ a, P a → Q a) : Ensures E' Q m := by
  intro cache
  have hm := h cache
  rcases hrun : runFrom cache m with ⟨e | a, cache'⟩
  · rw [hrun] at hm
    exact errors e hm
  · rw [hrun] at hm
    exact results a hm

lemma Ensures.bind {m : GridM α} {f : α → GridM β} (h : Ensures E P m)
    (hf : ∀ a, P a → Ensures E R (f a)) : Ensures E R (m >>= f) := by
  intro cache
  have hm := h cache
  rw [runFrom_bind]
  rcases hrun : runFrom cache m with ⟨e | a, cache'⟩
  · rw [hrun] at hm
    exact hm
  · rw [hrun] at hm
    exact hf a hm cache'

lemma ensures_except {x : Except GeometryError α}
    (h : match x with | .ok a => P a | .error e => E e) :
    Ensures E P (ExceptT.mk (pure x) : GridM α) :=
  fun _ => h

lemma ensures_any (m : StateM ColorCache α) : Ensures E (fun _ => True) (liftM m : GridM α) :=
  fun _ => trivial

end Ensures

inductive Moves (target : Raster) (direction : Direction) (size : Nat) : Walk → Walk → Prop
  | paintAll (w : Walk) (c : Color) :
      Moves target direction size w (w.paintAll c target.pricing)
  | paintBeyond {w w' : Walk} {axis : Axis} {position : Nat} {farIsHigh : Bool} {c : Color}
      (h : w.paintBeyond axis position farIsHigh c target.pricing = .ok w') :
      Moves target direction size w w'
  | advance {w w' : Walk} (h : w.advance target direction size target.pricing = .ok w') :
      Moves target direction size w w'

def Trail (target : Raster) (direction : Direction) (size : Nat) : Walk → Walk → Prop :=
  Relation.ReflTransGen (Moves target direction size)

/-- A walk that made some moves, stayed where it was and took at most `n` numbers. -/
structure Lingers (target : Raster) (direction : Direction) (size n : Nat) (w w' : Walk) :
    Prop where
  trail : Trail target direction size w w'
  rect_eq : w'.block.rect = w.block.rect
  next_le : w'.ids.next ≤ w.ids.next + n

/-- A walk that had no number left for a merge after it took fewer than `n`. -/
def Exhausted (target : Raster) (direction : Direction) (size n : Nat) (w : Walk)
    (e : GeometryError) : Prop :=
  e = .idsExhausted ∧ ∃ w', Trail target direction size w w' ∧ w'.ids.take = none ∧
    w'.ids.next < w.ids.next + n

/-- A part of a pass that fails or goes on with at most `n` more numbers taken. -/
def Spends (target : Raster) (direction : Direction) (size n : Nat) (w : Walk) (m : GridM Walk) :
    Prop :=
  Ensures (Exhausted target direction size n w) (Lingers target direction size n w) m

section

variable {target : Raster} {direction : Direction} {size n n' along : Nat} {w w' w'' : Walk}
variable {epsilon : Float} {prices : Pricing} {axis : Axis} {position : Nat} {farIsHigh : Bool}
variable {c : Color}

lemma Lingers.refl (w : Walk) : Lingers target direction size 0 w w :=
  ⟨.refl, rfl, Nat.le_refl _⟩

lemma Lingers.trans (h : Lingers target direction size n w w')
    (h' : Lingers target direction size n' w' w'') :
    Lingers target direction size (n + n') w w'' := by
  have hle := h.next_le
  have hle' := h'.next_le
  exact ⟨h.trail.trans h'.trail, h'.rect_eq.trans h.rect_eq, by omega⟩

lemma spends_pure (h : Lingers target direction size n w w') :
    Spends target direction size n w (pure w') :=
  ensures_pure h

lemma take_eq_none_iff {ids : IdSupply} : ids.take = none ↔ maxRoot < ids.next := by
  unfold IdSupply.take
  by_cases left : ids.next ≤ maxRoot
  · simp [left]
  · simp only [left, if_false, true_iff]
    omega

lemma Exhausted.mono {e : GeometryError} (h : Exhausted target direction size n w e)
    (le : n ≤ n') : Exhausted target direction size n' w e := by
  obtain ⟨he, w', trail, none_left, hlt⟩ := h
  exact ⟨he, w', trail, none_left, by omega⟩

lemma Exhausted.after {e : GeometryError} (h : Exhausted target direction size n' w' e)
    (trail : Trail target direction size w w') (next_le : w'.ids.next ≤ w.ids.next + n) :
    Exhausted target direction size (n + n') w e := by
  obtain ⟨he, w'', trail', none_left, hlt⟩ := h
  exact ⟨he, w'', trail.trans trail', none_left, by omega⟩

lemma Spends.mono {m : GridM Walk} (h : Spends target direction size n w m) (le : n ≤ n') :
    Spends target direction size n' w m := by
  refine Ensures.mono h (fun _ he => he.mono le) ?_
  intro w' hw'
  have hnext := hw'.next_le
  exact ⟨hw'.trail, hw'.rect_eq, by omega⟩

lemma Spends.bind {m : GridM Walk} {f : Walk → GridM Walk} (h : Spends target direction size n w m)
    (hf : ∀ w', w'.block.rect = w.block.rect → Spends target direction size n' w' (f w')) :
    Spends target direction size (n + n') w (m >>= f) := by
  refine Ensures.bind (P := Lingers target direction size n w) ?_ ?_
  · exact Ensures.mono h (fun _ he => he.mono (Nat.le_add_right n n')) fun _ hw' => hw'
  · intro w' hw'
    refine Ensures.mono (hf w' hw'.rect_eq) ?_ fun _ hw'' => hw'.trans hw''
    exact fun _ he => he.after hw'.trail hw'.next_le

lemma Spends.look {α β : Type} {x : Except GeometryError α} {m : α → StateM ColorCache β}
    {f : α → β → GridM Walk} (hx : ∃ a, x = .ok a)
    (hf : ∀ a b, Spends target direction size n w (f a b)) :
    Spends target direction size n w
      (ExceptT.mk (pure x) >>= fun a => (liftM (m a) : GridM β) >>= f a) := by
  obtain ⟨a, rfl⟩ := hx
  refine Ensures.bind (P := fun _ => True) (ensures_except trivial) ?_
  intro a _
  refine Ensures.bind (ensures_any (m a)) ?_
  intro b _
  exact hf a b

/-- Whether a paint gains more within the cell than an area costs that is painted with it. -/
def Pays (target painted : Raster) (c : Rect) (paint : Color) (area : Nat) : Prop :=
  painted.similarityTo target c >
    target.similarity c paint + countToFloat (target.pricing.cost .color area)

instance (target painted : Raster) (c : Rect) (paint : Color) (area : Nat) :
    Decidable (Pays target painted c paint area) :=
  inferInstanceAs (Decidable (_ > _))

/-- The color of a cell is the one in the cache, or its median. -/
abbrev asked (target : Raster) (epsilon : Float) (cache : ColorCache) (c : Rect) :
    Color × ColorCache :=
  cache.color (target.medianColor · epsilon) c

lemma runFrom_pick {target : Raster} {epsilon : Float} {cache : ColorCache} (painted : Raster)
    (c : Rect) (area : Nat) :
    runFrom cache (liftM (pick target epsilon painted c area) : GridM (Option Color)) =
      (.ok (if Pays target painted c (asked target epsilon cache c).1 area then
        some (asked target epsilon cache c).1 else none), (asked target epsilon cache c).2) :=
  rfl

/-- The part beyond a line is the high or the low one. -/
def far {α : Type} (farIsHigh : Bool) (low high : α) : α :=
  if farIsHigh then high else low

/-- The walk after its block was cut in two, painted beyond the line and merged again. -/
structure Repainted (prices : Pricing) (axis : Axis) (position : Nat) (farIsHigh : Bool) (c : Color)
    (low high : Rect) (w w' : Walk) : Prop where
  instructions_eq : w'.instructions.toList = w.instructions.toList ++
    [.lineCut w.block.id axis position, .color (w.block.id.child (far farIsHigh 0 1)) c,
      .merge (w.block.id.child 0) (w.block.id.child 1)]
  cost_eq : w'.cost = w.cost + (prices.cost .lineCut w.block.rect.area +
    prices.cost .color (far farIsHigh low high).area + prices.mergeCost low.area high.area)
  ids_eq : w'.ids = ⟨w.ids.next + 1⟩
  id_eq : w'.block.id = .top w.ids.next
  rect_eq : w'.block.rect = w.block.rect

lemma merge_of_join {a b : Block} {ids : IdSupply} {rect : Rect}
    (join : a.rect.join b.rect = .ok rect) :
    a.merge b ids prices = if ids.next ≤ maxRoot then
        .ok (⟨⟨.top ids.next, rect, Block.commonPaint a b⟩, .merge a.id b.id,
          prices.mergeCost a.rect.area b.rect.area⟩, ⟨ids.next + 1⟩)
      else .error .idsExhausted := by
  simp only [Block.merge, join, IdSupply.take]
  by_cases left : ids.next ≤ maxRoot <;> simp only [left, if_true, if_false] <;> rfl

lemma paintBeyond_of_cut {low high : Rect}
    (cut : w.block.rect.cut axis position = .ok (low, high)) :
    (maxRoot < w.ids.next ∧
      w.paintBeyond axis position farIsHigh c prices = .error .idsExhausted) ∨
    (w.ids.next ≤ maxRoot ∧ ∃ w', w.paintBeyond axis position farIsHigh c prices = .ok w' ∧
      Repainted prices axis position farIsHigh c low high w w') := by
  have hcut : w.block.lineCut axis position prices = .ok _ :=
    Block.lineCut_eq_ok.mpr ⟨low, high, cut, rfl⟩
  have hmerge : ∀ paint paint' : Option Color,
      Block.merge { w.block.part 0 low with paint := paint }
        { w.block.part 1 high with paint := paint' } w.ids prices = _ :=
    fun _ _ => merge_of_join (Rect.join_of_cut cut)
  by_cases left : w.ids.next ≤ maxRoot
  · right
    simp only [left, if_true] at hmerge
    cases farIsHigh with
    | true =>
      have hfar := hmerge w.block.paint (some c)
      refine ⟨left, _, bind_eq_ok.mpr ⟨_, hcut, bind_eq_ok.mpr ⟨_, hfar, rfl⟩⟩, ?_⟩
      refine ⟨?_, ?_, rfl, rfl, rfl⟩
      · simp [Walk.push, Block.recolor, far]
      · simp only [Walk.push, Block.recolor, far, if_true, Board.part_rect]
        omega
    | false =>
      have hfar := hmerge (some c) w.block.paint
      refine ⟨left, _, bind_eq_ok.mpr ⟨_, hcut, bind_eq_ok.mpr ⟨_, hfar, rfl⟩⟩, ?_⟩
      refine ⟨?_, ?_, rfl, rfl, rfl⟩
      · simp [Walk.push, Block.recolor, far]
      · simp only [Walk.push, Block.recolor, far, Bool.false_eq_true, if_false, Board.part_rect]
        omega
  · left
    simp only [left, if_false] at hmerge
    refine ⟨Nat.lt_of_not_le left, ?_⟩
    cases farIsHigh with
    | true =>
      have hfar := hmerge w.block.paint (some c)
      exact bind_eq_error.mpr (Or.inr ⟨_, hcut, bind_eq_error.mpr (Or.inl hfar)⟩)
    | false =>
      have hfar := hmerge (some c) w.block.paint
      exact bind_eq_error.mpr (Or.inr ⟨_, hcut, bind_eq_error.mpr (Or.inl hfar)⟩)

lemma repainted_of_paintBeyond (h : w.paintBeyond axis position farIsHigh c prices = .ok w') :
    ∃ low high, w.block.rect.cut axis position = .ok (low, high) ∧ w.ids.next ≤ maxRoot ∧
      Repainted prices axis position farIsHigh c low high w w' := by
  obtain ⟨_, hcut, _⟩ := bind_eq_ok.mp h
  obtain ⟨low, high, cut, _⟩ := Block.lineCut_eq_ok.mp hcut
  rcases paintBeyond_of_cut cut with ⟨_, hfail⟩ | ⟨left, w'', hok, repainted⟩
  · cases hfail.symm.trans h
  · obtain rfl := Except.ok.inj (hok.symm.trans h)
    exact ⟨low, high, cut, left, repainted⟩

/-- The walk after its block was cut one cell in from the corner. -/
structure Advanced (prices : Pricing) (direction : Direction) (size : Nat)
    (quarters : Quarters Rect) (w w' : Walk) : Prop where
  cut : w.block.rect.cutPoint (columnLine w.block.rect direction size)
    (rowLine w.block.rect direction size) = .ok quarters
  instructions_eq : w'.instructions.toList = w.instructions.toList ++
    [.pointCut w.block.id (columnLine w.block.rect direction size)
      (rowLine w.block.rect direction size)]
  cost_eq : w'.cost = w.cost + prices.cost .pointCut w.block.rect.area
  ids_eq : w'.ids = w.ids
  id_eq : w'.block.id = w.block.id.child (childIndex direction)
  rect_eq : w'.block.rect = continuation quarters direction

lemma advanced_of_advance (h : w.advance target direction size prices = .ok w') :
    ∃ quarters, Advanced prices direction size quarters w w' := by
  simp only [Walk.advance, bind_eq_ok, pure_eq_ok, Block.pointCut_eq_ok] at h
  obtain ⟨_, ⟨quarters, cut, rfl⟩, rfl⟩ := h
  refine ⟨quarters, cut, by simp [Walk.push], rfl, rfl, ?_, ?_⟩
  · cases direction <;> rfl
  · cases direction <;> rfl

lemma exists_advance (positive : 0 < size)
    (large : size < w.block.rect.width ∧ size < w.block.rect.height) :
    ∃ w', w.advance target direction size prices = .ok w' := by
  obtain ⟨quarters, cut⟩ := Rect.exists_cutPoint_iff.mpr
    ⟨columnLine_inside direction positive large.1, rowLine_inside direction positive large.2⟩
  exact ⟨_, bind_eq_ok.mpr ⟨_, Block.pointCut_eq_ok.mpr ⟨quarters, cut, rfl⟩, rfl⟩⟩

lemma spends_beyond (inside : w.block.rect.Inside axis position) :
    Spends target direction size 1 w
      (ExceptT.mk (pure (w.paintBeyond axis position farIsHigh c target.pricing))) := by
  obtain ⟨low, high, cut⟩ := Rect.exists_cut_iff.mpr inside
  refine ensures_except ?_
  rcases paintBeyond_of_cut cut with ⟨none_left, hfail⟩ | ⟨_, w', hok, repainted⟩
  · rw [hfail]
    exact ⟨rfl, w, .refl, take_eq_none_iff.mpr none_left, Nat.lt_succ_self _⟩
  · rw [hok]
    refine ⟨.single (.paintBeyond hok), repainted.rect_eq, ?_⟩
    rw [repainted.ids_eq]

lemma spends_cornerCell (positive : 0 < size) (w : Walk) :
    Spends target direction size 0 w (cornerCell target epsilon direction size w) := by
  obtain ⟨c, hc, _⟩ :=
    exists_cell direction w.block.rect.width_pos w.block.rect.height_pos positive
  refine Spends.look ⟨c, hc⟩ ?_
  rintro c (_ | paint)
  · exact spends_pure (Lingers.refl w)
  · exact spends_pure ⟨.single (.paintAll w paint), rfl, Nat.le_refl _⟩

lemma spends_rowCell (positive : 0 < size) (h : along ∈ offsets size w.block.rect.width) :
    Spends target direction size 1 w (rowCell target epsilon direction size w along) := by
  obtain ⟨_, hpos, hlt⟩ := (mem_offsets positive).mp h
  obtain ⟨c, hc, _⟩ := exists_cell direction hlt w.block.rect.height_pos positive
  refine Spends.look ⟨c, hc⟩ ?_
  rintro c (_ | paint)
  · exact (spends_pure (Lingers.refl w)).mono (Nat.zero_le 1)
  · exact spends_beyond (columnLine_inside direction hpos hlt)

lemma spends_columnCell (positive : 0 < size) (h : along ∈ offsets size w.block.rect.height) :
    Spends target direction size 1 w (columnCell target epsilon direction size w along) := by
  obtain ⟨_, hpos, hlt⟩ := (mem_offsets positive).mp h
  obtain ⟨c, hc, _⟩ := exists_cell direction w.block.rect.width_pos hlt positive
  refine Spends.look ⟨c, hc⟩ ?_
  rintro c (_ | paint)
  · exact (spends_pure (Lingers.refl w)).mono (Nat.zero_le 1)
  · exact spends_beyond (rowLine_inside direction hpos hlt)

lemma spends_foldlM {look : Walk → Nat → GridM Walk} {rect : Rect} {alongs : List Nat}
    (each : ∀ w, w.block.rect = rect → ∀ along ∈ alongs,
      Spends target direction size 1 w (look w along))
    (w : Walk) (at_rect : w.block.rect = rect) :
    Spends target direction size alongs.length w (alongs.foldlM look w) := by
  induction alongs generalizing w with
  | nil => exact spends_pure (Lingers.refl w)
  | cons along rest ih =>
    rw [List.foldlM_cons, List.length_cons, Nat.add_comm]
    refine (each w at_rect along List.mem_cons_self).bind ?_
    intro w' hw'
    exact ih (fun w hw along h => each w hw along (List.mem_cons_of_mem _ h)) w'
      (hw'.trans at_rect)

/-- A pass needs at most one number for every column and row but the first. -/
theorem spends_pass (positive : 0 < size) (w : Walk) :
    Spends target direction size (w.block.rect.width - 1 + (w.block.rect.height - 1)) w
      (pass target epsilon direction size w) := by
  have hrows : ∀ w', w'.block.rect = w.block.rect →
      Spends target direction size (w.block.rect.width - 1) w'
        ((offsets size w.block.rect.width).foldlM (rowCell target epsilon direction size) w') := by
    intro w' hw'
    refine (spends_foldlM ?_ w' hw').mono (length_offsets_le size _)
    intro w'' hw'' along halong
    exact spends_rowCell positive (hw'' ▸ halong)
  have hcolumns : ∀ w', w'.block.rect = w.block.rect →
      Spends target direction size (w.block.rect.height - 1) w'
        ((offsets size w.block.rect.height).foldlM
          (columnCell target epsilon direction size) w') := by
    intro w' hw'
    refine (spends_foldlM ?_ w' hw').mono (length_offsets_le size _)
    intro w'' hw'' along halong
    exact spends_columnCell positive (hw'' ▸ halong)
  have hcorner : Spends target direction size 0 w (cornerCell target epsilon direction size w) :=
    spends_cornerCell positive w
  have hpass := hcorner.bind fun w₁ h₁ => (hrows w₁ h₁).bind fun w₂ h₂ => hcolumns w₂ (h₂.trans h₁)
  rw [Nat.zero_add] at hpass
  exact hpass

end

end BlockPainting.GridWalk
