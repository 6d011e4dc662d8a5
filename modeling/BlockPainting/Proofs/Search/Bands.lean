import BlockPainting.Proofs.Board.Reached
import BlockPainting.Proofs.Search.Execution
import BlockPainting.Search.Stripes

/-!
# Bands of a stripe program

A plan peels its block from the bottom: what remains above a cut is again a rectangle with the same
columns. The price of a cut is computed from the area of what remains, and the last band is not cut
off. So a plan is a stack of bands, each priced as the board prices it, and its program runs on
every live block of its rectangle below which no id is taken.
-/

namespace BlockPainting.Stripes

open Board Success

variable {prices : Pricing} {row : Nat → Prop}
variable {rect rest low high : Rect} {bands : List Band} {bottom top : Nat}

/-- The price of painting a rectangle or leaving it alone. -/
def paintPrice (prices : Pricing) (rect : Rect) : Option Color → Nat
  | none => 0
  | some _ => prices.cost .color rect.area

/-- The bands peel the rectangle from the bottom to the top by cuts in certain rows, at the prices
of the paints and of the cuts that remain to be made. -/
inductive Stacked (prices : Pricing) (row : Nat → Prop) : Rect → List Band → Prop
  | last {rect : Rect} (paint : Option Color) (similarity : Float) :
      Stacked prices row rect [⟨rect.top, paint, paintPrice prices rect paint, similarity⟩]
  | cut {rect low high : Rect} {position : Nat} {rest : List Band} (paint : Option Color)
      (similarity : Float) (cut : rect.cut .y position = .ok (low, high)) (hrow : row position)
      (above : Stacked prices row high rest) :
      Stacked prices row rect
        (⟨position, paint, paintPrice prices low paint + prices.cost .lineCut rect.area, similarity⟩
          :: rest)

/-- What remains of a rectangle from a row on. -/
structure Remains (rect : Rect) (bottom : Nat) (rest : Rect) : Prop where
  x_eq : rest.x = rect.x
  right_eq : rest.right = rect.right
  y_eq : rest.y = bottom
  top_eq : rest.top = rect.top

lemma remains_self (rect : Rect) : Remains rect rect.y rect :=
  ⟨rfl, rfl, rfl, rfl⟩

lemma Remains.unique {rest' : Rect} (h : Remains rect bottom rest)
    (h' : Remains rect bottom rest') : rest = rest' := by
  have hrect := Rect.ofCorners_eq_ok_iff.mpr ⟨h.x_eq, h.y_eq, h.right_eq, h.top_eq⟩
  have hrect' := Rect.ofCorners_eq_ok_iff.mpr ⟨h'.x_eq, h'.y_eq, h'.right_eq, h'.top_eq⟩
  exact Except.ok.inj (hrect.symm.trans hrect')

lemma exists_remains (htop : bottom < rect.top) :
    ∃ rest, Remains rect bottom rest := by
  refine ⟨⟨rect.x, bottom, rect.width, rect.top - bottom, rect.width_pos, by omega⟩, rfl, rfl,
    rfl, ?_⟩
  simp only [Rect.top] at htop ⊢
  omega

lemma Remains.area_eq (h : Remains rect bottom rest) :
    rest.area = rect.width * (rect.top - bottom) := by
  obtain ⟨hx, hright, hy, htop⟩ := h
  simp only [Rect.right] at hright
  have hwidth : rest.width = rect.width := by omega
  have hheight : rest.height = rect.top - bottom := by
    rw [← htop, ← hy, Rect.top, Nat.add_sub_cancel_left]
  rw [Rect.area, hwidth, hheight]

/-- Cutting what remains in a later row leaves the band between the rows and what remains from the
later row on. -/
lemma Remains.cut (h : Remains rect bottom rest) {position : Nat} (hlow : bottom < position)
    (hhigh : position < rect.top) :
    ∃ low high, rest.cut .y position = .ok (low, high) ∧
      Rect.ofCorners rect.x bottom rect.right position = .ok low ∧
      Remains rect position high := by
  obtain ⟨hx, hright, hy, htop⟩ := h
  have inside : rest.y < position ∧ position < rest.top := by omega
  refine ⟨_, _, dif_pos inside, Rect.ofCorners_eq_ok_iff.mpr ⟨hx, hy, hright, ?_⟩,
    hx, hright, rfl, ?_⟩
  · simp only [Rect.top]
    omega
  · simp only [Rect.top] at htop inside ⊢
    omega

/-- A plan is a stack of bands on what remains where it begins; at the top nothing is planned. -/
def Plan.Fits (prices : Pricing) (row : Nat → Prop) (rect : Rect) (plan : Plan) : Prop :=
  (plan.start = rect.top ∧ plan.bands = []) ∨
    ∃ rest, Remains rect plan.start rest ∧ Stacked prices row rest plan.bands

lemma band_eq_ok (target painted : Raster) {region : Rect}
    (hregion : Rect.ofCorners rect.x bottom rect.right top = .ok region) :
    ∃ paint similarity, band target painted rect bottom top =
      .ok ⟨top, paint, paintPrice target.pricing region paint +
        (if top = rect.top then 0
          else target.pricing.cost .lineCut (rect.width * (rect.top - bottom))), similarity⟩ := by
  simp only [band, hregion, bind, Except.bind]
  split
  · exact ⟨some _, _, rfl⟩
  · exact ⟨none, _, congrArg _ (by rw [paintPrice, Nat.zero_add])⟩

lemma exists_extend (target painted : Raster) {above : Plan} (remains : Remains rect bottom rest)
    (later : bottom < above.start) (hrow : above.start < rect.top → row above.start)
    (fits : above.Fits target.pricing row rect) :
    ∃ b, band target painted rect bottom above.start = .ok b ∧
      Stacked target.pricing row rest (b :: above.bands) := by
  rcases fits with ⟨htop, hbands⟩ | ⟨high, hhigh, stacked⟩
  · rw [htop, hbands]
    have hregion := Rect.ofCorners_eq_ok_iff.mpr
      ⟨remains.x_eq, remains.y_eq, remains.right_eq, remains.top_eq⟩
    obtain ⟨paint, similarity, hband⟩ := band_eq_ok target painted hregion
    rw [if_pos rfl, Nat.add_zero] at hband
    refine ⟨_, hband, ?_⟩
    rw [← remains.top_eq]
    exact .last paint similarity
  · have hbelow : above.start < rect.top := by
      have hheight := high.height_pos
      rw [← hhigh.y_eq, ← hhigh.top_eq, Rect.top]
      omega
    obtain ⟨low, high', hcut, hregion, hhigh'⟩ := remains.cut later hbelow
    obtain rfl := hhigh.unique hhigh'
    obtain ⟨paint, similarity, hband⟩ := band_eq_ok target painted hregion
    rw [if_neg hbelow.ne, ← remains.area_eq] at hband
    exact ⟨_, hband, .cut paint similarity hcut (hrow hbelow) stacked⟩

lemma choose_eq_ok (target painted : Raster) (remains : Remains rect bottom rest)
    (best : Option Plan)
    (hbest : ∀ plan ∈ best, plan.start = bottom ∧ Stacked target.pricing row rest plan.bands)
    {later : List Plan}
    (hlater : ∀ above ∈ later, bottom < above.start ∧
      (above.start < rect.top → row above.start) ∧ above.Fits target.pricing row rect)
    (hsome : best = none → later ≠ []) :
    ∃ plan, choose target painted rect bottom best later = .ok (some plan) ∧
      plan.start = bottom ∧ Stacked target.pricing row rest plan.bands := by
  induction later generalizing best with
  | nil =>
    cases best with
    | none => exact absurd rfl (hsome rfl)
    | some plan => exact ⟨plan, rfl, hbest plan rfl⟩
  | cons above later ih =>
    rw [List.forall_mem_cons] at hlater
    obtain ⟨⟨hstart, hrow, fits⟩, hlater⟩ := hlater
    obtain ⟨b, hband, stacked⟩ := exists_extend target painted remains hstart hrow fits
    simp only [choose, hband, bind, Except.bind]
    refine ih _ ?_ hlater nofun
    intro plan hplan
    rw [Option.mem_some] at hplan
    subst hplan
    cases best with
    | none => exact ⟨rfl, stacked⟩
    | some best =>
      dsimp only
      split
      · exact ⟨rfl, stacked⟩
      · exact hbest best rfl

lemma plans_eq_ok (target painted : Raster) {rows : List Nat} (increasing : rows.Pairwise (· < ·))
    (inside : ∀ y ∈ rows, y < rect.top ∧ row y) :
    ∃ found, plans target painted rect (rows ++ [rect.top]) = .ok found ∧
      found.map Plan.start = rows ++ [rect.top] ∧
      ∀ plan ∈ found, plan.Fits target.pricing row rect := by
  induction rows with
  | nil =>
    refine ⟨[⟨rect.top, [], 0.0⟩], rfl, rfl, ?_⟩
    intro plan hplan
    rw [List.mem_singleton.mp hplan]
    exact Or.inl ⟨rfl, rfl⟩
  | cons bottom rows ih =>
    rw [List.pairwise_cons] at increasing
    rw [List.forall_mem_cons] at inside
    obtain ⟨⟨htop, hrow⟩, inside⟩ := inside
    obtain ⟨later, hlater, hstarts, fits⟩ := ih increasing.2 inside
    obtain ⟨rest, remains⟩ := exists_remains htop
    -- All later cuts lie above this one, so each can be the next.
    have habove : ∀ above ∈ later, bottom < above.start ∧
        (above.start < rect.top → row above.start) ∧ above.Fits target.pricing row rect := by
      intro above hmem
      have hstart : above.start ∈ rows ++ [rect.top] := hstarts ▸ List.mem_map_of_mem hmem
      rcases List.mem_append.mp hstart with hstart | hstart
      · exact ⟨increasing.1 _ hstart, fun _ => (inside _ hstart).2, fits above hmem⟩
      · rw [List.mem_singleton.mp hstart]
        exact ⟨htop, fun h => absurd h (Nat.lt_irrefl _), fits above hmem⟩
    have hnonempty : later ≠ [] := by
      rintro rfl
      simp at hstarts
    obtain ⟨plan, hplan, hstart, stacked⟩ :=
      choose_eq_ok target painted remains none nofun habove fun _ => hnonempty
    refine ⟨plan :: later, ?_, by rw [List.map_cons, hstart, hstarts, List.cons_append], ?_⟩
    · simp only [List.cons_append, plans, hlater, hplan, bind, Except.bind, Option.getD_some, pure,
        Except.pure]
    · rw [List.forall_mem_cons]
      exact ⟨Or.inr ⟨rest, hstart ▸ remains, stacked⟩, fits⟩

lemma Stacked.ne_nil (h : Stacked prices row rect bands) : bands ≠ [] := by
  cases h <;> exact List.cons_ne_nil _ _

/-- A band that is not the last is cut off and painted before the block above it is. -/
lemma program_cons (o : BlockId) (b : Band) (hne : bands ≠ []) :
    program o (b :: bands) =
      [.lineCut o .y b.top] ++ (b.paint.toList.map (.color (o.child 0)) ++
        program (o.child 1) bands) := by
  cases bands with
  | nil => exact absurd rfl hne
  | cons next bands => rfl

lemma works_paint {b : Board} {width height : Nat} {o : BlockId}
    (ready : b.Ready width height o rect) (paint : Option Color) :
    ∃ b', b.Works b' width height o rect (paint.toList.map (.color o))
      (paintPrice (.contest width height) rect paint) := by
  cases paint with
  | none => exact ⟨b, Works.refl ready.sized o rect⟩
  | some paint =>
    obtain ⟨b', hworks, _⟩ := ready.color paint
    exact ⟨b', hworks⟩

lemma Stacked.works {width height : Nat} (h : Stacked (.contest width height) row rect bands)
    {b : Board} {o : BlockId} (ready : b.Ready width height o rect) :
    ∃ b', b.Works b' width height o rect (program o bands) (bands.map Band.cost).sum := by
  induction h generalizing b o with
  | last paint similarity => exact works_paint ready paint
  | @cut rect low high position rest paint similarity cut hrow above ih =>
    obtain ⟨mid, hcut, hmid⟩ := Subdivision.works_of_splits ready (.line cut)
    obtain ⟨mid', hpaint⟩ := works_paint (hmid 0 (by simp)) paint
    obtain ⟨b', habove⟩ := ih (hpaint.ready (hmid 1 (by simp)) (o.child_unrelated (by decide)))
    have hmem : ∀ part ∈ [low, high], ∀ p : Nat × Nat, p ∈ part → p ∈ rect :=
      fun part hpart p hp => ((Rect.cut_tiles cut).mem_iff p).mpr ⟨part, hpart, hp⟩
    have hchildren := (hpaint.widen (o.child_extends 0) (hmem low (by simp))).trans
      (habove.widen (o.child_extends 1) (hmem high (by simp)))
    have hall := hcut.trans hchildren
    rw [Step.instruction, Subdivision.descend_nil, ← Nat.add_assoc,
      Nat.add_comm (Pricing.cost _ _ _)] at hall
    refine ⟨b', ?_⟩
    rw [program_cons o _ above.ne_nil, List.map_cons, List.sum_cons]
    exact hall

def cutPosition : Instruction → Option Nat
  | .lineCut _ _ position => some position
  | _ => none

/-- What a program of bands consists of: paintings of the block and its descendants, and horizontal
cuts through them in some of the rows, strictly inside the rectangle. -/
inductive Peels (row : Nat → Prop) (o : BlockId) (rect : Rect) : Instruction → Prop
  | color {id : BlockId} (paint : Color) (below : id.Extends o) : Peels row o rect (.color id paint)
  | cut {id : BlockId} {position : Nat} (below : id.Extends o) (hrow : row position)
      (inside : rect.y < position ∧ position < rect.top) :
      Peels row o rect (.lineCut id .y position)

lemma peels_paint {o id : BlockId} (below : id.Extends o) (paint : Option Color) :
    ∀ i ∈ paint.toList.map (Instruction.color id), Peels row o rect i := by
  intro i hi
  obtain ⟨c, _, rfl⟩ := List.mem_map.mp hi
  exact .color c below

lemma cutPositions_paint (id : BlockId) (paint : Option Color) :
    (paint.toList.map (Instruction.color id)).filterMap cutPosition = [] := by
  cases paint <;> rfl

lemma inside_of_cut {position : Nat} (h : rect.cut .y position = .ok (low, high)) :
    rect.y < position ∧ position < rect.top ∧ high.y = position ∧ high.top = rect.top := by
  simp only [Rect.cut, Rect.cutY] at h
  split at h
  · rename_i inside
    cases h
    refine ⟨inside.1, inside.2, rfl, ?_⟩
    simp only [Rect.top] at inside ⊢
    omega
  · cases h

lemma Stacked.peels (h : Stacked prices row rect bands) (o : BlockId) :
    ∀ i ∈ program o bands, Peels row o rect i := by
  induction h generalizing o with
  | last paint similarity => exact peels_paint (.refl o) paint
  | @cut rect low high position rest paint similarity cut hrow above ih =>
    obtain ⟨hlow, hhigh, hy, htop⟩ := inside_of_cut cut
    rw [program_cons o _ above.ne_nil]
    intro i hi
    rcases List.mem_append.mp hi with hi | hi
    · rw [List.mem_singleton.mp hi]
      exact .cut (.refl o) hrow ⟨hlow, hhigh⟩
    · rcases List.mem_append.mp hi with hi | hi
      · exact peels_paint (o.child_extends 0) paint i hi
      · cases ih (o.child 1) i hi with
        | color c below => exact .color c (below.trans (o.child_extends 1))
        | cut below hrow inside =>
          exact .cut (below.trans (o.child_extends 1)) hrow (by omega)

lemma Stacked.increasing (h : Stacked prices row rect bands) (o : BlockId) :
    ((program o bands).filterMap cutPosition).Pairwise (· < ·) := by
  induction h generalizing o with
  | last paint similarity =>
    rw [program, cutPositions_paint]
    exact List.Pairwise.nil
  | @cut rect low high position rest paint similarity cut hrow above ih =>
    obtain ⟨_, _, hy, _⟩ := inside_of_cut cut
    rw [program_cons o _ above.ne_nil, List.filterMap_append, List.filterMap_append,
      cutPositions_paint, List.nil_append]
    refine List.pairwise_cons.mpr ⟨?_, ih (o.child 1)⟩
    -- The later cuts lie inside what remains above this one.
    intro later hlater
    change position < later
    obtain ⟨i, hi, hposition⟩ := List.mem_filterMap.mp hlater
    cases above.peels (o.child 1) i hi with
    | color c below => cases hposition
    | cut below hrow inside =>
      obtain rfl := Option.some.inj hposition
      omega

lemma boundaries_eq (rect : Rect) {step : Nat} (hstep : 0 < step) :
    ∃ rows, boundaries rect step = (rect.y :: rows) ++ [rect.top] ∧
      (rect.y :: rows).Pairwise (· < ·) ∧
      ∀ y ∈ rect.y :: rows, y < rect.top ∧ ∃ k, y = rect.y + k * step := by
  have hheight := rect.height_pos
  have hcount : 0 < (rect.height + step - 1) / step := Nat.div_pos (by omega) hstep
  obtain ⟨n, hn⟩ := Nat.exists_eq_succ_of_ne_zero hcount.ne'
  have hrows : (List.range ((rect.height + step - 1) / step)).map (fun k => rect.y + k * step) =
      rect.y :: (List.range n).map (fun k => rect.y + (k + 1) * step) := by
    rw [hn, List.range_succ_eq_map, List.map_cons, List.map_map, Nat.zero_mul, Nat.add_zero]
    rfl
  refine ⟨_, by rw [boundaries, hrows], ?_, ?_⟩
  · rw [← hrows, List.pairwise_map]
    refine List.Pairwise.imp ?_ List.pairwise_lt_range
    intro k l hkl
    exact Nat.add_lt_add_left (Nat.mul_lt_mul_of_pos_right hkl hstep) _
  · rw [← hrows]
    intro y hy
    obtain ⟨k, hk, rfl⟩ := List.mem_map.mp hy
    refine ⟨?_, k, rfl⟩
    have hle := (Nat.le_div_iff_mul_le hstep).mp (Nat.succ_le_of_lt (List.mem_range.mp hk))
    rw [Nat.succ_mul] at hle
    simp only [Rect.top]
    omega

lemma stripes_of_plans {target painted : Raster} {start : Block} {step : Nat} {plan : Plan}
    {later : List Plan} (hstart : start.rect.Within target.width target.height) (hstep : 0 < step)
    (hplans : plans target painted start.rect (boundaries start.rect step) = .ok (plan :: later)) :
    stripes target painted start step = .ok ⟨program start.id plan.bands,
      (plan.bands.map Band.cost).sum,
      plan.bands.foldl (fun sum b => sum + b.similarity) 0.0⟩ := by
  have hcheck : target.check start.rect = .ok () := if_pos hstart
  have hcost : plan.bands.foldl (fun sum b => sum + b.cost) 0 =
      (plan.bands.map Band.cost).sum := by
    simp only [List.sum_eq_foldl, List.foldl_map]
  simp only [stripes, hcheck, hstep.ne', if_false, hplans, List.head?_cons, Option.map_some,
    Option.getD_some, hcost]
  rfl

lemma stripes_eq_ok (target painted : Raster) {start : Block} {step : Nat}
    (hstart : start.rect.Within target.width target.height) (hstep : 0 < step) :
    ∃ bands similarity, stripes target painted start step =
        .ok ⟨program start.id bands, (bands.map Band.cost).sum, similarity⟩ ∧
      Stacked target.pricing (fun y => ∃ k, y = start.rect.y + k * step) start.rect bands := by
  obtain ⟨rows, hrows, increasing, inside⟩ := boundaries_eq start.rect hstep
  obtain ⟨found, hfound, hstarts, fits⟩ := plans_eq_ok target painted increasing inside
  obtain ⟨plan, later, rfl⟩ : ∃ plan later, found = plan :: later := by
    cases found with
    | nil => simp at hstarts
    | cons plan later => exact ⟨plan, later, rfl⟩
  refine ⟨plan.bands, plan.bands.foldl (fun sum b => sum + b.similarity) 0.0, ?_, ?_⟩
  · exact stripes_of_plans hstart hstep (hrows ▸ hfound)
  · have hhead : plan.start = start.rect.y := (List.cons.inj hstarts).1
    rcases fits plan List.mem_cons_self with ⟨htop, _⟩ | ⟨rest, remains, stacked⟩
    · have hheight := start.rect.height_pos
      rw [hhead, Rect.top] at htop
      omega
    · rw [hhead] at remains
      obtain rfl := remains.unique (remains_self start.rect)
      exact stacked

/-- A stripe program is found for every block on the raster and every distance of the rows. On every
board of this size on which the block is live and has the ids below it to itself, no instruction is
refused, the program costs what it says, and the pixels outside the block stay. It paints and cuts
only this block and its descendants; its cuts go from the bottom up along rows that lie whole steps
above the bottom edge. -/
theorem stripes_executable (target painted : Raster) {start : Block} {step : Nat}
    (hstart : start.rect.Within target.width target.height) (hstep : 0 < step) :
    ∃ r, stripes target painted start step = .ok r ∧
      (∀ (initial : List Block) (b : Board) (block : Block),
        Reached target.width target.height initial b → b.live[start.id]? = some block →
        block.rect = start.rect →
        (∀ id, id ≠ start.id → id.Extends start.id → b.live[id]? = none) →
        ∃ b', b.applyAll r.instructions = .ok b' ∧ b'.cost = b.cost + r.cost ∧
          ∀ x y, x < target.width → y < target.height → (x, y) ∉ start.rect →
            b'.painted.pixel x y = b.painted.pixel x y) ∧
      (r.instructions.filterMap cutPosition).Pairwise (· < ·) ∧
      ∀ i ∈ r.instructions,
        Peels (fun y => ∃ k, y = start.rect.y + k * step) start.id start.rect i := by
  obtain ⟨bands, similarity, hrun, stacked⟩ := stripes_eq_ok target painted hstart hstep
  refine ⟨_, hrun, ?_, stacked.increasing start.id, stacked.peels start.id⟩
  intro initial b block reached live hrect alone
  obtain ⟨b', hworks⟩ := stacked.works ⟨reached.sized, hstart, ⟨block, live, hrect⟩, alone⟩
  exact ⟨b', hworks.run, hworks.cost_eq, hworks.kept⟩

/-- A raster that is black in the two lower of its three rows. -/
def blackBelow : Raster := .ofFn 20 3 fun _ y => if y < 2 then .black else .white

lemma blackBelow_width_pos : 0 < blackBelow.width := by decide

lemma blackBelow_height_pos : 0 < blackBelow.height := by decide

def threeRows : Block :=
  ⟨.top 0, ⟨0, 0, 20, 3, blackBelow_width_pos, blackBelow_height_pos⟩, some .white⟩

theorem stripes_executable_of_blackBelow :
    ∃ r, stripes blackBelow (.filled 20 3 .white) threeRows 2 = .ok r ∧
      r.instructions = [.lineCut (.top 0) .y 2, .color (.child (.top 0) 0) .black] ∧
      ∃ first b', Board.start 20 3 [threeRows] = .ok first ∧
        first.applyAll r.instructions = .ok b' ∧ b'.cost = first.cost + r.cost := by
  have hprogram : (stripes blackBelow (.filled 20 3 .white) threeRows 2).toOption.map
      StripeRun.instructions =
        some [.lineCut (.top 0) .y 2, .color (.child (.top 0) 0) .black] := by decide +kernel
  obtain ⟨r, hrun, hreplay, _⟩ := stripes_executable blackBelow (.filled 20 3 .white)
    (show threeRows.rect.Within 20 3 by decide) (show 0 < 2 by decide)
  rw [hrun] at hprogram
  obtain ⟨first, hfirst⟩ : ∃ first, Board.start 20 3 [threeRows] = .ok first :=
    exists_start (List.pairwise_singleton _ _)
  obtain ⟨hlive, halone⟩ := live_start_single hfirst
  obtain ⟨b', hb', hcost, _⟩ := hreplay [threeRows] first threeRows ⟨first, hfirst, [], rfl⟩ hlive
    rfl fun id hne _ => halone id hne
  exact ⟨r, hrun, Option.some.inj hprogram, first, b', hfirst, hb', hcost⟩

end BlockPainting.Stripes
