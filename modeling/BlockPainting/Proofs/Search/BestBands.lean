import BlockPainting.Proofs.Number.Sum
import BlockPainting.Proofs.Search.Bands

/-!
# The best bands

A plan goes through some of the boundaries in increasing order, from its own up to the top, and what
it is worth is the sum of the scores of the bands between them, added up from the top. Adding a band
below keeps the order of the sums, so the best plan from a boundary begins with a band below one of
the best plans from the later boundaries.
-/

namespace BlockPainting.Stripes

open Success

variable {target painted : Raster} {rect : Rect} {ys rows : List Nat} {bottom top : Nat}
variable {bands : List Band}

/-- A strictly increasing choice of boundaries, from one of them up to the top of the rectangle. -/
structure Climbs (rect : Rect) (ys : List Nat) (bottom : Nat) (rows : List Nat) : Prop where
  increasing : rows.Pairwise (· < ·)
  among : ∀ y ∈ rows, y ∈ ys
  head_eq : rows.head? = some bottom
  last_eq : rows.getLast? = some rect.top

def bandsBetween (target painted : Raster) (rect : Rect) :
    List Nat → Except GeometryError (List Band)
  | bottom :: top :: rest => do
    let b ← band target painted rect bottom top
    return b :: (← bandsBetween target painted rect (top :: rest))
  | _ => return []

def totalScore (bands : List Band) : Float :=
  bands.foldr (fun b sum => b.score + sum) 0.0

lemma nonneg_score {b : Band} (h : band target painted rect bottom top = .ok b) :
    0.0 ≤ b.score := by
  simp only [band, bind_eq_ok] at h
  obtain ⟨region, _, h⟩ := h
  split at h
  · rw [pure_eq_ok] at h
    rw [← h]
    exact nonneg_exactScore _ (target.nonneg_similarity _ _)
  · rw [pure_eq_ok] at h
    rw [← h]
    exact nonneg_exactScore _ (painted.nonneg_similarityTo _ _)

lemma bandsBetween_cons_eq_ok :
    bandsBetween target painted rect (bottom :: top :: rows) = .ok bands ↔
      ∃ b rest, band target painted rect bottom top = .ok b ∧
        bandsBetween target painted rect (top :: rows) = .ok rest ∧ b :: rest = bands := by
  simp only [bandsBetween, bind_eq_ok, pure_eq_ok]
  constructor
  · rintro ⟨b, hb, rest, hrest, rfl⟩
    exact ⟨b, rest, hb, hrest, rfl⟩
  · rintro ⟨b, rest, hb, hrest, rfl⟩
    exact ⟨b, hb, rest, hrest, rfl⟩

lemma nonneg_totalScore (h : bandsBetween target painted rect rows = .ok bands) :
    0.0 ≤ totalScore bands := by
  induction rows generalizing bands with
  | nil =>
    obtain rfl := pure_eq_ok.mp h
    exact nonneg_zero
  | cons bottom rows ih =>
    cases rows with
    | nil =>
      obtain rfl := pure_eq_ok.mp h
      exact nonneg_zero
    | cons top rows =>
      obtain ⟨b, rest, hb, hrest, rfl⟩ := bandsBetween_cons_eq_ok.mp h
      exact nonneg_add (nonneg_score hb) (ih hrest)

/-- The plan is made of the bands between some of the boundaries, and no other choice of boundaries
is worth less. -/
structure Plan.Optimal (target painted : Raster) (rect : Rect) (ys : List Nat) (plan : Plan) :
    Prop where
  attained : ∃ rows, Climbs rect ys plan.start rows ∧
    bandsBetween target painted rect rows = .ok plan.bands
  total_eq : plan.total = totalScore plan.bands
  least : ∀ rows bands, Climbs rect ys plan.start rows →
    bandsBetween target painted rect rows = .ok bands → plan.total ≤ totalScore bands

lemma Plan.Optimal.nonneg {plan : Plan} (h : plan.Optimal target painted rect ys) :
    0.0 ≤ plan.total := by
  obtain ⟨rows, _, hbands⟩ := h.attained
  rw [h.total_eq]
  exact nonneg_totalScore hbands

lemma climbs_cons_iff (hlater : ∀ y ∈ ys, bottom < y) (hmem : top ∈ ys) :
    Climbs rect (bottom :: ys) top rows ↔ Climbs rect ys top rows := by
  constructor
  · intro h
    refine ⟨h.increasing, ?_, h.head_eq, h.last_eq⟩
    obtain ⟨tail, rfl⟩ : ∃ tail, rows = top :: tail := by
      cases rows with
      | nil => cases h.head_eq
      | cons y tail => exact ⟨tail, by rw [Option.some.inj h.head_eq]⟩
    have hincreasing := List.pairwise_cons.mp h.increasing
    intro y hy
    have hbelow : bottom < y := by
      rcases List.mem_cons.mp hy with rfl | hy
      · exact hlater y hmem
      · exact (hlater top hmem).trans (hincreasing.1 y hy)
    exact (List.mem_cons.mp (h.among y hy)).resolve_left hbelow.ne'
  · intro h
    exact ⟨h.increasing, fun y hy => List.mem_cons_of_mem _ (h.among y hy), h.head_eq, h.last_eq⟩

lemma Plan.Optimal.cons {plan : Plan} (hlater : ∀ y ∈ ys, bottom < y) (hmem : plan.start ∈ ys)
    (h : plan.Optimal target painted rect ys) :
    plan.Optimal target painted rect (bottom :: ys) where
  attained := by
    obtain ⟨rows, hrows, hbands⟩ := h.attained
    exact ⟨rows, (climbs_cons_iff hlater hmem).mpr hrows, hbands⟩
  total_eq := h.total_eq
  least rows bands hrows hbands :=
    h.least rows bands ((climbs_cons_iff hlater hmem).mp hrows) hbands

lemma Climbs.cons (h : Climbs rect ys top rows) (hlater : ∀ y ∈ ys, bottom < y) :
    Climbs rect (bottom :: ys) bottom (bottom :: rows) := by
  refine ⟨List.pairwise_cons.mpr ⟨fun y hy => hlater y (h.among y hy), h.increasing⟩, ?_, rfl, ?_⟩
  · intro y hy
    rcases List.mem_cons.mp hy with rfl | hy
    · exact List.mem_cons_self
    · exact List.mem_cons_of_mem _ (h.among y hy)
  · rw [List.getLast?_cons, h.last_eq, Option.getD_some]

lemma Climbs.exists_tail (h : Climbs rect (bottom :: ys) bottom rows)
    (hlater : ∀ y ∈ ys, bottom < y) (hbelow : bottom < rect.top) :
    ∃ top tail, rows = bottom :: top :: tail ∧ top ∈ ys ∧ Climbs rect ys top (top :: tail) := by
  obtain ⟨hincreasing, hamong, hhead, hlast⟩ := h
  match rows with
  | [] => cases hhead
  | [y] =>
    obtain rfl := Option.some.inj hhead
    have htop : y = rect.top := Option.some.inj hlast
    omega
  | y :: top :: tail =>
    obtain rfl := Option.some.inj hhead
    rw [List.pairwise_cons] at hincreasing
    have htop : top ∈ ys := (List.mem_cons.mp (hamong top (by simp))).resolve_left
      (hincreasing.1 top List.mem_cons_self).ne'
    have hclimbs : Climbs rect (y :: ys) top (top :: tail) :=
      ⟨hincreasing.2, fun z hz => hamong z (List.mem_cons_of_mem _ hz), rfl, hlast⟩
    exact ⟨top, tail, rfl, htop, (climbs_cons_iff hlater htop).mp hclimbs⟩

/-- A band below a best plan makes a best plan if no band below another best plan makes a plan that
is worth less: every choice of boundaries begins with one of these bands. -/
lemma Plan.Optimal.extend {above : Plan} {b : Band} (h : above.Optimal target painted rect ys)
    (hlater : ∀ y ∈ ys, bottom < y) (hbelow : bottom < rect.top)
    (hb : band target painted rect bottom above.start = .ok b)
    (hleast : ∀ top ∈ ys, ∃ rival : Plan, rival.start = top ∧
      rival.Optimal target painted rect ys ∧ ∃ b', band target painted rect bottom top = .ok b' ∧
        b.score + above.total ≤ b'.score + rival.total) :
    (Plan.extend bottom b above).Optimal target painted rect (bottom :: ys) where
  attained := by
    obtain ⟨rows, hrows, hbands⟩ := h.attained
    refine ⟨bottom :: rows, hrows.cons hlater, ?_⟩
    obtain ⟨tail, rfl⟩ : ∃ tail, rows = above.start :: tail := by
      cases rows with
      | nil => cases hrows.head_eq
      | cons y tail => exact ⟨tail, by rw [Option.some.inj hrows.head_eq]⟩
    exact bandsBetween_cons_eq_ok.mpr ⟨b, above.bands, hb, hbands, rfl⟩
  total_eq := by
    rw [Plan.extend, h.total_eq]
    rfl
  least := by
    intro rows bands hrows hbetween
    obtain ⟨top, tail, rfl, htop, htail⟩ := hrows.exists_tail hlater hbelow
    obtain ⟨b', rest, hb', hrest, rfl⟩ := bandsBetween_cons_eq_ok.mp hbetween
    obtain ⟨rival, rfl, hrival, b'', hb'', hle⟩ := hleast top htop
    obtain rfl : b' = b'' := Except.ok.inj (hb'.symm.trans hb'')
    have hscore := nonneg_score hb'
    have hrestpos := nonneg_totalScore hrest
    exact le_trans_of_nonneg (nonneg_add (nonneg_score hb) h.nonneg)
      (nonneg_add hscore hrival.nonneg) (nonneg_add hscore hrestpos) hle
      (add_mono_of_nonneg hscore hrival.nonneg hrestpos (hrival.least _ _ htail hrest))

end BlockPainting.Stripes
