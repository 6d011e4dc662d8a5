import BlockPainting.Proofs.Solve.Total

/-!
# The contest

The solution of a finished solve is told by the programs that competed and by the refinement of the
winner. In a small picture three programs compete, and what wins depends on who is asked.
-/

namespace BlockPainting.Solve

open Success Board

variable {target : Raster} {initial : List Block} {settings : Settings} {clock : Clock}

lemma Replays.unique {program : List Instruction} {cost cost' : Nat}
    {similarity similarity' : Float} (h : Replays target initial program cost similarity)
    (h' : Replays target initial program cost' similarity') :
    cost = cost' ∧ similarity = similarity' := by
  obtain ⟨outcome, houtcome, rfl, rfl⟩ := h
  obtain ⟨outcome', houtcome', rfl, rfl⟩ := h'
  obtain rfl := Except.ok.inj (houtcome.symm.trans houtcome')
  exact ⟨rfl, rfl⟩

/-- A finished solve, as far as its report tells. -/
structure Finished (target : Raster) (initial : List Block) (settings : Settings) (clock : Clock)
    (pool : List Scored) (best : Scored) (refined : Option (Scored × Refinement.Counters))
    (solution : Solution) (entries : List ReportEntry) : Prop where
  pool_eq : ∃ others counters, candidates target initial settings clock = .ok (others, counters) ∧
    pool.map Scored.candidate = noop :: others
  replays : ∀ s ∈ pool, Replays target initial s.candidate.instructions s.cost s.similarity
  earliest : Earliest best pool
  refined_eq : refineWinner target initial settings clock best = .ok refined
  entries_eq : entries = (pool ++ (refined.map Prod.fst).toList).map Scored.entry
  solution_eq : solution = ((refined.map Prod.fst).elim best best.better).solution

lemma exists_finished {layout : Layout} {solution : Solution} {report : SolveReport}
    (h : solveWithReport target layout settings clock = .ok (solution, report)) :
    ∃ initial pool best refined, layout.validate target = .ok initial ∧
      report.winner = solution.strategy ∧
      Finished target initial settings clock pool best refined solution report.entries := by
  obtain ⟨initial, others, counters, first, scored, refined, accepted, hothers, hfirst, hscored,
    hrefined, hentries, hwinner, hsolution⟩ := solveWithReport_eq_ok h
  obtain ⟨hpool, hreplays⟩ := replays_of_scored (List.Forall₂.cons hfirst hscored)
  exact ⟨initial, first :: scored, _, refined, accepted, hwinner,
    ⟨others, counters, hothers, hpool⟩, hreplays, earliest_foldl_better first scored, hrefined,
    hentries, hsolution⟩

namespace Finished

variable {pool : List Scored} {best : Scored} {refined : Option (Scored × Refinement.Counters)}
variable {solution : Solution} {entries : List ReportEntry}

lemma nodup (f : Finished target initial settings clock pool best refined solution entries) :
    ((pool ++ (refined.map Prod.fst).toList).map fun s => s.candidate.name).Nodup := by
  obtain ⟨others, counters, hothers, hpool⟩ := f.pool_eq
  exact nodup_names hothers hpool f.refined_eq

lemma unmarked (f : Finished target initial settings clock pool best refined solution entries)
    {s : Scored} (hs : s ∈ pool) (name : String) : s.candidate.name ≠ name ++ refinedMark := by
  obtain ⟨others, counters, hothers, hpool⟩ := f.pool_eq
  obtain ⟨label, cellSize, direction, _, hnames⟩ := names_of_candidates hothers
  rw [← hpool, List.map_map] at hnames
  exact ne_append_refinedMark (hnames.subset (List.mem_map_of_mem hs)) name

lemma exists_idle (f : Finished target initial settings clock pool best refined solution entries) :
    ∃ s ∈ pool, s.candidate = noop := by
  obtain ⟨others, counters, _, hpool⟩ := f.pool_eq
  have hmem : noop ∈ pool.map Scored.candidate := hpool ▸ List.mem_cons_self
  exact List.mem_map.mp hmem

lemma all_replay (f : Finished target initial settings clock pool best refined solution entries) :
    ∀ s ∈ pool ++ (refined.map Prod.fst).toList,
      Replays target initial s.candidate.instructions s.cost s.similarity := by
  intro s hs
  rcases List.mem_append.mp hs with hs | hs
  · exact f.replays s hs
  · exact replays_of_refineWinner f.refined_eq s (Option.mem_toList.mp hs)

lemma chosen (f : Finished target initial settings clock pool best refined solution entries) :
    (solution = best.solution ∧ ∀ r ∈ refined.map Prod.fst, best.score ≤ r.score) ∨
      ∃ r ∈ refined.map Prod.fst, r.score < best.score ∧ solution = r.solution := by
  rw [f.solution_eq]
  exact solution_of_refined best (refined.map Prod.fst)

lemma least (f : Finished target initial settings clock pool best refined solution entries) :
    (∃ e ∈ entries, e.name = solution.strategy ∧ e.score = solution.score) ∧
      ∀ e ∈ entries, solution.score ≤ e.score := by
  obtain ⟨s, hs, hsolution, hle⟩ := exists_least f.earliest f.chosen
  rw [f.entries_eq, hsolution]
  refine ⟨⟨s.entry, List.mem_map_of_mem hs, rfl, rfl⟩, ?_⟩
  intro e he
  obtain ⟨t, ht, rfl⟩ := List.mem_map.mp he
  exact hle t ht

lemma score_le_refined
    (f : Finished target initial settings clock pool best refined solution entries)
    {r : Scored × Refinement.Counters} (hr : refined = some r) : solution.score ≤ r.1.score := by
  refine f.least.2 r.1.entry ?_
  rw [f.entries_eq, hr]
  exact List.mem_map_of_mem (List.mem_append_right _ (List.mem_singleton_self _))

end Finished

/-- The score of a painting that came at a cost. -/
def scoreOf (target painted : Raster) (cost : Nat) : Nat :=
  totalScore cost
    (match target.bounds with
    | .ok bounds => painted.similarityTo target bounds
    | .error _ => 0.0)

def clearBelow : Raster :=
  (Raster.filled 1 13 .white).fill ⟨0, 0, 1, 9, Nat.one_pos, by decide⟩ ⟨0, 0, 0, 0⟩

/-- Settings under which nothing is subdivided and stripes end one row short of the picture. -/
def oneNudge : Settings where
  maxDepth := 0
  gridCellSizes := []
  stripeStep := 8
  refineRadius := 1

namespace clearBelow

def rows : Rect := ⟨0, 0, 1, 13, Nat.one_pos, by decide⟩

def block : Block := ⟨.top 0, rows, some .white⟩

def blank : Raster := (Raster.filled 1 13 .white).fill rows .white

def prices : Pricing := .contest 1 13

lemma accepted : (Layout.single 1 13).validate clearBelow = .ok [block] :=
  rfl

lemma exists_first : ∃ first, Begun clearBelow [block] first ∧
    first.live[BlockId.top 0]? = some block ∧ first.painted = blank ∧ first.cost = 0 ∧
    first.prices = prices := by
  obtain ⟨first, begun⟩ := exists_begun accepted
  have hsized : first.Sized 1 13 := Reached.sized ⟨first, begun.start, [], rfl⟩
  exact ⟨first, begun, (live_start_single begun.start).1, painted_start_single begun.start,
    (counters_of_start begun.start).2.1, hsized.prices_eq⟩

def Scores (program : List Instruction) (n : Nat) : Prop :=
  ∃ outcome, replay clearBelow [block] program = .ok outcome ∧ outcome.score = n

lemma scores_empty : Scores [] 23 := by
  obtain ⟨first, begun, _, hpainted, hcost, _⟩ := exists_first
  refine ⟨_, replay_eq_ok.mpr ⟨first, first, begun.start, rfl, rfl⟩, ?_⟩
  change scoreOf clearBelow first.painted first.cost = 23
  rw [hpainted, hcost]
  decide +kernel

lemma scores_color : Scores [.color (.top 0) ⟨0, 0, 0, 0⟩] 15 := by
  obtain ⟨first, begun, live, hpainted, hcost, hprices⟩ := exists_first
  refine ⟨_, replay_eq_ok.mpr ⟨first, _, begun.start, (Legal.color _ live).applyAll, rfl⟩, ?_⟩
  change scoreOf clearBelow (first.painted.fill rows ⟨0, 0, 0, 0⟩)
    (first.cost + first.prices.cost .color rows.area) = 15
  rw [hpainted, hcost, hprices]
  decide +kernel

def band (p : Nat) : List Instruction :=
  [.lineCut (.top 0) .y p, .color ((BlockId.top 0).child 0) ⟨0, 0, 0, 0⟩]

lemma scores_band {p n : Nat} {low high : Rect} (cut : rows.cut .y p = .ok (low, high))
    (h : scoreOf clearBelow (blank.fill low ⟨0, 0, 0, 0⟩)
      (0 + prices.cost .lineCut rows.area + prices.cost .color low.area) = n) :
    Scores (band p) n := by
  obtain ⟨first, begun, live, hpainted, hcost, hprices⟩ := exists_first
  have legal : first.Legal (.lineCut (.top 0) .y p) _ := .lineCut live cut
  have live' : (first.commit _).live[(BlockId.top 0).child 0]? = some (block.part 0 low) :=
    (live_commit_iff legal.distinct).mpr (Or.inl ⟨List.mem_cons_self, rfl⟩)
  have happly := applyAll_append_eq_ok.mpr
    ⟨_, legal.applyAll, (Legal.color ⟨0, 0, 0, 0⟩ live').applyAll⟩
  refine ⟨_, replay_eq_ok.mpr ⟨first, _, begun.start, happly, rfl⟩, ?_⟩
  rw [← h, ← hpainted, ← hcost, ← hprices]
  rfl

lemma scores_eight : Scores (band 8) 18 :=
  scores_band (p := 8) rfl (by decide +kernel)

lemma scores_nine : Scores (band 9) 14 :=
  scores_band (p := 9) rfl (by decide +kernel)

lemma steps_of_improve {recipe : Recipe} {next : Subdivision.Session}
    (h : Subdivision.improve clearBelow (.exact 0.5) 0 rows .white 0 .empty = .ok (recipe, next)) :
    recipe.steps = [⟨[], .color ⟨0, 0, 0, 0⟩⟩] := by
  have hafresh := (@Subdivision.improve_of_sound clearBelow (.exact 0.5) _ Subdivision.sound_empty 0
    rows .white 0).1
  rw [h] at hafresh
  have hsteps : (Subdivision.improveAfresh clearBelow (.exact 0.5) 0 rows .white 0).toOption.map
      Recipe.steps = some [⟨[], .color ⟨0, 0, 0, 0⟩⟩] := by
    rw [Subdivision.improveAfresh, Subdivision.searchAtDepth_eq]
    decide +kernel
  rw [← hafresh] at hsteps
  exact Option.some.inj hsteps

variable {kind : Strategy} {clock : Clock}

lemma program_of_subdivide {c : Candidate} {counters : Subdivision.Counters}
    (h : subdivide clearBelow { oneNudge with strategy := kind } ⟨"", [], block⟩ clock =
      .ok (c, counters)) : c.instructions = [.color (.top 0) ⟨0, 0, 0, 0⟩] := by
  obtain ⟨⟨recipe, session⟩, himprove, heq⟩ := bind_eq_ok.mp h
  cases heq
  change recipe.steps.map _ = _
  rw [steps_of_improve himprove]
  rfl

lemma program_of_stripe {c : Candidate}
    (h : stripe clearBelow blank { oneNudge with strategy := kind } ⟨"", [], block⟩ clock = .ok c) :
    c.instructions = band 8 := by
  obtain ⟨run, hrun, heq⟩ := bind_eq_ok.mp h
  cases heq
  have hband : (stripes clearBelow blank block 8).toOption.map StripeRun.instructions =
      some (band 8) := by decide +kernel
  change stripes clearBelow blank block 8 = .ok run at hrun
  rw [hrun] at hband
  exact Option.some.inj hband

lemma programs_of_candidates {others : List Candidate} {counters : Option Subdivision.Counters}
    (h : candidates clearBelow [block] { oneNudge with strategy := kind } clock =
      .ok (others, counters)) :
    others.map Candidate.instructions =
      (if kind.runs .blocks then [[.color (.top 0) ⟨0, 0, 0, 0⟩]] else []) ++
        (if kind.runs .stripes then [band 8] else []) := by
  change (paintBase clearBelow [block] _ ⟨"", [], block⟩ clock >>= _) = _ at h
  obtain ⟨⟨painted, _⟩, hpainted, heq⟩ := bind_eq_ok.mp h
  cases heq
  obtain ⟨first, board, subdivided, walked, striped, hfirst, hboard, hsub, hwalk, hstripe, rfl⟩ :=
    paintBase_eq_ok hpainted
  obtain ⟨first', begun, _, hblank, _⟩ := exists_first
  obtain rfl := Except.ok.inj (begun.start.symm.trans hfirst)
  cases hboard
  rw [hblank] at hstripe
  have hwalked : walked = [] := by
    split at hwalk
    · exact (Except.ok.inj hwalk).symm
    · exact hwalk
  have hsubdivided : subdivided.map Candidate.instructions =
      if kind.runs .blocks then [[.color (.top 0) ⟨0, 0, 0, 0⟩]] else [] := by
    split at hsub
    · rename_i runs
      obtain ⟨c, _, hc, rfl, _⟩ := hsub
      rw [List.map_singleton, program_of_subdivide hc, if_pos runs]
    · rename_i runs
      rw [hsub.1, if_neg runs]
      rfl
  have hstriped : striped.map Candidate.instructions =
      if kind.runs .stripes then [band 8] else [] := by
    split at hstripe
    · rename_i runs
      obtain ⟨c, hc, rfl⟩ := hstripe
      rw [List.map_singleton, program_of_stripe hc, if_pos runs]
    · rename_i runs
      rw [hstripe, if_neg runs]
      rfl
  change ((subdivided ++ walked) ++ striped).map Candidate.instructions = _
  rw [hwalked, List.append_nil, List.map_append, hsubdivided, hstriped]

lemma scoreFrom_of_scores {first : Board} {program : List Instruction} {n : Nat}
    (hfirst : Board.start 1 13 [block] = .ok first) (h : Scores program n) :
    Refinement.scoreFrom clearBelow first program = .ok n := by
  obtain ⟨outcome, houtcome, rfl⟩ := h
  obtain ⟨first', last, hfirst', hlast, rfl⟩ := replay_eq_ok.mp houtcome
  obtain rfl := Except.ok.inj (hfirst.symm.trans hfirst')
  exact Refinement.scoreFrom_eq_ok.mpr ⟨last, hlast, rfl⟩

lemma refined_score_le {result : Refined} (h : refine clearBelow [block] (band 8) 1 = .ok result) :
    result.outcome.score ≤ 14 := by
  simp only [refine, bind_eq_ok, pure_eq_ok, Prod.exists] at h
  obtain ⟨given, hgiven, first, hfirst, kept, final, counters, hvisit, rfl⟩ := h
  obtain ⟨first', last', hfirst', hlast', rfl⟩ := replay_eq_ok.mp hgiven
  obtain rfl := Except.ok.inj (hfirst.symm.trans hfirst')
  obtain ⟨kept', final', counters', hvisit', hdescends, _⟩ :=
    @Refinement.visit_of_replays clearBelow first (band 8) 1 _ ⟨0, 0, 0⟩
      (Refinement.scoreFrom_eq_ok.mpr ⟨last', hlast', rfl⟩)
  cases hvisit.symm.trans hvisit'
  have hnudged : Refinement.Nudged 1 (.lineCut (.top 0) .y 8) (.lineCut (.top 0) .y 9) :=
    .lineCut _ _ ⟨by decide, by decide⟩ (by decide)
  obtain ⟨t, ht, hscore⟩ := hdescends.score_le (n := 0) rfl hnudged
    (scoreFrom_of_scores hfirst scores_nine)
  obtain ⟨last, hlast, rfl⟩ := Refinement.scoreFrom_eq_ok.mp hscore
  rw [Refinement.applyAll_of_visit hvisit] at hlast
  cases hlast
  exact ht

lemma score_of_scores {s : Scored} {n : Nat}
    (replays : Replays clearBelow [block] s.candidate.instructions s.cost s.similarity)
    (h : Scores s.candidate.instructions n) : s.score = n := by
  obtain ⟨outcome, houtcome, hcost, hsimilarity⟩ := replays
  obtain ⟨outcome', houtcome', rfl⟩ := h
  obtain rfl := Except.ok.inj (houtcome.symm.trans houtcome')
  rw [Scored.score, ← hcost, ← hsimilarity]
  rfl

section

variable {pool : List Scored} {best : Scored} {refined : Option (Scored × Refinement.Counters)}
variable {solution : Solution} {entries : List ReportEntry}

lemma programs_of_pool {others : List Candidate} {counters : Option Subdivision.Counters}
    (hothers : candidates clearBelow [block] { oneNudge with strategy := kind } clock =
      .ok (others, counters)) (hpool : pool.map Scored.candidate = noop :: others) :
    pool.map (fun s => s.candidate.instructions) =
      [] :: ((if kind.runs .blocks then [[.color (.top 0) ⟨0, 0, 0, 0⟩]] else []) ++
        (if kind.runs .stripes then [band 8] else [])) := by
  have hmap := congrArg (List.map Candidate.instructions) hpool
  rw [List.map_map, List.map_cons, programs_of_candidates hothers] at hmap
  exact hmap

lemma scores_of_pool {scores : List Nat}
    (replays : ∀ s ∈ pool, Replays clearBelow [block] s.candidate.instructions s.cost s.similarity)
    (h : List.Forall₂ Scores (pool.map fun s => s.candidate.instructions) scores) :
    pool.map Scored.score = scores := by
  induction pool generalizing scores with
  | nil =>
    cases h
    rfl
  | cons s rest ih =>
    cases h with
    | cons hs hrest =>
      rw [List.forall_mem_cons] at replays
      rw [List.map_cons, score_of_scores replays.1 hs, ih replays.2 hrest]

/-- With all strategies the block painted as a whole competes with one band of stripes. -/
lemma scores_of_all {others : List Candidate} {counters : Option Subdivision.Counters}
    (hothers : candidates clearBelow [block] { oneNudge with strategy := .best } clock =
      .ok (others, counters)) (hpool : pool.map Scored.candidate = noop :: others)
    (replays :
      ∀ s ∈ pool, Replays clearBelow [block] s.candidate.instructions s.cost s.similarity) :
    pool.map Scored.score = [23, 15, 18] := by
  have hprograms : pool.map (fun s => s.candidate.instructions) =
    [[], [.color (.top 0) ⟨0, 0, 0, 0⟩], band 8] := programs_of_pool hothers hpool
  refine scores_of_pool replays ?_
  rw [hprograms]
  exact .cons scores_empty (.cons scores_color (.cons scores_eight .nil))

/-- With stripes alone the band has only doing nothing to beat. -/
lemma scores_of_stripes {others : List Candidate} {counters : Option Subdivision.Counters}
    (hothers : candidates clearBelow [block] { oneNudge with strategy := .stripes } clock =
      .ok (others, counters)) (hpool : pool.map Scored.candidate = noop :: others)
    (replays :
      ∀ s ∈ pool, Replays clearBelow [block] s.candidate.instructions s.cost s.similarity) :
    pool.map Scored.score = [23, 18] := by
  have hprograms : pool.map (fun s => s.candidate.instructions) = [[], band 8] :=
    programs_of_pool hothers hpool
  refine scores_of_pool replays ?_
  rw [hprograms]
  exact .cons scores_empty (.cons scores_eight .nil)

lemma program_of_best
    (f : Finished clearBelow [block] { oneNudge with strategy := kind } clock pool best refined
      solution entries) {program : List Instruction} {n : Nat} (scores : Scores program n)
    (competes : program ∈ pool.map fun s => s.candidate.instructions)
    (others : ∀ other ∈ pool.map fun s => s.candidate.instructions, other ≠ program →
      ∃ m > n, Scores other m) :
    best.candidate.instructions = program ∧ best.score = n := by
  have hbest : best.candidate.instructions = program := by
    by_contra hne
    obtain ⟨s, hs, rfl⟩ := List.mem_map.mp competes
    obtain ⟨m, hlt, hm⟩ := others _ (List.mem_map_of_mem f.earliest.mem) hne
    have hle := f.earliest.score_le hs
    rw [score_of_scores (f.replays s hs) scores,
      score_of_scores (f.replays best f.earliest.mem) hm] at hle
    omega
  exact ⟨hbest, score_of_scores (f.replays best f.earliest.mem) (hbest ▸ scores)⟩

lemma score_of_best
    (f : Finished clearBelow [block] { oneNudge with strategy := .best } clock pool best refined
      solution entries) : solution.score = 15 := by
  obtain ⟨others, _, hothers, hpool⟩ := f.pool_eq
  have hprograms : pool.map (fun s => s.candidate.instructions) =
    [[], [.color (.top 0) ⟨0, 0, 0, 0⟩], band 8] := programs_of_pool hothers hpool
  obtain ⟨hbest, hscore⟩ := program_of_best f scores_color (by simp [hprograms]) (by
    simp only [hprograms, List.forall_mem_cons]
    exact ⟨fun _ => ⟨23, by decide, scores_empty⟩, fun hne => absurd rfl hne,
      fun _ => ⟨18, by decide, scores_eight⟩, by simp⟩)
  have hrefined := f.refined_eq
  simp only [refineWinner, hbest] at hrefined
  cases hrefined
  rw [f.solution_eq]
  exact hscore

lemma score_of_stripes
    (f : Finished clearBelow [block] { oneNudge with strategy := .stripes } clock pool best refined
      solution entries) : solution.score ≤ 14 := by
  obtain ⟨others, _, hothers, hpool⟩ := f.pool_eq
  have hprograms : pool.map (fun s => s.candidate.instructions) = [[], band 8] :=
    programs_of_pool hothers hpool
  obtain ⟨hbest, _⟩ := program_of_best f scores_eight (by simp [hprograms]) (by
    simp only [hprograms, List.forall_mem_cons]
    exact ⟨fun _ => ⟨23, by decide, scores_empty⟩, fun hne => absurd rfl hne, by simp⟩)
  have hrefined := f.refined_eq
  simp only [refineWinner, hbest] at hrefined
  rw [if_neg (by decide)] at hrefined
  simp only [bind_eq_ok, pure_eq_ok, replayed_eq_ok] at hrefined
  obtain ⟨result, hresult, rfl⟩ := hrefined
  exact (f.score_le_refined rfl).trans (refined_score_le hresult)

end

end clearBelow

lemma oneNudge_valid : oneNudge.validate = .ok () :=
  rfl

lemma exists_solved (kind : Strategy) : ∃ solution report,
    solveWithReport clearBelow (.single 1 13) { oneNudge with strategy := kind } .stopped =
      .ok (solution, report) := by
  rcases @ends_solveWithReport clearBelow (.single 1 13) { oneNudge with strategy := kind }
    [clearBelow.block] (by decide) oneNudge_valid clearBelow.accepted (Or.inl rfl) .stopped with
    ⟨⟨solution, report⟩, hfound, _⟩ | ⟨⟨_, hscarce⟩, _⟩
  · exact ⟨solution, report, hfound⟩
  · exact absurd hscarce (by unfold Scarce; decide)

/-- The solution replays to what is reported of it and to no more than any program in the report,
the empty one among them, and the report names it. It is the earliest of least score among the
programs that were not refined, or the refined one if this scores strictly lower. -/
theorem solution_cheapest {layout : Layout} {solution : Solution} {report : SolveReport}
    (h : solveWithReport target layout settings clock = .ok (solution, report)) :
    ∃ initial, layout.validate target = .ok initial ∧
      Replays target initial solution.instructions solution.cost solution.similarity ∧
      (∃ cost similarity, Replays target initial [] cost similarity ∧
        solution.score ≤ totalScore cost similarity) ∧
      (∀ e ∈ report.entries, solution.score ≤ e.score) ∧
      (∃ e, report.winning = some e ∧ e.name = solution.strategy ∧ e.cost = solution.cost ∧
        e.similarity = solution.similarity ∧ e.score = solution.score) ∧
      ∃ (others : List Candidate) (counters : Option Subdivision.Counters) (pool : List Scored)
        (best : Scored) (refined : Option Scored),
        candidates target initial settings clock = .ok (others, counters) ∧
        pool.map Scored.candidate = noop :: others ∧
        report.entries = (pool ++ refined.toList).map Scored.entry ∧
        (∀ s ∈ pool ++ refined.toList,
          Replays target initial s.candidate.instructions s.cost s.similarity) ∧
        Earliest best pool ∧
        (∀ r ∈ refined, r.candidate.name = best.candidate.name ++ refinedMark ∧
          ∃ result, refine target initial best.candidate.instructions settings.refineRadius =
            .ok result ∧ r.candidate.instructions = result.instructions) ∧
        ((solution = best.solution ∧ ∀ r ∈ refined, best.score ≤ r.score) ∨
          ∃ r ∈ refined, r.score < best.score ∧ solution = r.solution) := by
  obtain ⟨initial, pool, best, refined, accepted, hwinner, f⟩ := exists_finished h
  obtain ⟨others, counters, hothers, hpool⟩ := f.pool_eq
  have hreplays := f.all_replay
  have hchosen := f.chosen
  obtain ⟨s, hs, rfl, hle⟩ := exists_least f.earliest hchosen
  refine ⟨initial, accepted, hreplays s hs, ?_, ?_, ⟨s.entry, ?_, rfl, rfl, rfl, rfl⟩, others,
    counters, pool, best, refined.map Prod.fst, hothers, hpool, f.entries_eq, hreplays, f.earliest,
    ?_, hchosen⟩
  · obtain ⟨idle, hidle, hnoop⟩ := f.exists_idle
    have hempty := f.replays idle hidle
    rw [hnoop] at hempty
    exact ⟨idle.cost, idle.similarity, hempty, hle idle (List.mem_append_left _ hidle)⟩
  · intro e he
    rw [f.entries_eq] at he
    obtain ⟨t, ht, rfl⟩ := List.mem_map.mp he
    exact hle t ht
  · rw [SolveReport.winning, f.entries_eq, hwinner]
    exact find?_entry f.nodup hs
  · intro r hr
    obtain ⟨result, hresult, rfl⟩ := Option.mem_map.mp hr
    obtain ⟨hmark, kept, hkept, heq⟩ := refineWinner_eq_ok f.refined_eq result hresult
    refine ⟨hmark, kept, hkept, ?_⟩
    rw [heq]

/-- With all strategies three programs of different scores compete and the second wins. With
stripes alone the second of two wins, and its refinement replaces it. -/
theorem solution_cheapest_of_clearBelow : ∃ chosen single report report',
    solveWithReport clearBelow (.single 1 13) { oneNudge with strategy := .best } .stopped =
      .ok (chosen, report) ∧
    solveWithReport clearBelow (.single 1 13) { oneNudge with strategy := .stripes } .stopped =
      .ok (single, report') ∧
    ([23, 15, 18] <+: report.entries.map ReportEntry.score ∧ chosen.score = 15 ∧
      ∀ e ∈ report.entries, chosen.score ≤ e.score) ∧
    [23, 18] <+: report'.entries.map ReportEntry.score ∧ single.score ≤ 14 ∧
      (∃ name, single.strategy = name ++ refinedMark) ∧
      ∃ e, report'.winning = some e ∧ e.score = single.score := by
  obtain ⟨chosen, report, hchosen⟩ := exists_solved .best
  obtain ⟨single, report', hsingle⟩ := exists_solved .stripes
  refine ⟨chosen, single, report, report', hchosen, hsingle, ?_, ?_⟩
  · obtain ⟨initial, _, _, _, accepted, _, f⟩ := exists_finished hchosen
    cases clearBelow.accepted.symm.trans accepted
    obtain ⟨_, accepted', _, _, hleast, _, others, _, pool, _, refined, hothers, hpool, hentries,
      hreplays, _⟩ := solution_cheapest hchosen
    cases clearBelow.accepted.symm.trans accepted'
    have hscores := clearBelow.scores_of_all hothers hpool
      (fun s hs => hreplays s (List.mem_append_left _ hs))
    refine ⟨?_, clearBelow.score_of_best f, hleast⟩
    rw [hentries, List.map_map, List.map_append, ← hscores]
    exact List.prefix_append _ _
  · obtain ⟨initial, _, _, _, accepted, _, f⟩ := exists_finished hsingle
    cases clearBelow.accepted.symm.trans accepted
    have hlow := clearBelow.score_of_stripes f
    obtain ⟨_, accepted', _, _, _, ⟨e, hwinning, _, _, _, hscore⟩, others, _, pool, best, refined,
      hothers, hpool, hentries, hreplays, hearliest, hmark, hor⟩ := solution_cheapest hsingle
    cases clearBelow.accepted.symm.trans accepted'
    have hscores := clearBelow.scores_of_stripes hothers hpool
      (fun s hs => hreplays s (List.mem_append_left _ hs))
    refine ⟨?_, hlow, ?_, e, hwinning, hscore⟩
    · rw [hentries, List.map_map, List.map_append, ← hscores]
      exact List.prefix_append _ _
    · -- No program of the pool scores as low, so the solution is the refined one.
      have hhigh : 18 ≤ best.score := by
        have hmem := List.mem_map_of_mem (f := Scored.score) hearliest.mem
        rw [hscores] at hmem
        simp only [List.mem_cons, List.not_mem_nil, or_false] at hmem
        omega
      rcases hor with ⟨rfl, _⟩ | ⟨r, hr, _, rfl⟩
      · exact absurd hlow (by change ¬ best.score ≤ 14; omega)
      · exact ⟨best.candidate.name, (hmark r hr).1⟩


end BlockPainting.Solve
