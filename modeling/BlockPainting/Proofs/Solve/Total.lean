import BlockPainting.Proofs.Layout.Accepted
import BlockPainting.Proofs.Refinement.Descent
import BlockPainting.Proofs.Solve.Programs

/-!
# A solve ends with a program unless it runs out of numbers

Every program that competes is carried out by the board that the initial blocks start on, so scoring
and refining it goes through. What is left of all errors is a grid walk that finds no number for one
of its merges.
-/

namespace BlockPainting

namespace Solve

open Success Board

variable {target : Raster} {initial : List Block} {settings : Settings} {clock : Clock}
variable {first : Board} {layout : Layout}

/-- The initial blocks tile the raster, and the board starts with them. -/
structure Begun (target : Raster) (initial : List Block) (first : Board) : Prop where
  tiling : Layout.Tiling initial target.width target.height
  some_block : initial ≠ []
  start : Board.start target.width target.height initial = .ok first

lemma exists_begun (accepted : layout.validate target = .ok initial) :
    ∃ first, Begun target initial first := by
  have htiling := Layout.validate_tiling accepted
  obtain ⟨_, hblocks, hdescribes, _⟩ := Layout.validate_eq_ok_iff.mp accepted
  obtain ⟨first, hfirst⟩ := @exists_start target.width target.height initial htiling.distinct
  refine ⟨first, htiling, ?_, hfirst⟩
  rintro rfl
  exact hblocks (List.forall₂_nil_right_iff.mp hdescribes)

lemma opened_only {only : Block} (begun : Begun target [only] first) :
    Opened target [only] ⟨"", [], only⟩ first first := by
  refine ⟨begun.start, rfl, holds_start begun.tiling begun.start, ?_⟩
  rw [(counters_of_start begun.start).1]
  change max 0 only.id.root + 1 = _
  rfl

lemma shuffleCandidate_plays (begun : Begun target initial first) (settings : Settings)
    (clock : Clock) : ∃ c, shuffleCandidate target initial settings clock = .ok c ∧
      Plays first c.instructions := by
  obtain ⟨block, hblock⟩ := List.exists_mem_of_ne_nil initial begun.some_block
  obtain ⟨estimator, hestimator⟩ :=
    Subdivision.exists_estimator (begun.tiling.within block hblock) settings
  simp only [shuffleCandidate, hestimator]
  exact ⟨_, rfl, Layout.exists_applyAll_shuffle estimator .empty begun.tiling.distinct begun.start⟩

/-- Blocks that are joined leave one on the board. Blocks that cannot be joined stop only the plan
to merge. -/
lemma mergedBase_opened (begun : Begun target initial first) {plan : LayoutPlan}
    (tolerant : plan ≠ .merge) (merges : plan.merges) :
    ∃ start, mergedBase target initial plan = .ok start ∧
      ∀ base ∈ start, ∃ board, Opened target initial base first board := by
  have hplan : plan = .best := by
    cases plan with
    | shuffle => cases merges
    | merge => exact absurd rfl tolerant
    | best => rfl
  have hids := (counters_of_start begun.start).1
  unfold mergedBase
  cases hmerge : Layout.mergeGrid initial (.after (Block.largestRoot initial)) target.pricing with
  | mk result ids =>
    rcases result with e | ⟨opening, block⟩
    · exact ⟨none, if_pos hplan, by simp⟩
    · refine ⟨_, rfl, ?_⟩
      intro base hbase
      obtain rfl := Option.some.inj hbase
      rw [← hids] at hmerge
      obtain ⟨board, joins, rfl⟩ :=
        Layout.joins_of_mergeGrid (holds_start begun.tiling begun.start) hmerge
      refine ⟨board, begun.start, joins.run, joins.holds, ?_⟩
      have hbalance := joins.balance
      rw [hids] at hbalance
      change board.ids.next + 1 = Block.largestRoot initial + 1 + initial.length at hbalance
      omega

lemma begin_opened (begun : Begun target initial first)
    (tolerant : initial.length = 1 ∨ settings.layoutPlan ≠ .merge) (clock : Clock) :
    ∃ shuffled start, begin target initial settings clock = .ok (shuffled, start) ∧
      (∀ c ∈ shuffled, Plays first c.instructions) ∧
      ∀ base ∈ start, ∃ board, Opened target initial base first board := by
  unfold begin
  split
  · rename_i only
    refine ⟨[], _, rfl, by simp, ?_⟩
    intro base hbase
    obtain rfl := Option.some.inj hbase
    exact ⟨first, opened_only begun⟩
  · rename_i several
    have htolerant : settings.layoutPlan ≠ .merge := by
      rcases tolerant with hone | htolerant
      · obtain ⟨only, rfl⟩ := List.length_eq_one_iff.mp hone
        exact absurd rfl (several only)
      · exact htolerant
    obtain ⟨shuffled, hshuffled, hplays⟩ : ∃ shuffled,
        (if settings.layoutPlan.shuffles then
          ((shuffleCandidate target initial settings clock).map fun c => [c]) = .ok shuffled
          else Except.ok [] = (.ok shuffled : Except SolveError (List Candidate))) ∧
        ∀ c ∈ shuffled, Plays first c.instructions := by
      split
      · obtain ⟨c, hc, hplays⟩ := shuffleCandidate_plays begun settings clock
        exact ⟨[c], by rw [hc]; rfl, by simpa using hplays⟩
      · exact ⟨[], rfl, by simp⟩
    obtain ⟨start, hstart, hopened⟩ : ∃ start,
        (if settings.layoutPlan.merges then
          mergedBase target initial settings.layoutPlan = .ok start
          else Except.ok none = (.ok start : Except SolveError (Option Base))) ∧
        ∀ base ∈ start, ∃ board, Opened target initial base first board := by
      split
      · exact mergedBase_opened begun htolerant ‹_›
      · exact ⟨none, rfl, by simp⟩
    refine ⟨shuffled, start, ?_, hplays, hopened⟩
    exact join_eq_ok.mpr ⟨shuffled, hshuffled, join_eq_ok.mpr ⟨start, hstart, rfl⟩⟩

lemma ends_candidates (sides : target.width ≤ 2 ^ 31 ∧ target.height ≤ 2 ^ 31)
    (sensible : Sensible settings) (begun : Begun target initial first)
    (tolerant : initial.length = 1 ∨ settings.layoutPlan ≠ .merge) (clock : Clock) :
    Ends (settings.strategy.runs .pixelGrid ∧ Scarce target initial)
      (fun others => ∀ c ∈ others.1, Plays first c.instructions)
      (candidates target initial settings clock) := by
  obtain ⟨shuffled, start, hbegin, hplays, hopened⟩ := begin_opened begun tolerant clock
  simp only [candidates, hbegin]
  cases start with
  | none => exact ends_ok rfl hplays
  | some base =>
    obtain ⟨board, opened⟩ := hopened base rfl
    refine (ends_paintBase sides sensible opened clock).bind ?_
    rintro ⟨painted, counters⟩ hpainted
    exact ends_ok rfl (List.forall_mem_append.mpr ⟨hplays, hpainted⟩)

lemma exists_scored (begun : Begun target initial first) {c : Candidate}
    (plays : Plays first c.instructions) :
    ∃ s, scoreCandidate target initial c = .ok s ∧ s.candidate = c := by
  obtain ⟨last, hlast⟩ := plays
  have hreplay := replay_eq_ok.mpr ⟨first, last, begun.start, hlast, rfl⟩
  exact ⟨⟨c, (last.finish target).cost, (last.finish target).similarity⟩,
    scoreCandidate_eq_ok.mpr ⟨rfl, _, hreplay, rfl, rfl⟩, rfl⟩

lemma exists_refined (begun : Begun target initial first) {winner : Scored}
    (plays : Plays first winner.candidate.instructions) (settings : Settings) (clock : Clock) :
    ∃ refined, refineWinner target initial settings clock winner = .ok refined := by
  obtain ⟨last, hlast⟩ := plays
  have hreplay := replay_eq_ok.mpr ⟨first, last, begun.start, hlast, rfl⟩
  obtain ⟨kept, final, counters, hvisit, _⟩ :=
    @Refinement.visit_of_replays target first winner.candidate.instructions settings.refineRadius _
      ⟨0, 0, 0⟩ (Refinement.scoreFrom_eq_ok.mpr ⟨last, hlast, rfl⟩)
  have hrefine : refine target initial winner.candidate.instructions settings.refineRadius =
      .ok ⟨kept, final.finish target, counters⟩ :=
    bind_eq_ok.mpr ⟨_, hreplay, bind_eq_ok.mpr ⟨first, begun.start,
      bind_eq_ok.mpr ⟨_, hvisit, rfl⟩⟩⟩
  simp only [refineWinner]
  split
  · exact ⟨none, rfl⟩
  · rw [hrefine]
    exact ⟨_, rfl⟩

lemma plays_best {idle : Scored} {others : List Candidate} {scored : List Scored}
    (hidle : idle.candidate = noop)
    (hscored : List.Forall₂ (fun c s => scoreCandidate target initial c = .ok s) others scored)
    (plays : ∀ c ∈ others, Plays first c.instructions) :
    Plays first (scored.foldl Scored.better idle).candidate.instructions := by
  rcases List.mem_cons.mp (earliest_foldl_better idle scored).mem with heq | hmem
  · rw [heq, hidle]
    exact ⟨first, rfl⟩
  · refine plays _ ?_
    rw [← (replays_of_scored hscored).1]
    exact List.mem_map_of_mem hmem

end Solve

open Solve Success

section

variable {target : Raster} {layout : Layout} {settings : Settings} {initial : List Block}

/-- Whatever the clock, a solve that fails has run out of numbers on a grid walk. -/
theorem ends_solveWithReport (sides : target.width ≤ 2 ^ 31 ∧ target.height ≤ 2 ^ 31)
    (valid : settings.validate = .ok ()) (accepted : layout.validate target = .ok initial)
    (tolerant : initial.length = 1 ∨ settings.layoutPlan ≠ .merge) (clock : Clock) :
    Ends (settings.strategy.runs .pixelGrid ∧ Scarce target initial) (fun _ => True)
      (solveWithReport target layout settings clock) := by
  obtain ⟨first, begun⟩ := exists_begun accepted
  have hsettings : checkSettings settings = .ok () := by
    simp only [checkSettings, valid]
  unfold solveWithReport
  refine Ends.bind (P := fun _ => True) (ends_ok hsettings trivial) fun _ _ => ?_
  refine Ends.bind (P := (· = initial)) (ends_ok (initialBlocks_eq_ok.mpr accepted) rfl) ?_
  rintro initial rfl
  refine (ends_candidates sides (sensible_of_validate valid) begun tolerant clock).bind ?_
  rintro ⟨others, subdivision⟩ hothers
  obtain ⟨idle, hidle, hnoop⟩ := exists_scored begun (c := noop) ⟨first, rfl⟩
  obtain ⟨scored, hscored⟩ := exists_forall₂ fun c hc =>
    (exists_scored begun (hothers c hc)).imp fun s hs => hs.1
  refine Ends.bind (P := (· = idle)) (ends_ok hidle rfl) ?_
  rintro idle rfl
  refine Ends.bind (P := (· = scored)) (ends_ok (mapM_eq_ok.mpr hscored) rfl) ?_
  rintro scored rfl
  obtain ⟨refined, hrefined⟩ :=
    exists_refined begun (plays_best hnoop hscored hothers) settings clock
  exact Ends.bind (P := fun _ => True) (ends_ok hrefined trivial) fun _ _ => ends_ok rfl trivial

/-- With valid settings a solve from an accepted layout, on a raster with sides of at most `2 ^ 31`,
comes to a program; only a plan that does nothing but merge several blocks may be refused. The one
exception is a grid walk that finds no number for a merge. It needs a number so large in the layout
that the initial blocks and the pixels do not fit between it and the last number. -/
theorem solve_ok_or_exhausted (sides : target.width ≤ 2 ^ 31 ∧ target.height ≤ 2 ^ 31)
    (valid : settings.validate = .ok ()) (accepted : layout.validate target = .ok initial)
    (tolerant : initial.length = 1 ∨ settings.layoutPlan ≠ .merge) :
    (∃ solution, solve target layout settings = .ok solution) ∨
      settings.strategy.runs .pixelGrid ∧
        maxRoot + 1 < Block.largestRoot initial + initial.length + target.width * target.height ∧
        solve target layout settings = .error (.geometry .idsExhausted) := by
  unfold solve
  rcases ends_solveWithReport sides valid accepted tolerant .stopped with
    ⟨⟨solution, report⟩, hfound, _⟩ | ⟨⟨hruns, hscarce⟩, hfailed⟩
  · exact Or.inl ⟨solution, map_eq_ok.mpr ⟨_, hfound, rfl⟩⟩
  · refine Or.inr ⟨hruns, hscarce, ?_⟩
    rw [hfailed]
    rfl

end

open Subdivision (halfBlack wholeBlock)

def twoHalves : Layout where
  width := 20
  height := 1
  blocks := [⟨.top 0, 0, 0, 10, 1, .white⟩, ⟨.top 1, 10, 0, 20, 1, .white⟩]

theorem solve_ok_of_twoHalves : ∃ solution, solve halfBlack twoHalves {} = .ok solution := by
  obtain ⟨initial, accepted, hlength, hlargest⟩ : ∃ initial,
      twoHalves.validate halfBlack = .ok initial ∧ initial.length = 2 ∧
        Block.largestRoot initial = 1 := ⟨_, rfl, rfl, rfl⟩
  rcases @solve_ok_or_exhausted halfBlack twoHalves {} initial (by decide) (by rfl) accepted
    (Or.inr (by decide)) with hok | ⟨_, hscarce, _⟩
  · exact hok
  · rw [hlength, hlargest] at hscarce
    exact absurd hscarce (by decide)

open GridWalk

def onlyWalks : Settings :=
  { strategy := .pixelGrid, gridCellSizes := [10], gridDirections := [.upLeft] }

def lastNumber : Layout where
  width := 20
  height := 1
  blocks := [⟨.top maxRoot, 0, 0, 20, 1, .white⟩]

def lastBlock : Block := ⟨.top maxRoot, wholeBlock.rect, some .white⟩

def stuckWalk : Walk :=
  Walk.start lastBlock ((Raster.filled 20 1 .white).fill lastBlock.rect .white) (.after maxRoot)

/-- The white half stays, and painting beyond the middle needs a merge. -/
lemma passes_of_stuckWalk : ∃ cache, runFrom .empty (passes halfBlack 0.5 .upLeft 10 20 stuckWalk
    (stuckWalk.milestone halfBlack)) = (.error .idsExhausted, cache) := by
  have heval : (match judgePass halfBlack 0.5 .upLeft 10 stuckWalk with
      | .error .idsExhausted => true
      | _ => false) = true := by
    decide +kernel
  have hpasses : judgePasses halfBlack 0.5 .upLeft 10 (19 + 1) stuckWalk
      (stuckWalk.milestone halfBlack) = .error .idsExhausted := by
    split at heval
    · rename_i hpass
      rw [judgePasses, hpass]
      rfl
    · cases heval
  rw [← hpasses]
  exact (yields_passes _ _ _).exists_cache

lemma sweep_of_stuckWalk : (runFrom ColorCache.empty (sweep halfBlack 0.5 lastBlock
    stuckWalk.painted (.after maxRoot) [10] [.upLeft])).1 = .error (.geometry .idsExhausted) := by
  obtain ⟨cache, hpasses⟩ := passes_of_stuckWalk
  have hrun := @run_eq halfBlack .upLeft 10 lastBlock stuckWalk.painted (.after maxRoot) 0.5 .empty
    (by decide) (by decide)
  change _ = Prod.map _ _ (runFrom ColorCache.empty (passes halfBlack 0.5 .upLeft 10 20 stuckWalk
    (stuckWalk.milestone halfBlack))) at hrun
  rw [hpasses] at hrun
  have hstep := runFrom_bind_of_error (f := fun walk => pure (some (cheaper none walk))) hrun
  exact congrArg Prod.fst (runFrom_bind_of_error hstep)

/-- The settings are valid and the layout of one block is accepted, yet there is no solution: the
walk finds no number for its first merge, although doing nothing would be a program. -/
theorem solve_exhausted_of_lastNumber :
    (halfBlack.width ≤ 2 ^ 31 ∧ halfBlack.height ≤ 2 ^ 31) ∧ onlyWalks.validate = .ok () ∧
      lastNumber.validate halfBlack = .ok [lastBlock] ∧
      solve halfBlack lastNumber onlyWalks = .error (.geometry .idsExhausted) := by
  have accepted : lastNumber.validate halfBlack = .ok [lastBlock] := by rfl
  refine ⟨by decide, by rfl, accepted, ?_⟩
  obtain ⟨first, hfirst⟩ := @Board.exists_start 20 1 [lastBlock] (List.pairwise_singleton _ _)
  have hpainted : first.painted = stuckWalk.painted ∧ first.ids = .after maxRoot :=
    ⟨Board.painted_start_single hfirst, (Board.counters_of_start hfirst).1⟩
  have hpaint : paintBase halfBlack [lastBlock] onlyWalks ⟨"", [], lastBlock⟩ .stopped =
      .error (.geometry .idsExhausted) := by
    have hblocks : ¬ onlyWalks.strategy.runs .blocks = true := by decide
    have hgrid : onlyWalks.strategy.runs .pixelGrid = true := by decide
    unfold paintBase
    refine bind_eq_error.mpr (Or.inr ⟨first, replayed_eq_ok.mpr hfirst, ?_⟩)
    refine bind_eq_error.mpr (Or.inr ⟨first, rfl, ?_⟩)
    rw [if_neg hblocks, pure_bind]
    simp only [hgrid, if_true, hpainted]
    exact bind_eq_error.mpr (Or.inl (bind_eq_error.mpr (Or.inl sweep_of_stuckWalk)))
  have hcandidates : candidates halfBlack [lastBlock] onlyWalks .stopped =
      .error (.geometry .idsExhausted) :=
    bind_eq_error.mpr (Or.inr ⟨([], some ⟨"", [], lastBlock⟩), rfl,
      bind_eq_error.mpr (Or.inl hpaint)⟩)
  have hsolve : solveWithReport halfBlack lastNumber onlyWalks .stopped =
      .error (.geometry .idsExhausted) :=
    bind_eq_error.mpr (Or.inr ⟨(), by rfl, bind_eq_error.mpr
      (Or.inr ⟨_, initialBlocks_eq_ok.mpr accepted, bind_eq_error.mpr (Or.inl hcandidates)⟩)⟩)
  rw [solve, hsolve]
  rfl

end BlockPainting
