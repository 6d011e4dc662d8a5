import BlockPainting.Proofs.Solve.Contest

/-!
# All strategies against one

No strategy looks at which others were asked for, nor at the clock. So a solve with all strategies
scores every program that a solve with one strategy scores, but only the winner is refined. So all
strategies together are at least as good as one, unless this one wins by refining a program that
does not win when all compete. A small picture shows that this does happen.
-/

namespace BlockPainting

def ReportEntry.untimed (e : ReportEntry) : ReportEntry :=
  { e with duration := .zero }

namespace Solve

open Success

def Candidate.program (c : Candidate) : String × List Instruction :=
  (c.name, c.instructions)

variable {target painted : Raster} {initial : List Block} {settings : Settings} {ids : IdSupply}
variable {clock clock' : Clock} {base : Base} {kind kind' : Strategy}

lemma map_bind_congr {ε α β γ : Type} {x : Except ε α} {f f' : α → Except ε β} {g : β → γ}
    (h : ∀ a, (f a).map g = (f' a).map g) : (x >>= f).map g = (x >>= f').map g := by
  cases x with
  | error e => rfl
  | ok a => exact h a

lemma ofSettings_strategy (kind : Strategy) :
    Estimator.ofSettings target { settings with strategy := kind } =
      Estimator.ofSettings target settings :=
  rfl

lemma program_shuffleCandidate (kind : Strategy) (clock : Clock) :
    (shuffleCandidate target initial { settings with strategy := kind } clock).map
        Candidate.program =
      (shuffleCandidate target initial settings .stopped).map Candidate.program := by
  simp only [shuffleCandidate, ofSettings_strategy]
  cases Estimator.ofSettings target settings <;> rfl

lemma program_subdivide (kind : Strategy) (clock : Clock) :
    (subdivide target { settings with strategy := kind } base clock).map
        (fun r => r.1.program) =
      (subdivide target settings base .stopped).map fun r => r.1.program := by
  simp only [subdivide, ofSettings_strategy]
  cases Estimator.ofSettings target settings with
  | error e => rfl
  | ok estimator => cases base.block.paint <;> exact map_bind_congr fun _ => rfl

lemma programs_walkGrid (kind : Strategy) (clock : Clock) :
    (walkGrid target painted ids { settings with strategy := kind } base clock).map
        (List.map Candidate.program) =
      (walkGrid target painted ids settings base .stopped).map (List.map Candidate.program) := by
  refine map_bind_congr ?_
  rintro (_ | walk) <;> rfl

lemma program_stripe (kind : Strategy) (clock : Clock) :
    (stripe target painted { settings with strategy := kind } base clock).map Candidate.program =
      (stripe target painted settings base .stopped).map Candidate.program :=
  map_bind_congr fun _ => rfl

lemma eq_of_map_eq {ε α β : Type} {x y : Except ε α} {z : Except ε β} {g : α → β} {a a' : α}
    (h : x.map g = z) (h' : y.map g = z) (hx : x = .ok a) (hy : y = .ok a') : g a = g a' := by
  subst hx hy
  exact Except.ok.inj (h.trans h'.symm)

lemma exists_of_programs_eq {cs cs' : List Candidate}
    (h : cs.map Candidate.program = cs'.map Candidate.program) :
    ∀ c' ∈ cs', ∃ c ∈ cs, c.program = c'.program := by
  intro c' hc'
  have hmem := List.mem_map_of_mem (f := Candidate.program) hc'
  rw [← h] at hmem
  exact List.mem_map.mp hmem

lemma begin_alike {shuffled shuffled' : List Candidate} {start start' : Option Base}
    (h : begin target initial { settings with strategy := kind } clock = .ok (shuffled, start))
    (h' : begin target initial { settings with strategy := kind' } clock' =
      .ok (shuffled', start')) :
    shuffled.map Candidate.program = shuffled'.map Candidate.program ∧ start = start' := by
  unfold begin at h h'
  split at h
  · cases h
    cases h'
    exact ⟨rfl, rfl⟩
  · rename_i several
    split at h'
    · exact absurd rfl (several _)
    · simp only [join_eq_ok, pure_eq_ok, map_eq_ok, Prod.mk.injEq] at h h'
      obtain ⟨_, hshuffled, _, hstart, rfl, rfl⟩ := h
      obtain ⟨_, hshuffled', _, hstart', rfl, rfl⟩ := h'
      constructor
      · split at hshuffled
        · rename_i shuffles
          rw [if_pos shuffles] at hshuffled'
          obtain ⟨c, hc, rfl⟩ := hshuffled
          obtain ⟨c', hc', rfl⟩ := hshuffled'
          have hprogram := eq_of_map_eq (program_shuffleCandidate kind clock)
            (program_shuffleCandidate kind' clock') hc hc'
          rw [List.map_singleton, List.map_singleton, hprogram]
        · rename_i shuffles
          rw [if_neg shuffles] at hshuffled'
          cases hshuffled
          cases hshuffled'
          rfl
      · split at hstart
        · rename_i merges
          rw [if_pos merges] at hstart'
          exact Except.ok.inj (hstart.symm.trans hstart')
        · rename_i merges
          rw [if_neg merges] at hstart'
          exact Except.ok.inj (hstart.symm.trans hstart')

/-- All strategies together come to every program that one of them comes to. -/
lemma exists_of_paintBase {cs cs' : List Candidate}
    {counters counters' : Option Subdivision.Counters}
    (h : paintBase target initial { settings with strategy := .best } base clock =
      .ok (cs, counters))
    (h' : paintBase target initial { settings with strategy := kind } base clock' =
      .ok (cs', counters')) : ∀ c' ∈ cs', ∃ c ∈ cs, c.program = c'.program := by
  obtain ⟨first, board, subdivided, walked, striped, hfirst, hboard, hsub, hwalk, hstripe, rfl⟩ :=
    paintBase_eq_ok h
  obtain ⟨first', board', subdivided', walked', striped', hfirst', hboard', hsub', hwalk',
    hstripe', rfl⟩ := paintBase_eq_ok h'
  obtain rfl := Except.ok.inj (hfirst.symm.trans hfirst')
  obtain rfl := Except.ok.inj (hboard.symm.trans hboard')
  -- The best of all runs every strategy.
  obtain ⟨c₁, _, hc₁, rfl, _⟩ := hsub
  obtain ⟨c₃, hc₃, rfl⟩ := hstripe
  change walkGrid _ _ _ _ _ _ = _ at hwalk
  intro c' hc'
  simp only [List.mem_append] at hc' ⊢
  rcases hc' with (hc' | hc') | hc'
  · split at hsub'
    · obtain ⟨c, _, hc, rfl, _⟩ := hsub'
      obtain rfl := List.mem_singleton.mp hc'
      refine ⟨c₁, Or.inl (Or.inl (List.mem_singleton_self _)), ?_⟩
      exact eq_of_map_eq (g := fun r : Candidate × Subdivision.Counters => r.1.program)
        (program_subdivide .best clock) (program_subdivide kind clock') hc₁ hc
    · rw [hsub'.1] at hc'
      cases hc'
  · split at hwalk'
    · have hprograms := eq_of_map_eq (programs_walkGrid .best clock)
        (programs_walkGrid kind clock') hwalk hwalk'
      obtain ⟨c, hc, hprogram⟩ := exists_of_programs_eq hprograms c' hc'
      exact ⟨c, Or.inl (Or.inr hc), hprogram⟩
    · rw [hwalk'] at hc'
      cases hc'
  · split at hstripe'
    · obtain ⟨c, hc, rfl⟩ := hstripe'
      obtain rfl := List.mem_singleton.mp hc'
      refine ⟨c₃, Or.inr (List.mem_singleton_self _), ?_⟩
      exact eq_of_map_eq (program_stripe .best clock) (program_stripe kind clock') hc₃ hc
    · rw [hstripe'] at hc'
      cases hc'

lemma exists_candidate {others others' : List Candidate}
    {counters counters' : Option Subdivision.Counters}
    (h : candidates target initial { settings with strategy := .best } clock =
      .ok (others, counters))
    (h' : candidates target initial { settings with strategy := kind } clock' =
      .ok (others', counters')) : ∀ c' ∈ others', ∃ c ∈ others, c.program = c'.program := by
  simp only [candidates, bind_eq_ok, Prod.exists] at h h'
  obtain ⟨shuffled, start, hbegin, h⟩ := h
  obtain ⟨shuffled', start', hbegin', h'⟩ := h'
  obtain ⟨hshuffled, rfl⟩ := begin_alike hbegin hbegin'
  have hfirst := exists_of_programs_eq hshuffled
  cases start with
  | none =>
    cases h
    cases h'
    exact hfirst
  | some base =>
    simp only [bind_eq_ok, pure_eq_ok, Prod.exists, Prod.mk.injEq] at h h'
    obtain ⟨cs, _, hcs, rfl, _⟩ := h
    obtain ⟨cs', _, hcs', rfl, _⟩ := h'
    intro c' hc'
    simp only [List.mem_append] at hc' ⊢
    rcases hc' with hc' | hc'
    · obtain ⟨c, hc, hprogram⟩ := hfirst c' hc'
      exact ⟨c, Or.inl hc, hprogram⟩
    · obtain ⟨c, hc, hprogram⟩ := exists_of_paintBase hcs hcs' c' hc'
      exact ⟨c, Or.inr hc, hprogram⟩

lemma untimed_eq {s s' : Scored} (program : s.candidate.program = s'.candidate.program)
    (replays : Replays target initial s.candidate.instructions s.cost s.similarity)
    (replays' : Replays target initial s'.candidate.instructions s'.cost s'.similarity) :
    s.entry.untimed = s'.entry.untimed := by
  obtain ⟨hname, hinstructions⟩ := Prod.mk.inj program
  rw [← hinstructions] at replays'
  obtain ⟨hcost, hsimilarity⟩ := replays.unique replays'
  simp only [ReportEntry.untimed, Scored.entry, Scored.score, hname, hinstructions, hcost,
    hsimilarity]

namespace Finished

variable {pool pool' : List Scored} {best best' : Scored}
variable {refined refined' : Option (Scored × Refinement.Counters)} {solution solution' : Solution}
variable {entries entries' : List ReportEntry}

lemma eq_of_name
    (f : Finished target initial settings clock pool best refined solution entries) {s t : Scored}
    (hs : s ∈ pool ++ (refined.map Prod.fst).toList)
    (ht : t ∈ pool ++ (refined.map Prod.fst).toList) (h : s.candidate.name = t.candidate.name) :
    s = t :=
  List.inj_on_of_nodup_map f.nodup hs ht h

lemma unmarked_of_radius
    (f : Finished target initial settings clock pool best refined solution entries)
    (still : settings.refineRadius = 0) (name : String) :
    solution.strategy ≠ name ++ refinedMark := by
  have hrefined := f.refined_eq
  simp only [refineWinner, still, true_or, if_true] at hrefined
  obtain rfl := Except.ok.inj hrefined
  rw [f.solution_eq]
  exact f.unmarked f.earliest.mem name

section

variable (f : Finished target initial { settings with strategy := .best } clock pool best refined
  solution entries)
variable (f' : Finished target initial { settings with strategy := kind } clock' pool' best'
  refined' solution' entries')

include f f'

lemma exists_rival {s' : Scored} (hs' : s' ∈ pool') :
    ∃ s ∈ pool, s.candidate.program = s'.candidate.program := by
  obtain ⟨others, _, hothers, hpool⟩ := f.pool_eq
  obtain ⟨others', _, hothers', hpool'⟩ := f'.pool_eq
  have hmem : s'.candidate ∈ noop :: others' := hpool' ▸ List.mem_map_of_mem hs'
  obtain ⟨c, hc, hprogram⟩ : ∃ c ∈ noop :: others, c.program = s'.candidate.program := by
    rcases List.mem_cons.mp hmem with heq | hmem
    · exact ⟨noop, List.mem_cons_self, by rw [heq]⟩
    · obtain ⟨c, hc, hprogram⟩ := exists_candidate hothers hothers' _ hmem
      exact ⟨c, List.mem_cons_of_mem _ hc, hprogram⟩
  rw [← hpool] at hc
  obtain ⟨s, hs, rfl⟩ := List.mem_map.mp hc
  exact ⟨s, hs, hprogram⟩

lemma refined_alike {r r' : Scored} (hr : r ∈ refined.map Prod.fst)
    (hr' : r' ∈ refined'.map Prod.fst) (h : r.candidate.name = r'.candidate.name) :
    r.entry.untimed = r'.entry.untimed := by
  obtain ⟨result, hresult, rfl⟩ := Option.mem_map.mp hr
  obtain ⟨result', hresult', rfl⟩ := Option.mem_map.mp hr'
  obtain ⟨hname, kept, hkept, heq⟩ := refineWinner_eq_ok f.refined_eq result hresult
  obtain ⟨hname', kept', hkept', heq'⟩ := refineWinner_eq_ok f'.refined_eq result' hresult'
  have hbest : best.candidate.name = best'.candidate.name := by
    rw [hname, hname'] at h
    exact (String.append_left_inj refinedMark).mp h
  obtain ⟨s, hs, hprogram⟩ := f.exists_rival f' f'.earliest.mem
  obtain ⟨hsname, hinstructions⟩ := Prod.mk.inj hprogram
  obtain rfl : s = best := f.eq_of_name (List.mem_append_left _ hs)
    (List.mem_append_left _ f.earliest.mem) (hsname.trans hbest.symm)
  rw [hinstructions] at hkept
  obtain rfl := Except.ok.inj (hkept.symm.trans hkept')
  rw [heq, heq']
  simp only [ReportEntry.untimed, Scored.entry, Scored.score, h]

lemma exists_entry {e' : ReportEntry} (he' : e' ∈ entries')
    (unmarked : ∀ name, e'.name ≠ name ++ refinedMark) :
    ∃ e ∈ entries, e.untimed = e'.untimed := by
  rw [f'.entries_eq] at he'
  obtain ⟨s', hs', rfl⟩ := List.mem_map.mp he'
  rcases List.mem_append.mp hs' with hpool' | hrefined'
  · obtain ⟨s, hs, hprogram⟩ := f.exists_rival f' hpool'
    refine ⟨s.entry, ?_, untimed_eq hprogram (f.replays s hs) (f'.replays s' hpool')⟩
    rw [f.entries_eq]
    exact List.mem_map_of_mem (List.mem_append_left _ hs)
  · obtain ⟨result', hresult', rfl⟩ := Option.mem_map.mp (Option.mem_toList.mp hrefined')
    exact absurd (refineWinner_eq_ok f'.refined_eq result' hresult').1 (unmarked _)

lemma untimed_of_name {e e' : ReportEntry} (he : e ∈ entries) (he' : e' ∈ entries')
    (h : e.name = e'.name) : e.untimed = e'.untimed := by
  rw [f.entries_eq] at he
  rw [f'.entries_eq] at he'
  obtain ⟨t, ht, rfl⟩ := List.mem_map.mp he
  obtain ⟨s', hs', rfl⟩ := List.mem_map.mp he'
  change t.candidate.name = s'.candidate.name at h
  rcases List.mem_append.mp hs' with hpool' | hrefined'
  · obtain ⟨s, hs, hprogram⟩ := f.exists_rival f' hpool'
    obtain rfl : s = t := f.eq_of_name (List.mem_append_left _ hs) ht
      ((Prod.mk.inj hprogram).1.trans h.symm)
    exact untimed_eq hprogram (f.replays s hs) (f'.replays s' hpool')
  · rw [Option.mem_toList] at hrefined'
    rcases List.mem_append.mp ht with hpool | hrefined
    · obtain ⟨result', hresult', rfl⟩ := Option.mem_map.mp hrefined'
      have hmarked := (refineWinner_eq_ok f'.refined_eq result' hresult').1
      exact absurd (h.trans hmarked) (f.unmarked hpool _)
    · exact f.refined_alike f' (Option.mem_toList.mp hrefined) hrefined' h

end

end Finished

/-- A solve with all strategies scores every program that a solve with one strategy scores before
refinement, and the same if both refine one program. Its solution is at least as good as all of
these, hence at least as good as the solution of one strategy unless this is a refinement that only
the one strategy came to. With a refinement radius of zero it always is. -/
theorem best_le_single {layout : Layout} {best single : Solution} {report report' : SolveReport}
    (hbest : solveWithReport target layout { settings with strategy := .best } clock =
      .ok (best, report))
    (hsingle : solveWithReport target layout { settings with strategy := kind } clock' =
      .ok (single, report')) :
    (∀ e' ∈ report'.entries, (∀ name, e'.name ≠ name ++ refinedMark) →
      ∃ e ∈ report.entries, e.untimed = e'.untimed) ∧
    (∀ e ∈ report.entries, ∀ e' ∈ report'.entries, e.name = e'.name → e.untimed = e'.untimed) ∧
    (∀ e' ∈ report'.entries, ((∀ name, e'.name ≠ name ++ refinedMark) ∨
      ∃ e ∈ report.entries, e.name = e'.name) → best.score ≤ e'.score) ∧
    (((∀ name, single.strategy ≠ name ++ refinedMark) ∨
      ∃ e ∈ report.entries, e.name = single.strategy) → best.score ≤ single.score) ∧
    (settings.refineRadius = 0 → best.score ≤ single.score) := by
  obtain ⟨initial, pool, winner, refined, accepted, _, f⟩ := exists_finished hbest
  obtain ⟨initial', pool', winner', refined', accepted', _, f'⟩ := exists_finished hsingle
  obtain rfl := Except.ok.inj (accepted.symm.trans accepted')
  -- What one strategy reports, the contest of all reports too.
  have hentry : ∀ e' ∈ report'.entries, ((∀ name, e'.name ≠ name ++ refinedMark) ∨
      ∃ e ∈ report.entries, e.name = e'.name) → best.score ≤ e'.score := by
    intro e' he' hcompetes
    obtain ⟨e, he, huntimed⟩ : ∃ e ∈ report.entries, e.untimed = e'.untimed := by
      rcases hcompetes with unmarked | ⟨e, he, hname⟩
      · exact f.exists_entry f' he' unmarked
      · exact ⟨e, he, f.untimed_of_name f' he he' hname⟩
    have hscore := congrArg ReportEntry.score huntimed
    exact (f.least.2 e he).trans_eq hscore
  have hsolution : ((∀ name, single.strategy ≠ name ++ refinedMark) ∨
      ∃ e ∈ report.entries, e.name = single.strategy) → best.score ≤ single.score := by
    intro hcompetes
    obtain ⟨e', he', hname, hscore⟩ := f'.least.1
    rw [← hname] at hcompetes
    exact hscore ▸ hentry e' he' hcompetes
  refine ⟨fun e' he' => f.exists_entry f' he', fun e he e' he' => f.untimed_of_name f' he he',
    hentry, hsolution, ?_⟩
  intro still
  exact hsolution (Or.inl (f'.unmarked_of_radius still))

theorem best_le_single_of_clearBelow : ∃ best single report report',
    solveWithReport clearBelow (.single 1 13) { oneNudge with strategy := .best } .stopped =
      .ok (best, report) ∧
    solveWithReport clearBelow (.single 1 13) { oneNudge with strategy := .stripes } .stopped =
      .ok (single, report') ∧
    ∀ e' ∈ report'.entries, (∀ name, e'.name ≠ name ++ refinedMark) → best.score ≤ e'.score := by
  obtain ⟨best, report, hbest⟩ := exists_solved .best
  obtain ⟨single, report', hsingle⟩ := exists_solved .stripes
  obtain ⟨_, _, hentry, _⟩ := best_le_single hbest hsingle
  exact ⟨best, single, report, report', hbest, hsingle, fun e' he' h => hentry e' he' (Or.inl h)⟩

/-- Stripes alone may beat all strategies: their cut is refined only if they win. -/
theorem single_lt_best : ∃ best single,
    solve clearBelow (.single 1 13) { oneNudge with strategy := .best } = .ok best ∧
      solve clearBelow (.single 1 13) { oneNudge with strategy := .stripes } = .ok single ∧
        single.score < best.score := by
  obtain ⟨best, report, hbest⟩ := exists_solved .best
  obtain ⟨single, report', hsingle⟩ := exists_solved .stripes
  refine ⟨best, single, map_eq_ok.mpr ⟨_, hbest, rfl⟩, map_eq_ok.mpr ⟨_, hsingle, rfl⟩, ?_⟩
  obtain ⟨initial, pool, winner, refined, accepted, _, f⟩ := exists_finished hbest
  obtain ⟨initial', pool', winner', refined', accepted', _, f'⟩ := exists_finished hsingle
  cases clearBelow.accepted.symm.trans accepted
  cases clearBelow.accepted.symm.trans accepted'
  rw [clearBelow.score_of_best f]
  exact Nat.lt_succ_of_le (clearBelow.score_of_stripes f')

end Solve

end BlockPainting
