import BlockPainting.Proofs.Board.Start
import BlockPainting.Proofs.Number.Least
import BlockPainting.Proofs.Refinement.Descent
import BlockPainting.Proofs.Solve.Candidates

/-!
# The winner of a solve

Every program in the report was replayed from the initial blocks. The solution is the earliest of
least score among the programs that were not refined, unless its refinement scores strictly lower.
-/

namespace BlockPainting.Solve

open Success

/-- Replaying the program from these blocks comes to this cost and this similarity. -/
def Replays (target : Raster) (initial : List Block) (program : List Instruction) (cost : Nat)
    (similarity : Float) : Prop :=
  ∃ outcome, replay target initial program = .ok outcome ∧ outcome.cost = cost ∧
    outcome.similarity = similarity

def Earliest (best : Scored) (pool : List Scored) : Prop :=
  ∃ before after, pool = before ++ best :: after ∧ (∀ s ∈ before, best.score < s.score) ∧
    ∀ s ∈ after, best.score ≤ s.score

variable {target : Raster} {initial : List Block} {settings : Settings} {clock : Clock}
variable {best : Scored} {pool : List Scored}

lemma earliest_iff : Earliest best pool ↔ FirstLeast Scored.score best pool :=
  Iff.rfl

lemma Earliest.mem (h : Earliest best pool) : best ∈ pool :=
  (earliest_iff.mp h).mem

lemma Earliest.score_le (h : Earliest best pool) {s : Scored} (hs : s ∈ pool) :
    best.score ≤ s.score :=
  (earliest_iff.mp h).le hs

lemma earliest_foldl_better (first : Scored) (rest : List Scored) :
    Earliest (rest.foldl Scored.better first) (first :: rest) :=
  earliest_iff.mpr (firstLeast_foldl first rest)

lemma initialBlocks_eq_ok {layout : Layout} :
    initialBlocks target layout = .ok initial ↔ layout.validate target = .ok initial := by
  simp only [initialBlocks]
  split <;> simp [*]

lemma scoreCandidate_eq_ok {c : Candidate} {s : Scored} :
    scoreCandidate target initial c = .ok s ↔
      s.candidate = c ∧ Replays target initial c.instructions s.cost s.similarity := by
  simp only [scoreCandidate, bind_eq_ok, pure_eq_ok, replayed_eq_ok]
  constructor
  · rintro ⟨outcome, houtcome, rfl⟩
    exact ⟨rfl, outcome, houtcome, rfl, rfl⟩
  · rintro ⟨rfl, outcome, houtcome, hcost, hsimilarity⟩
    refine ⟨outcome, houtcome, ?_⟩
    rw [hcost, hsimilarity]

lemma find?_entry {scored : List Scored} (nodup : (scored.map fun s => s.candidate.name).Nodup)
    {s : Scored} (hs : s ∈ scored) :
    (scored.map Scored.entry).find? (fun e => e.name = s.candidate.name) = some s.entry := by
  induction scored with
  | nil => cases hs
  | cons t rest ih =>
    rw [List.map_cons, List.nodup_cons] at nodup
    rw [List.map_cons, List.find?_cons]
    rcases List.mem_cons.mp hs with rfl | hs
    · simp [Scored.entry]
    · have hne : t.candidate.name ≠ s.candidate.name := by
        intro heq
        exact nodup.1 (heq ▸ List.mem_map_of_mem hs)
      simpa [Scored.entry, hne] using ih nodup.2 hs

lemma refineWinner_eq_ok {refined : Option (Scored × Refinement.Counters)}
    (h : refineWinner target initial settings clock best = .ok refined) :
    ∀ r ∈ refined, r.1.candidate.name = best.candidate.name ++ refinedMark ∧
      ∃ result, refine target initial best.candidate.instructions settings.refineRadius =
        .ok result ∧ r = (⟨⟨r.1.candidate.name, result.instructions, clock .refinement⟩,
          result.outcome.cost, result.outcome.similarity⟩, result.counters) := by
  rintro r hr
  obtain rfl := Option.mem_def.mp hr
  simp only [refineWinner] at h
  split at h
  · cases h
  · simp only [bind_eq_ok, pure_eq_ok, replayed_eq_ok, Option.some.injEq] at h
    obtain ⟨result, hresult, rfl⟩ := h
    exact ⟨rfl, result, hresult, rfl⟩

lemma solveWithReport_eq_ok {layout : Layout} {solution : Solution} {report : SolveReport}
    (h : solveWithReport target layout settings clock = .ok (solution, report)) :
    ∃ initial others subdivision first scored refined,
      layout.validate target = .ok initial ∧
      candidates target initial settings clock = .ok (others, subdivision) ∧
      scoreCandidate target initial noop = .ok first ∧
      List.Forall₂ (fun c s => scoreCandidate target initial c = .ok s) others scored ∧
      refineWinner target initial settings clock (scored.foldl Scored.better first) =
        .ok refined ∧
      report.entries =
        (first :: scored ++ (refined.map Prod.fst).toList).map Scored.entry ∧
      report.winner = solution.strategy ∧
      solution = ((refined.map Prod.fst).elim (scored.foldl Scored.better first)
        (scored.foldl Scored.better first).better).solution := by
  simp only [solveWithReport, bind_eq_ok, pure_eq_ok, Prod.exists, Prod.mk.injEq,
    initialBlocks_eq_ok, mapM_eq_ok] at h
  obtain ⟨_, _, initial, hinitial, others, subdivision, hothers, first, hfirst, scored, hscored,
    refined, hrefined, rfl, rfl⟩ := h
  refine ⟨initial, others, subdivision, first, scored, refined, hinitial, hothers, hfirst,
    hscored, hrefined, rfl, rfl, ?_⟩
  cases refined <;> rfl

section

variable {others : List Candidate} {counters : Option Subdivision.Counters}
variable {refined : Option (Scored × Refinement.Counters)}

lemma nodup_names (hothers : candidates target initial settings clock = .ok (others, counters))
    (hpool : pool.map Scored.candidate = noop :: others)
    (hrefined : refineWinner target initial settings clock best = .ok refined) :
    ((pool ++ (refined.map Prod.fst).toList).map fun s => s.candidate.name).Nodup := by
  obtain ⟨label, cellSize, direction, hlabel, hnames⟩ := names_of_candidates hothers
  rw [← hpool, List.map_map] at hnames
  have hnodup := hnames.nodup (nodup_possibleNames hlabel cellSize direction)
  cases refined with
  | none => simpa [Function.comp_def] using hnodup
  | some r =>
    rw [List.map_append]
    refine List.nodup_append.mpr ⟨hnodup, List.nodup_singleton _, ?_⟩
    intro name hname marked hmarked
    obtain rfl := List.mem_singleton.mp hmarked
    change name ≠ r.1.candidate.name
    rw [(refineWinner_eq_ok hrefined r rfl).1]
    exact ne_append_refinedMark (hnames.subset hname) best.candidate.name

lemma replays_of_scored (hscored : List.Forall₂
    (fun c s => scoreCandidate target initial c = .ok s) others pool) :
    pool.map Scored.candidate = others ∧
      ∀ s ∈ pool, Replays target initial s.candidate.instructions s.cost s.similarity := by
  induction hscored with
  | nil => simp
  | @cons c s cs rest hs _ ih =>
    obtain ⟨rfl, hreplays⟩ := scoreCandidate_eq_ok.mp hs
    exact ⟨by rw [List.map_cons, ih.1], List.forall_mem_cons.mpr ⟨hreplays, ih.2⟩⟩

/-- The score that is reported for a refined program is its replay, too. -/
lemma replays_of_refineWinner
    (hrefined : refineWinner target initial settings clock best = .ok refined) :
    ∀ r ∈ refined.map Prod.fst,
      Replays target initial r.candidate.instructions r.cost r.similarity := by
  intro r hr
  obtain ⟨result, hresult, rfl⟩ := Option.mem_map.mp hr
  obtain ⟨_, kept, hkept, heq⟩ := refineWinner_eq_ok hrefined result hresult
  rw [heq]
  exact ⟨kept.outcome, replay_of_refine hkept, rfl, rfl⟩

end

lemma solution_of_refined (best : Scored) (refined : Option Scored) :
    ((refined.elim best best.better).solution = best.solution ∧
        ∀ r ∈ refined, best.score ≤ r.score) ∨
      ∃ r ∈ refined, r.score < best.score ∧
        (refined.elim best best.better).solution = r.solution := by
  cases refined with
  | none => exact Or.inl ⟨rfl, by simp⟩
  | some r =>
    by_cases hlt : r.score < best.score
    · exact Or.inr ⟨r, rfl, hlt, by simp [Scored.better, hlt]⟩
    · exact Or.inl ⟨by simp [Scored.better, hlt], by simpa using Nat.le_of_not_lt hlt⟩

/-- The solution is a program of the report that scores least. -/
lemma exists_least {solution : Solution} {refined : Option Scored} (hbest : Earliest best pool)
    (hchosen : (solution = best.solution ∧ ∀ r ∈ refined, best.score ≤ r.score) ∨
      ∃ r ∈ refined, r.score < best.score ∧ solution = r.solution) :
    ∃ s ∈ pool ++ refined.toList, solution = s.solution ∧
      ∀ t ∈ pool ++ refined.toList, s.score ≤ t.score := by
  rcases hchosen with ⟨rfl, hle⟩ | ⟨r, hr, hlt, rfl⟩
  · refine ⟨best, List.mem_append_left _ hbest.mem, rfl, ?_⟩
    intro t ht
    rcases List.mem_append.mp ht with ht | ht
    · exact hbest.score_le ht
    · exact hle t (Option.mem_toList.mp ht)
  · refine ⟨r, List.mem_append_right _ (Option.mem_toList.mpr hr), rfl, ?_⟩
    intro t ht
    rcases List.mem_append.mp ht with ht | ht
    · exact Nat.le_of_lt (Nat.lt_of_lt_of_le hlt (hbest.score_le ht))
    · rw [Option.mem_unique hr (Option.mem_toList.mp ht)]

end BlockPainting.Solve
