import BlockPainting.Proofs.Board.Step
import BlockPainting.Proofs.Refinement.Nudges
import BlockPainting.Refinement

/-!
# Refinement is coordinate descent

A refinement carries one board along and applies to it what it keeps. This board is where a replay
of the kept program ends. At each instruction the scores of the variants are those of whole
programs: what was kept before, the variant, and the rest as given. The choice is the instruction
itself if no variant scores less, and otherwise the first variant of least score. A list of variants
is followed by `Chosen`, a program by `Refines`.
-/

namespace BlockPainting

open Success

lemma replay_eq_ok {target : Raster} {initial : List Block} {program : List Instruction}
    {outcome : Outcome} :
    replay target initial program = .ok outcome ↔
      ∃ first last, Board.start target.width target.height initial = .ok first ∧
        first.applyAll program = .ok last ∧ last.finish target = outcome := by
  simp only [replay, bind_eq_ok, pure_eq_ok]
  constructor
  · rintro ⟨first, hfirst, last, hlast, rfl⟩
    exact ⟨first, last, hfirst, hlast, rfl⟩
  · rintro ⟨first, last, hfirst, hlast, rfl⟩
    exact ⟨first, hfirst, last, hlast, rfl⟩

namespace Refinement

lemma applyAll_of_visit {target : Raster} {radius score : Nat} {board final : Board}
    {counters counters' : Counters} {program kept : List Instruction}
    (h : visit target radius board score counters program = .ok (kept, final, counters')) :
    board.applyAll kept = .ok final := by
  induction program generalizing board score counters kept with
  | nil =>
    cases h
    rfl
  | cons i rest ih =>
    simp only [visit, bind_eq_ok, pure_eq_ok, Prod.exists, Prod.mk.injEq] at h
    obtain ⟨mid, hmid, kept', final', _, hrest, rfl, rfl, rfl⟩ := h
    exact Board.applyAll_cons_eq_ok.mpr ⟨mid, hmid, ih hrest⟩

end Refinement

theorem replay_of_refine {target : Raster} {initial : List Block} {program : List Instruction}
    {radius : Nat} {refined : Refined} (h : refine target initial program radius = .ok refined) :
    replay target initial refined.instructions = .ok refined.outcome := by
  simp only [refine, bind_eq_ok, pure_eq_ok, Prod.exists] at h
  obtain ⟨_, _, first, hfirst, kept, final, counters, hvisit, rfl⟩ := h
  exact replay_eq_ok.mpr ⟨first, final, hfirst, Refinement.applyAll_of_visit hvisit, rfl⟩

namespace Refinement

/-- The choice for an instruction scores `least`: less than the instruction itself unless it is the
instruction, and no more than any variant that replays. Of variants that score the same it is the
first. -/
structure Best (radius : Nat) (score : Instruction → Except ReplayError Nat)
    (given choice : Instruction) (least : Nat) : Prop where
  moved : choice = given ∨ Nudged radius given choice
  reached : score choice = .ok least
  improves : ∃ s, score given = .ok s ∧ (least < s ∨ choice = given)
  minimal : ∀ v s, Nudged radius given v → score v = .ok s →
    least < s ∨ (least = s ∧ (choice = given ∨ choice = v ∨ Earlier choice v))

/-- The score of the board that a program leads to. -/
def scoreFrom (target : Raster) (board : Board) (program : List Instruction) :
    Except ReplayError Nat := do
  let board ← board.applyAll program
  return (board.finish target).score

/-- Every kept instruction is the best choice between those kept before it and those given after
it. -/
def Descends (radius : Nat) (score : List Instruction → Except ReplayError Nat)
    (given kept : List Instruction) : Prop :=
  kept.length = given.length ∧ ∀ n i k, given[n]? = some i → kept[n]? = some k →
    ∃ least, Best radius (fun v => score (kept.take n ++ v :: given.drop (n + 1))) i k least

/-- What the variants tried so far came to. -/
structure Chosen (score : Instruction → Except ReplayError Nat) (first : Choice)
    (seen : List Instruction) (c : Choice) : Prop where
  origin : c.instruction = first.instruction ∨ c.instruction ∈ seen
  reached : score c.instruction = .ok c.score
  improves : c.score < first.score ∨ c.instruction = first.instruction
  minimal : ∀ v ∈ seen, ∀ s, score v = .ok s →
    c.score < s ∨ (c.score = s ∧
      (c.instruction = first.instruction ∨ c.instruction = v ∨ Earlier c.instruction v))
  falls : c.score + c.counters.accepted ≤ first.score + first.counters.accepted
  counted : c.counters.accepted + c.counters.invalid + first.counters.tried ≤
    first.counters.accepted + first.counters.invalid + c.counters.tried
  grows : first.counters.accepted ≤ c.counters.accepted
  unchanged : c.counters.accepted = first.counters.accepted ↔ c.instruction = first.instruction

variable {target : Raster} {board final : Board} {rest program : List Instruction}
variable {score : Instruction → Except ReplayError Nat} {first c : Choice} {radius : Nat}
variable {seen : List Instruction} {v : Instruction}

lemma Chosen.nil (reached : score first.instruction = .ok first.score) :
    Chosen score first [] first := by
  refine ⟨Or.inl rfl, reached, Or.inr rfl, ?_, Nat.le_refl _, Nat.le_refl _, Nat.le_refl _, ?_⟩
  · intro v hv
    cases hv
  · exact iff_of_true rfl rfl

lemma Chosen.skip (chosen : Chosen score first seen c) {counters : Counters}
    (accepted : counters.accepted = c.counters.accepted)
    (counted : c.counters.invalid + counters.tried ≥ counters.invalid + c.counters.tried)
    (minimal : ∀ s, score v = .ok s → c.score < s ∨ (c.score = s ∧
      (c.instruction = first.instruction ∨ c.instruction = v ∨ Earlier c.instruction v))) :
    Chosen score first (seen ++ [v]) { c with counters } := by
  have hcounted := chosen.counted
  refine ⟨?_, chosen.reached, chosen.improves, ?_, ?_, ?_, ?_, ?_⟩
  · exact chosen.origin.imp_right (List.mem_append_left _)
  · intro w hw s hs
    rcases List.mem_append.mp hw with hseen | hv
    · exact chosen.minimal w hseen s hs
    · obtain rfl := List.mem_singleton.mp hv
      exact minimal s hs
  · simpa only [accepted] using chosen.falls
  · simp only [accepted]
    omega
  · simpa only [accepted] using chosen.grows
  · simpa only [accepted] using chosen.unchanged

lemma Chosen.keep (chosen : Chosen score first seen c) (different : v ≠ first.instruction) {s : Nat}
    (hs : score v = .ok s) (less : s < c.score) :
    Chosen score first (seen ++ [v]) ⟨v, s, { c.counters with
      tried := c.counters.tried + 1
      accepted := c.counters.accepted + 1 }⟩ := by
  have hfalls := chosen.falls
  have hcounted := chosen.counted
  have hgrows := chosen.grows
  refine ⟨Or.inr (by simp), hs, Or.inl ?_, ?_, ?_, ?_, ?_, ?_⟩
  · change s < first.score
    omega
  · intro w hw t ht
    rcases List.mem_append.mp hw with hseen | hv
    · left
      rcases chosen.minimal w hseen t ht with hlt | ⟨heq, _⟩
      · exact Nat.lt_trans less hlt
      · exact heq ▸ less
    · obtain rfl := List.mem_singleton.mp hv
      obtain rfl := Except.ok.inj (hs.symm.trans ht)
      exact Or.inr ⟨rfl, Or.inr (Or.inl rfl)⟩
  · change s + (c.counters.accepted + 1) ≤ _
    omega
  · change c.counters.accepted + 1 + c.counters.invalid + first.counters.tried ≤
      first.counters.accepted + first.counters.invalid + (c.counters.tried + 1)
    omega
  · exact Nat.le_succ_of_le hgrows
  · refine iff_of_false ?_ different
    change c.counters.accepted + 1 ≠ first.counters.accepted
    omega

lemma Chosen.tryVariant (chosen : Chosen (scoreWith target board · rest) first seen c)
    (later : ∀ w ∈ seen, Earlier w v) (different : v ≠ first.instruction) :
    Chosen (scoreWith target board · rest) first (seen ++ [v])
      (tryVariant target board rest c v) := by
  unfold Refinement.tryVariant
  cases hv : scoreWith target board v rest with
  | error e =>
    refine chosen.skip rfl (by simp only; omega) ?_
    intro s hs
    cases hv.symm.trans hs
  | ok s =>
    by_cases less : s < c.score
    · simpa only [less, if_true] using chosen.keep different hv less
    · simp only [less, if_false]
      refine chosen.skip rfl (by simp only; omega) ?_
      intro t ht
      obtain rfl := Except.ok.inj (hv.symm.trans ht)
      rcases Nat.lt_or_eq_of_le (Nat.le_of_not_lt less) with hlt | heq
      · exact Or.inl hlt
      · refine Or.inr ⟨heq, ?_⟩
        rcases chosen.origin with hfirst | hseen
        · exact Or.inl hfirst
        · exact Or.inr (Or.inr (later _ hseen))

lemma chosen_foldl (reached : scoreWith target board first.instruction rest = .ok first.score)
    {variants : List Instruction} (sorted : variants.Pairwise Earlier)
    (different : ∀ v ∈ variants, v ≠ first.instruction) :
    Chosen (scoreWith target board · rest) first variants
      (variants.foldl (Refinement.tryVariant target board rest) first) := by
  induction variants using List.reverseRecOn with
  | nil => exact Chosen.nil reached
  | append_singleton seen v ih =>
    rw [List.pairwise_append] at sorted
    rw [List.foldl_append]
    refine (ih sorted.1 ?_).tryVariant ?_ (different v (by simp))
    · intro w hw
      exact different w (List.mem_append_left _ hw)
    · intro w hw
      exact sorted.2.2 w hw v (by simp)

lemma Chosen.best (chosen : Chosen score first (nudges radius first.instruction) c)
    (reached : score first.instruction = .ok first.score) :
    Best radius score first.instruction c.instruction c.score := by
  refine ⟨?_, chosen.reached, ⟨first.score, reached, chosen.improves⟩, ?_⟩
  · exact chosen.origin.imp_right fun hmem => (mem_nudges.mp hmem).1
  · intro v s nudged hs
    by_cases same : v = first.instruction
    · obtain rfl := same
      obtain rfl := Except.ok.inj (reached.symm.trans hs)
      rcases chosen.improves with hlt | heq
      · exact Or.inl hlt
      · have hreached := chosen.reached
        rw [heq, reached] at hreached
        exact Or.inr ⟨(Except.ok.inj hreached).symm, Or.inl heq⟩
    · exact chosen.minimal v (mem_nudges.mpr ⟨nudged, same⟩) s hs

lemma scoreFrom_eq_ok {s : Nat} :
    scoreFrom target board program = .ok s ↔
      ∃ last, board.applyAll program = .ok last ∧ (last.finish target).score = s := by
  simp only [scoreFrom, bind_eq_ok, pure_eq_ok]

lemma scoreFrom_cons {mid : Board} {i : Instruction} (h : board.apply i = .ok mid) :
    scoreFrom target board (i :: program) = scoreFrom target mid program := by
  simp only [scoreFrom, Board.applyAll, List.foldlM_cons, h]
  rfl

lemma Descends.cons {mid : Board} {i k : Instruction} {kept : List Instruction} {least : Nat}
    (best : Best radius (scoreWith target board · rest) i k least) (h : board.apply k = .ok mid)
    (descends : Descends radius (scoreFrom target mid) rest kept) :
    Descends radius (scoreFrom target board) (i :: rest) (k :: kept) := by
  refine ⟨congrArg (· + 1) descends.1, ?_⟩
  intro n i' k' hi hk
  cases n with
  | zero =>
    cases hi
    cases hk
    exact ⟨least, best⟩
  | succ n =>
    simp only [List.take_succ_cons, List.drop_succ_cons, List.cons_append, scoreFrom_cons h]
    exact descends.2 n i' k' hi hk

/-- One more instruction kept instead of given does not raise the score. -/
lemma Descends.step {score : List Instruction → Except ReplayError Nat}
    {given kept : List Instruction} (descends : Descends radius score given kept) {n s : Nat}
    (hn : n < given.length) (hs : score (kept.take n ++ given.drop n) = .ok s) :
    ∃ t ≤ s, score (kept.take (n + 1) ++ given.drop (n + 1)) = .ok t := by
  have hk : n < kept.length := descends.1 ▸ hn
  obtain ⟨least, best⟩ := descends.2 n _ _ (List.getElem?_eq_getElem hn)
    (List.getElem?_eq_getElem hk)
  have hreached := best.reached
  obtain ⟨t, ht, hless⟩ := best.improves
  rw [← List.drop_eq_getElem_cons hn, hs] at ht
  obtain rfl := Except.ok.inj ht
  refine ⟨least, ?_, ?_⟩
  · rcases hless with hless | heq
    · exact Nat.le_of_lt hless
    · rw [heq, ← List.drop_eq_getElem_cons hn, hs] at hreached
      exact (Except.ok.inj hreached).ge
  · rw [List.take_succ_eq_append_getElem hk, List.append_assoc]
    exact hreached

lemma Descends.score_le {score : List Instruction → Except ReplayError Nat}
    {given kept : List Instruction} (descends : Descends radius score given kept) {n s : Nat}
    {i v : Instruction} (hi : given[n]? = some i) (nudged : Nudged radius i v)
    (hs : score (kept.take n ++ v :: given.drop (n + 1)) = .ok s) :
    ∃ t ≤ s, score kept = .ok t := by
  have hrest : ∀ m t, n + 1 + m ≤ given.length →
      score (kept.take (n + 1) ++ given.drop (n + 1)) = .ok t →
      ∃ u ≤ t, score (kept.take (n + 1 + m) ++ given.drop (n + 1 + m)) = .ok u := by
    intro m t hm ht
    induction m with
    | zero => exact ⟨t, Nat.le_refl t, ht⟩
    | succ m ih =>
      obtain ⟨u, hu, hscore⟩ := ih (by omega)
      obtain ⟨w, hw, hscore⟩ := descends.step (by omega) hscore
      exact ⟨w, hw.trans hu, hscore⟩
  obtain ⟨hn, rfl⟩ := List.getElem?_eq_some_iff.mp hi
  have hk : n < kept.length := descends.1 ▸ hn
  obtain ⟨least, best⟩ := descends.2 n _ _ hi (List.getElem?_eq_getElem hk)
  have hreached := best.reached
  rw [List.append_cons, ← List.take_succ_eq_append_getElem hk] at hreached
  obtain ⟨t, ht, hscore⟩ := hrest (given.length - (n + 1)) least (by omega) hreached
  have hend : n + 1 + (given.length - (n + 1)) = given.length := by omega
  rw [hend, List.drop_length, List.append_nil, ← descends.1, List.take_length] at hscore
  have hleast := best.minimal v s nudged hs
  exact ⟨t, by omega, hscore⟩

lemma visit_of_replays {s : Nat} {counters : Counters}
    (replays : scoreFrom target board program = .ok s) :
    ∃ kept final counters', visit target radius board s counters program =
        .ok (kept, final, counters') ∧
      Descends radius (scoreFrom target board) program kept ∧
      (final.finish target).score + counters'.accepted ≤ s + counters.accepted ∧
      counters'.accepted + counters'.invalid + counters.tried ≤
        counters.accepted + counters.invalid + counters'.tried ∧
      counters.accepted ≤ counters'.accepted ∧
      (counters'.accepted = counters.accepted ↔ kept = program) := by
  induction program generalizing board s counters with
  | nil =>
    obtain ⟨last, hlast, rfl⟩ := scoreFrom_eq_ok.mp replays
    cases hlast
    refine ⟨[], board, counters, rfl, ⟨rfl, ?_⟩, Nat.le_refl _, Nat.le_refl _, Nat.le_refl _, ?_⟩
    · intro n i k hi
      cases hi
    · exact iff_of_true rfl rfl
  | cons i rest ih =>
    -- The variants are compared before the rest is visited, and the rest runs on the chosen one.
    have chosen := @chosen_foldl target board rest ⟨i, s, counters⟩ replays _
      (nudges_pairwise radius i) fun v hv => (mem_nudges.mp hv).2
    have hbest := chosen.best replays
    obtain ⟨last, hlast, hscore⟩ := scoreFrom_eq_ok.mp chosen.reached
    obtain ⟨mid, hmid, hrest⟩ := Board.applyAll_cons_eq_ok.mp hlast
    obtain ⟨kept, final, counters', hvisit, hdescends, hfalls, hcounted, hgrows, hunchanged⟩ :=
      ih (scoreFrom_eq_ok.mpr ⟨last, hrest, hscore⟩)
    refine ⟨_, final, counters', ?_, hdescends.cons hbest hmid, ?_, ?_, ?_, ?_⟩
    · simp only [visit, bind_eq_ok, pure_eq_ok]
      exact ⟨mid, hmid, _, hvisit, rfl⟩
    · have hchosen := chosen.falls
      simp only at hchosen
      omega
    · have hchosen := chosen.counted
      simp only at hchosen
      omega
    · exact Nat.le_trans chosen.grows hgrows
    · have hchosen := chosen.unchanged
      have hle := chosen.grows
      simp only at hchosen hle
      rw [List.cons.injEq, ← hchosen, ← hunchanged]
      omega

end Refinement

/-- A refinement fails exactly as the given program does. Otherwise what it reports is the replay of
a program that descends from the given one, the score falls at least by the number of variants kept,
and the program stays as it is only if none was kept. -/
theorem refine_descends (target : Raster) (initial : List Block) (program : List Instruction)
    (radius : Nat) :
    match replay target initial program with
    | .error e => refine target initial program radius = .error e
    | .ok given => ∃ refined, refine target initial program radius = .ok refined ∧
        replay target initial refined.instructions = .ok refined.outcome ∧
        Refinement.Descends radius
          (fun program => (replay target initial program).map Outcome.score)
          program refined.instructions ∧
        refined.outcome.score + refined.counters.accepted ≤ given.score ∧
        refined.counters.accepted + refined.counters.invalid ≤ refined.counters.tried ∧
        (refined.counters.accepted = 0 ↔ refined.instructions = program) := by
  cases hgiven : replay target initial program with
  | error e =>
    simp only [refine, hgiven]
    rfl
  | ok given =>
    obtain ⟨first, last, hfirst, hlast, rfl⟩ := replay_eq_ok.mp hgiven
    -- All variants start from the one board that the layout gives.
    have hreplay : (fun program => (replay target initial program).map Outcome.score) =
        Refinement.scoreFrom target first := by
      funext program
      simp only [replay, hfirst, Refinement.scoreFrom, bind, Except.bind]
      cases first.applyAll program <;> rfl
    obtain ⟨kept, final, counters, hvisit, hdescends, hfalls, hcounted, _, hunchanged⟩ :=
      @Refinement.visit_of_replays target first program radius _ ⟨0, 0, 0⟩
        (Refinement.scoreFrom_eq_ok.mpr ⟨last, hlast, rfl⟩)
    have hrefine : refine target initial program radius =
        .ok ⟨kept, final.finish target, counters⟩ := by
      simp only [refine, bind_eq_ok, pure_eq_ok]
      exact ⟨_, hgiven, first, hfirst, _, hvisit, rfl⟩
    refine ⟨_, hrefine, replay_of_refine hrefine, ?_, ?_, ?_, hunchanged⟩
    · rw [hreplay]
      exact hdescends
    · simpa using hfalls
    · simpa using hcounted

end BlockPainting
