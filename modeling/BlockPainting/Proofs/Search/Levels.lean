import BlockPainting.Proofs.Number.Least
import BlockPainting.Proofs.Number.Sum
import BlockPainting.Proofs.Search.Execution
import BlockPainting.Proofs.Search.Places

/-!
# The levels of a search

A search asks for its parts, each of which is searched in turn or remembered. Written down level by
level, every answer is the first of the cheapest among the recipes that are compared for its block:
scores are sums of penalties and costs, so they are ordered like numbers of units. Leaving the block
is always the first of these recipes, hence whatever else is returned scores lower.
-/

namespace BlockPainting

def Recipe.Nonneg (r : Recipe) : Prop :=
  0.0 ≤ r.similarity

lemma Recipe.Nonneg.score {r : Recipe} (h : r.Nonneg) : 0.0 ≤ r.score :=
  nonneg_exactScore r.cost h

lemma Recipe.nonneg_begin (action : Action) (cost : Nat) : (Recipe.begin action cost).Nonneg :=
  nonneg_zero

lemma Recipe.Nonneg.append {r next : Recipe} (h : r.Nonneg) (hnext : next.Nonneg) :
    (r.append next).Nonneg :=
  nonneg_add h hnext

lemma Recipe.Nonneg.appendChildren {r : Recipe} {subs : List Recipe} (h : r.Nonneg)
    (hsubs : ∀ sub ∈ subs, sub.Nonneg) (index : Nat) : (r.appendChildren index subs).Nonneg := by
  induction subs generalizing r index with
  | nil => exact h
  | cons sub subs ih =>
    rw [List.forall_mem_cons] at hsubs
    have hchild : (r.appendChild index sub).Nonneg := nonneg_add h hsubs.1
    exact ih hchild hsubs.2 (index + 1)

namespace Subdivision

open Success

variable {target : Raster} {estimator : Estimator}
variable {best first : Recipe} {recipes others : List Recipe}

lemma closed_nonneg (target : Raster) : Closed target fun _ _ _ r => r.Nonneg where
  leave _ _ _ _ := target.nonneg_similarity _ _
  recolor _ _ _ := (Recipe.nonneg_begin _ _).append (target.nonneg_similarity _ _)
  recolorThen _ _ nested := (Recipe.nonneg_begin _ _).append nested
  cut _ _ _ _ _ planned := by
    refine (Recipe.nonneg_begin _ _).appendChildren (fun sub hsub => ?_) 0
    obtain ⟨part, _, hpart⟩ := exists_of_mem_right planned hsub
    exact hpart

/-- No other of the recipes scores lower, and those before score higher. -/
def FirstLeast (best : Recipe) (recipes : List Recipe) : Prop :=
  ∃ before after, recipes = before ++ best :: after ∧ (∀ r ∈ before, best.score < r.score) ∧
    ∀ r ∈ after, best.score ≤ r.score

lemma FirstLeast.eq_or_lt (h : FirstLeast best (first :: others)) :
    best = first ∨ best.score < first.score := by
  obtain ⟨before, after, heq, hbefore, _⟩ := h
  cases before with
  | nil => exact Or.inl (List.cons.inj heq).1.symm
  | cons r before => exact Or.inr ((List.cons.inj heq).1 ▸ hbefore r List.mem_cons_self)

lemma firstLeast_cheapest (nonneg : ∀ r ∈ first :: others, 0.0 ≤ r.score) :
    FirstLeast (cheapest first others) (first :: others) :=
  firstLeast_foldl_of_nonneg nonneg

/-- How the parts of a block are searched without a memory, if a subdivision is left. -/
def deeperAfresh (target : Raster) (estimator : Estimator) :
    Nat → Option (Rect → Color → Bool → SearchM Unit Recipe)
  | 0 => none
  | remaining + 1 => some (searchAfresh target estimator remaining)

/-- What a search of one block finds whose parts are searched without a memory. -/
def findAfresh (target : Raster) (estimator : Estimator) (key : Key) : SearchM Unit Finding :=
  searchBlock target ⟨estimatedColor target estimator, deeperAfresh target estimator key.remaining⟩
    key.rect key.current key.tryRecolor

lemma searchAfresh_eq (target : Raster) (estimator : Estimator) (key : Key) :
    searchAfresh target estimator key.remaining key.rect key.current key.tryRecolor =
      Finding.best <$> findAfresh target estimator key := by
  obtain ⟨rect, current, _ | remaining, tryRecolor⟩ := key <;> rfl

lemma candidates_nonneg {key : Key} {finding : Finding}
    (h : (findAfresh target estimator key).run () = .ok (finding, ())) :
    ∀ r ∈ finding.candidates, 0.0 ≤ r.score := by
  have hdeeper : ∀ deeper ∈ deeperAfresh target estimator key.remaining,
      ∃ n, key.remaining = n + 1 ∧ DeeperPlans (fun _ _ _ r => r.Nonneg) n deeper := by
    intro deeper hdeeper
    cases hremaining : key.remaining with
    | zero =>
      rw [hremaining] at hdeeper
      cases hdeeper
    | succ remaining =>
      rw [hremaining] at hdeeper
      obtain rfl := Option.some.inj hdeeper
      exact ⟨remaining, rfl, searchAfresh_yields (closed_nonneg target) estimator remaining⟩
  have hyields : Yields (fun finding => ∀ r ∈ finding.candidates, r.Nonneg)
      (findAfresh target estimator key) :=
    searchBlock_yields (closed_nonneg target) hdeeper key.current key.tryRecolor
  exact fun r hr => (hyields () finding () h r hr).score

lemma best_firstLeast {key : Key} {finding : Finding}
    (h : (findAfresh target estimator key).run () = .ok (finding, ())) :
    FirstLeast finding.best finding.candidates := by
  have hnonneg := candidates_nonneg h
  cases finding with
  | pruned leave => exact ⟨[], [], rfl, by simp, by simp⟩
  | compared leave others => exact firstLeast_cheapest hnonneg

/-- A block that a search was asked for, what it compared, unless it remembered the block, and what
it answered. -/
structure Level where
  key : Key
  found : Option Finding
  answer : Recipe

/-- A computation of a session beside the levels written down so far. -/
def beside {α : Type} (m : SearchM Session α) : SearchM (Session × List Level) α :=
  fun s => do
    let (a, session) ← m s.1
    return (a, session, s.2)

def note (level : Level) : SearchM (Session × List Level) Unit :=
  modify fun s => (s.1, s.2 ++ [level])

/-- Looks a block up, or searches it and remembers the outcome, and writes the level down. -/
def rememberNoted (key : Key) (search : SearchM (Session × List Level) Finding) :
    SearchM (Session × List Level) Recipe := do
  match (← get).1.memo[key]? with
  | some recipe =>
    beside (modify fun s => { s with memoHits := s.memoHits + 1 })
    note ⟨key, none, recipe⟩
    return recipe
  | none =>
    beside (modify fun s => { s with memoMisses := s.memoMisses + 1 })
    let finding ← search
    let answer ← beside (conclude key finding)
    note ⟨key, some finding, answer⟩
    return answer

/-- The search of a session that writes down every level of its recursion. -/
def searchNoted (target : Raster) (estimator : Estimator) :
    Nat → Rect → Color → Bool → SearchM (Session × List Level) Recipe
  | 0, rect, current, tryRecolor =>
    rememberNoted ⟨rect, current, 0, tryRecolor⟩ <|
      searchBlock target ⟨fun rect => beside (cachedColor target estimator rect), none⟩ rect current
        tryRecolor
  | remaining + 1, rect, current, tryRecolor =>
    rememberNoted ⟨rect, current, remaining + 1, tryRecolor⟩ <|
      searchBlock target
        ⟨fun rect => beside (cachedColor target estimator rect),
          some (searchNoted target estimator remaining)⟩
        rect current tryRecolor

/-- The answer is the first of the cheapest recipes that a search of the block compares, and where
the block was searched these are the recipes that were compared. -/
def Level.Settled (target : Raster) (estimator : Estimator) (level : Level) : Prop :=
  ∃ finding, (findAfresh target estimator level.key).run () = .ok (finding, ()) ∧
    (∀ found ∈ level.found, found = finding) ∧ FirstLeast level.answer finding.candidates

/-- Beside a sound session only settled levels are written down. -/
def Noted (target : Raster) (estimator : Estimator) (s : Session × List Level) (t : Session) :
    Prop :=
  s.1 = t ∧ t.Sound target estimator ∧ ∀ level ∈ s.2, level.Settled target estimator

lemma agrees_beside {α : Type} {m : SearchM Session α} {plain : SearchM Unit α}
    (h : Agrees (Recalls target estimator) m plain) :
    Agrees (Noted target estimator) (beside m) m := by
  rintro ⟨s, levels⟩ _ ⟨rfl, sound, settled⟩
  rcases h s () sound with ⟨e, hm, _⟩ | ⟨a, s', _, hm, _, sound'⟩
  · exact Or.inl ⟨e, bind_eq_error.mpr (Or.inl hm), hm⟩
  · exact Or.inr ⟨a, (s', levels), s', bind_eq_ok.mpr ⟨_, hm, rfl⟩, hm, rfl, sound', settled⟩

lemma exists_finding (key : Key) {recipe : Recipe}
    (h : (searchAfresh target estimator key.remaining key.rect key.current key.tryRecolor).run () =
      .ok (recipe, ())) :
    ∃ finding, (findAfresh target estimator key).run () = .ok (finding, ()) ∧
      finding.best = recipe := by
  rw [searchAfresh_eq, StateT.run_map] at h
  cases hfind : (findAfresh target estimator key).run () with
  | error e =>
    rw [hfind] at h
    cases h
  | ok found =>
    rw [hfind] at h
    cases h
    exact ⟨found.1, rfl, rfl⟩

lemma agrees_settle (key : Key) {finding : Finding}
    (hplain : (findAfresh target estimator key).run () = .ok (finding, ())) :
    Agrees (Noted target estimator)
      (beside (conclude key finding) >>= fun answer =>
        note ⟨key, some finding, answer⟩ >>= fun _ => pure answer)
      (conclude key finding) := by
  have hlevel : Level.Settled target estimator ⟨key, some finding, finding.best⟩ :=
    ⟨finding, hplain, fun found hfound => (Option.some.inj hfound).symm, best_firstLeast hplain⟩
  rintro ⟨s, levels⟩ _ ⟨rfl, sound, settled⟩
  rcases agrees_conclude key hplain (searchAfresh_eq target estimator key) s () sound with
    ⟨e, _, hpure⟩ | ⟨answer, s', _, hrun, hpure, sound'⟩
  · cases hpure
  · cases hpure
    have hbeside : (beside (conclude key finding)).run (s, levels) =
        .ok (finding.best, s', levels) := bind_eq_ok.mpr ⟨_, hrun, rfl⟩
    refine Or.inr ⟨finding.best, (s', levels ++ [⟨key, some finding, finding.best⟩]), s', ?_, hrun,
      rfl, sound', ?_⟩
    · rw [StateT.run_bind, hbeside]
      rfl
    · exact List.forall_mem_append.mpr ⟨settled, by simpa using hlevel⟩

/-- Whether the block is looked up or searched, writing the level down changes nothing else, and the
level is settled. -/
lemma agrees_rememberNoted (key : Key) {noted : SearchM (Session × List Level) Finding}
    {find : SearchM Session Finding} (h : Agrees (Noted target estimator) noted find)
    (hfind : Agrees (Recalls target estimator) find (findAfresh target estimator key)) :
    Agrees (Noted target estimator) (rememberNoted key noted) (remember key find) := by
  rintro ⟨s, levels⟩ _ ⟨rfl, sound, settled⟩
  cases hlook : s.memo[key]? with
  | some recipe =>
    obtain ⟨finding, hfinding, rfl⟩ := exists_finding key (sound.memo key recipe hlook)
    have hlevel : Level.Settled target estimator ⟨key, none, finding.best⟩ :=
      ⟨finding, hfinding, nofun, best_firstLeast hfinding⟩
    refine Or.inr ⟨finding.best, ({ s with memoHits := s.memoHits + 1 },
      levels ++ [⟨key, none, finding.best⟩]), { s with memoHits := s.memoHits + 1 }, ?_, ?_, rfl,
      ⟨sound.colors, sound.memo⟩, List.forall_mem_append.mpr ⟨settled, by simpa using hlevel⟩⟩
    · simp only [rememberNoted, StateT.run_bind, StateT.run_get, pure_bind, hlook]
      rfl
    · simp only [remember, StateT.run_bind, StateT.run_get, pure_bind, hlook]
      rfl
  | none =>
    have hnoted : (rememberNoted key noted).run (s, levels) =
        (noted >>= fun finding => beside (conclude key finding) >>= fun answer =>
          note ⟨key, some finding, answer⟩ >>= fun _ => pure answer).run
            ({ s with memoMisses := s.memoMisses + 1 }, levels) := by
      simp only [rememberNoted, StateT.run_bind, StateT.run_get, pure_bind, hlook]
      rfl
    have hmiss : (remember key find).run s =
        (find >>= conclude key).run { s with memoMisses := s.memoMisses + 1 } := by
      simp [remember, hlook]
    have sound' : Session.Sound target estimator { s with memoMisses := s.memoMisses + 1 } :=
      ⟨sound.colors, sound.memo⟩
    rw [hnoted, hmiss, StateT.run_bind, StateT.run_bind]
    -- On a miss the noted search runs in step with the plain one, and both remember alike.
    rcases h (_, levels) _ ⟨rfl, sound', settled⟩ with
      ⟨e, hrun, hrun'⟩ | ⟨finding, s', t', hrun, hrun', hnext⟩
    · rw [hrun, hrun']
      exact Or.inl ⟨e, rfl, rfl⟩
    · rw [hrun, hrun']
      rcases hfind _ () sound' with ⟨e, hrun'', _⟩ | ⟨found, _, _, hrun'', hplain, _⟩
      · cases hrun'.symm.trans hrun''
      · cases hrun'.symm.trans hrun''
        exact agrees_settle key hplain s' t' hnext

lemma agrees_searchNoted (remaining : Nat) (rect : Rect) (current : Color) (tryRecolor : Bool) :
    Agrees (Noted target estimator) (searchNoted target estimator remaining rect current tryRecolor)
      (search target estimator remaining rect current tryRecolor) := by
  have hcolor : ∀ rect, Agrees (Noted target estimator)
      (beside (cachedColor target estimator rect)) (cachedColor target estimator rect) :=
    fun rect => agrees_beside (agrees_cachedColor rect)
  induction remaining generalizing rect current tryRecolor with
  | zero =>
    exact agrees_rememberNoted ⟨rect, current, 0, tryRecolor⟩
      (agrees_searchBlock target ⟨hcolor, .none⟩ rect current tryRecolor)
      (agrees_searchBlock target ⟨agrees_cachedColor, .none⟩ rect current tryRecolor)
  | succ remaining ih =>
    exact agrees_rememberNoted ⟨rect, current, remaining + 1, tryRecolor⟩
      (agrees_searchBlock target ⟨hcolor, .some ih⟩ rect current tryRecolor)
      (agrees_searchBlock target ⟨agrees_cachedColor, .some (agrees_search remaining)⟩ rect current
        tryRecolor)

lemma mem_of_rememberNoted {key : Key} {find : SearchM (Session × List Level) Finding}
    {start next : Session × List Level} {answer : Recipe}
    (h : (rememberNoted key find).run start = .ok (answer, next)) :
    ∃ found, (⟨key, found, answer⟩ : Level) ∈ next.2 := by
  simp only [rememberNoted, StateT.run_bind, StateT.run_get, pure_bind] at h
  split at h
  · rename_i recipe _
    cases h
    exact ⟨none, List.mem_append_right _ (List.mem_singleton_self _)⟩
  · simp only [StateT.run_bind, bind_eq_ok] at h
    obtain ⟨_, _, ⟨finding, _⟩, _, ⟨_, _⟩, _, _, hnote, hpure⟩ := h
    cases hnote
    cases hpure
    exact ⟨some finding, List.mem_append_right _ (List.mem_singleton_self _)⟩

lemma searchBlock_head {σ : Type} (target : Raster) (s : Surroundings σ) (rect : Rect)
    (current : Color) (tryRecolor : Bool) :
    Yields (fun finding => ∃ others,
        finding.candidates = .leave (target.similarity rect current) :: others)
      (searchBlock target s rect current tryRecolor) := by
  intro start finding next h
  rcases searchBlock_finding target s rect current tryRecolor start finding next h with
    ⟨_, rfl⟩ | ⟨_, others, rfl⟩
  · exact ⟨[], rfl⟩
  · exact ⟨others, rfl⟩

lemma lt_of_lt_leave {r : Recipe} {similarity : Float} (hr : r.Nonneg)
    (hsimilarity : 0.0 ≤ similarity) (h : r.score < (Recipe.leave similarity).score) :
    r.score < similarity := by
  have hleave : 0.0 ≤ (Recipe.leave similarity).score := nonneg_exactScore 0 hsimilarity
  rw [lt_iff_units hr.score hleave] at h
  rw [lt_iff_units hr.score hsimilarity]
  exact h.trans_eq (units_zero_add hsimilarity)

lemma exists_levels {maxDepth depth : Nat} {history : List Query} {rect : Rect} {current : Color}
    {recipe : Recipe} {next : Session}
    (h : improve target estimator maxDepth rect current depth
      (.after target estimator maxDepth history) = .ok (recipe, next)) :
    ∃ levels,
      (searchNoted target estimator (maxDepth - depth) rect current true).run
        (.after target estimator maxDepth history, []) = .ok (recipe, next, levels) ∧
      (∃ found, (⟨⟨rect, current, maxDepth - depth, true⟩, found, recipe⟩ : Level) ∈ levels) ∧
      ∀ level ∈ levels, level.Settled target estimator := by
  have hsearch := (search_of_improve h).2
  rcases agrees_searchNoted (maxDepth - depth) rect current true
    (.after target estimator maxDepth history, []) _
    ⟨rfl, sound_after target estimator maxDepth history, by simp⟩ with
    ⟨e, _, hrun⟩ | ⟨answer, ⟨session, levels⟩, _, hnoted, hrun, rfl, _, settled⟩
  · rw [hsearch] at hrun
    cases hrun
  · rw [hsearch] at hrun
    cases hrun
    refine ⟨levels, hnoted, ?_, settled⟩
    cases hremaining : maxDepth - depth with
    | zero =>
      rw [hremaining] at hnoted
      exact mem_of_rememberNoted hnoted
    | succ remaining =>
      rw [hremaining] at hnoted
      exact mem_of_rememberNoted hnoted

/-- Whatever a session was asked before, its answer leaves the block as it is or scores lower than
what is wrong with the block, and at every level of the recursion the answer is the first of the
cheapest recipes that are compared. -/
theorem improve_first_least {maxDepth depth : Nat} {history : List Query} {rect : Rect}
    {current : Color} {recipe : Recipe} {next : Session}
    (h : improve target estimator maxDepth rect current depth
      (.after target estimator maxDepth history) = .ok (recipe, next)) :
    (recipe = .leave (target.similarity rect current) ∨
      recipe.score < target.similarity rect current) ∧
    ∃ levels,
      (searchNoted target estimator (maxDepth - depth) rect current true).run
        (.after target estimator maxDepth history, []) = .ok (recipe, next, levels) ∧
      (∃ found, (⟨⟨rect, current, maxDepth - depth, true⟩, found, recipe⟩ : Level) ∈ levels) ∧
      ∀ level ∈ levels, level.Settled target estimator := by
  constructor
  · have hafresh := afresh_of_improve h
    obtain ⟨finding, hfind, rfl⟩ :=
      exists_finding ⟨rect, current, maxDepth - depth, true⟩ hafresh
    have hbest := best_firstLeast hfind
    obtain ⟨others, hothers⟩ := searchBlock_head _ _ _ _ _ () finding () hfind
    rw [hothers] at hbest
    refine hbest.eq_or_lt.imp id fun hlt => ?_
    have hnonneg := searchAfresh_yields (closed_nonneg target) _ _ _ _ _ _ _ _ hafresh
    exact lt_of_lt_leave hnonneg (target.nonneg_similarity rect current) hlt
  · exact exists_levels h

theorem improve_first_least_of_halfBlack :
    ∃ recipe next, improve halfBlack (.exact 0.5) 1 wholeBlock.rect .white 0
        (.after halfBlack (.exact 0.5) 1 [.color wholeBlock.rect]) = .ok (recipe, next) ∧
      recipe.score < halfBlack.similarity wholeBlock.rect .white := by
  have sides : halfBlack.width ≤ maxCoordinate ∧ halfBlack.height ≤ maxCoordinate := by decide
  obtain ⟨recipe, next, h⟩ := improve_succeeds sides
    (show wholeBlock.rect.Within 20 1 by decide) (.exact 0.5) 1 .white 0
    (.after halfBlack (.exact 0.5) 1 [.color wholeBlock.rect])
  refine ⟨recipe, next, h, (improve_first_least h).1.resolve_left ?_⟩
  rintro rfl
  have hsteps : ((searchAfresh halfBlack (.exact 0.5) 1 wholeBlock.rect .white true).run
      ()).toOption.map (fun r => r.1.steps) =
        some [⟨[], .lineCut .x 10⟩, ⟨[0], .color ⟨0, 0, 0, 255⟩⟩] := by decide +kernel
  rw [afresh_of_improve h] at hsteps
  cases hsteps

end Subdivision

end BlockPainting
