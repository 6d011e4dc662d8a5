import BlockPainting.Proofs.Search.Execution
import BlockPainting.Proofs.Search.Places

/-!
# The journal of a session

A session is followed with a journal of the colors that are asked for and of the searches that are
begun, given up and finished. While a search runs, the searches inside it have fewer subdivisions
left, so what it remembers at its end is new. Hence no block is searched twice unless the search was
given up, and the counters of the session are lengths of parts of the journal.
-/

namespace BlockPainting

/-- The cache was asked for the colors of these rectangles, and only for these. -/
structure ColorCache.Counts (cache : ColorCache) (rects : List Rect) : Prop where
  mem_iff : ∀ rect, rect ∈ cache.colors ↔ rect ∈ rects
  computed_eq : cache.computed = rects.toFinset.card
  total : cache.hits + cache.computed = rects.length

namespace ColorCache

variable {cache : ColorCache} {rects : List Rect}

lemma counts_empty : empty.Counts [] :=
  ⟨fun rect => by simp [empty], rfl, rfl⟩

lemma Counts.color (counts : cache.Counts rects) (estimate : Rect → Color) (rect : Rect) :
    (cache.color estimate rect).2.Counts (rects ++ [rect]) := by
  have hcomputed : cache.colors.size = rects.toFinset.card := counts.computed_eq
  have htotal : cache.hits + cache.colors.size = rects.length := counts.total
  unfold ColorCache.color
  cases hlook : cache.colors[rect]? with
  | some c =>
    have hknown : rect ∈ rects := by
      rw [← counts.mem_iff, ← Std.HashMap.isSome_getElem?_iff_mem, hlook]
      rfl
    refine ⟨?_, ?_, ?_⟩
    · intro other
      rw [counts.mem_iff, List.mem_append, List.mem_singleton]
      exact ⟨Or.inl, fun h => h.elim id fun heq => heq ▸ hknown⟩
    · rw [List.toFinset_append, List.toFinset_cons, List.toFinset_nil, insert_empty_eq,
        Finset.union_eq_left.mpr (by simpa using hknown)]
      exact hcomputed
    · change cache.hits + 1 + cache.colors.size = _
      rw [List.length_append, List.length_singleton, ← htotal]
      omega
  | none =>
    have hnew : rect ∉ cache.colors := by
      rw [← Std.HashMap.isSome_getElem?_iff_mem, hlook]
      exact Bool.false_ne_true
    have hsize : (cache.colors.insert rect (estimate rect)).size = cache.colors.size + 1 := by
      rw [Std.HashMap.size_insert, if_neg hnew]
    refine ⟨?_, ?_, ?_⟩
    · intro other
      change other ∈ cache.colors.insert rect (estimate rect) ↔ _
      rw [Std.HashMap.mem_insert, counts.mem_iff, List.mem_append, List.mem_singleton, beq_iff_eq,
        or_comm, eq_comm]
    · change (cache.colors.insert rect (estimate rect)).size = _
      rw [counts.mem_iff, ← List.mem_toFinset] at hnew
      rw [hsize, hcomputed, List.toFinset_append, List.toFinset_cons, List.toFinset_nil,
        insert_empty_eq, Finset.union_comm, ← Finset.insert_eq, Finset.card_insert_of_notMem hnew]
    · change cache.hits + (cache.colors.insert rect (estimate rect)).size = _
      rw [hsize, List.length_append, List.length_singleton, ← htotal, Nat.add_assoc]

/-- However often a cache is asked, the questions that it has answered from memory and the
rectangles that it has estimated together are as many as the questions. -/
lemma counts_foldl (counts : cache.Counts rects) (estimate : Rect → Color) (questions : List Rect) :
    (questions.foldl (fun cache rect => (cache.color estimate rect).2) cache).Counts
      (rects ++ questions) := by
  induction questions generalizing cache rects with
  | nil => rwa [List.append_nil]
  | cons rect rest ih =>
    have hrest := ih (counts.color estimate rect)
    rwa [List.append_assoc] at hrest

end ColorCache

namespace Subdivision

open Success

variable {target : Raster} {estimator : Estimator}

/-- What is written into the journal of a session. -/
inductive Event where
  | asked (rect : Rect)
  | recalled (key : Key)
  | begun (key : Key)
  /-- The search ended without a look at other recipes. -/
  | pruned (key : Key)
  /-- The search ended, and its recipe is remembered from now on. -/
  | finished (key : Key)
  deriving DecidableEq

abbrev Journaled := Session × List Event

def Finding.ending (key : Key) : Finding → Event
  | .pruned _ => .pruned key
  | .compared _ _ => .finished key

def colorJournaled (target : Raster) (estimator : Estimator) (rect : Rect) :
    SearchM Journaled Color :=
  fun s => do
    let (c, session) ← cachedColor target estimator rect s.1
    return (c, session, s.2 ++ [.asked rect])

/-- Looks a block up, or searches it and remembers the outcome. -/
def rememberJournaled (key : Key) (search : SearchM Journaled Finding) :
    SearchM Journaled Recipe :=
  fun s =>
    match s.1.memo[key]? with
    | some recipe =>
      .ok (recipe, { s.1 with memoHits := s.1.memoHits + 1 }, s.2 ++ [.recalled key])
    | none => do
      let (finding, mid) ←
        search ({ s.1 with memoMisses := s.1.memoMisses + 1 }, s.2 ++ [.begun key])
      let (recipe, session) ← conclude key finding mid.1
      return (recipe, session, mid.2 ++ [finding.ending key])

def searchJournaled (target : Raster) (estimator : Estimator) :
    Nat → Rect → Color → Bool → SearchM Journaled Recipe
  | 0, rect, current, tryRecolor =>
    rememberJournaled ⟨rect, current, 0, tryRecolor⟩ <|
      searchBlock target ⟨colorJournaled target estimator, none⟩ rect current tryRecolor
  | remaining + 1, rect, current, tryRecolor =>
    rememberJournaled ⟨rect, current, remaining + 1, tryRecolor⟩ <|
      searchBlock target
        ⟨colorJournaled target estimator, some (searchJournaled target estimator remaining)⟩
        rect current tryRecolor

def Journaled.ask (target : Raster) (estimator : Estimator) (maxDepth : Nat) (s : Journaled) :
    Query → Journaled
  | .improve rect current depth =>
    match target.check rect with
    | .error _ => s
    | .ok () =>
      match (searchJournaled target estimator (maxDepth - depth) rect current true).run s with
      | .error _ => s
      | .ok (_, next) => next
  | .color rect =>
    ({ s.1 with colors := (s.1.colors.color (estimator.estimate target) rect).2 },
      s.2 ++ [.asked rect])

/-- The session that has answered these questions, with its journal. -/
def Journaled.after (target : Raster) (estimator : Estimator) (maxDepth : Nat)
    (history : List Query) : Journaled :=
  history.foldl (Journaled.ask target estimator maxDepth) (.empty, [])

def Beside (s : Journaled) (t : Session) : Prop :=
  s.1 = t

lemma agrees_colorJournaled (rect : Rect) :
    Agrees Beside (colorJournaled target estimator rect) (cachedColor target estimator rect) := by
  rintro ⟨s, journal⟩ _ rfl
  exact Or.inr ⟨_, _, _, rfl, rfl, rfl⟩

lemma agrees_rememberJournaled (key : Key) {journaled : SearchM Journaled Finding}
    {find : SearchM Session Finding} (h : Agrees Beside journaled find) :
    Agrees Beside (rememberJournaled key journaled) (remember key find) := by
  rintro ⟨s, journal⟩ _ rfl
  cases hlook : s.memo[key]? with
  | some recipe =>
    refine Or.inr ⟨recipe, ({ s with memoHits := s.memoHits + 1 }, journal ++ [.recalled key]),
      { s with memoHits := s.memoHits + 1 }, ?_, ?_, rfl⟩
    · simp only [StateT.run, rememberJournaled, hlook]
    · simp only [remember, StateT.run_bind, StateT.run_get, pure_bind, hlook]
      rfl
  | none =>
    have hmiss : (remember key find).run s =
        (find >>= conclude key).run { s with memoMisses := s.memoMisses + 1 } := by
      simp [remember, hlook]
    rw [hmiss, StateT.run_bind]
    simp only [StateT.run, rememberJournaled, hlook]
    rcases h ({ s with memoMisses := s.memoMisses + 1 }, journal ++ [.begun key]) _ rfl with
      ⟨e, hrun, hrun'⟩ | ⟨finding, mid, _, hrun, hrun', rfl⟩
    · exact Or.inl ⟨e, bind_eq_error.mpr (Or.inl hrun), bind_eq_error.mpr (Or.inl hrun')⟩
    · obtain ⟨recipe, next, hconclude⟩ : ∃ recipe next,
          (conclude key finding).run mid.1 = .ok (recipe, next) := by
        cases finding <;> exact ⟨_, _, rfl⟩
      refine Or.inr ⟨recipe, (next, mid.2 ++ [finding.ending key]), next, ?_, ?_, rfl⟩
      · exact bind_eq_ok.mpr ⟨_, hrun, bind_eq_ok.mpr ⟨_, hconclude, rfl⟩⟩
      · exact bind_eq_ok.mpr ⟨_, hrun', hconclude⟩

lemma agrees_searchJournaled (remaining : Nat) (rect : Rect) (current : Color) (tryRecolor : Bool) :
    Agrees Beside (searchJournaled target estimator remaining rect current tryRecolor)
      (search target estimator remaining rect current tryRecolor) := by
  induction remaining generalizing rect current tryRecolor with
  | zero =>
    exact agrees_rememberJournaled ⟨rect, current, 0, tryRecolor⟩
      (agrees_searchBlock target ⟨agrees_colorJournaled, .none⟩ rect current tryRecolor)
  | succ remaining ih =>
    exact agrees_rememberJournaled ⟨rect, current, remaining + 1, tryRecolor⟩
      (agrees_searchBlock target ⟨agrees_colorJournaled, .some ih⟩ rect current tryRecolor)

lemma ask_fst (maxDepth : Nat) (s : Journaled) (query : Query) :
    (s.ask target estimator maxDepth query).1 = s.1.ask target estimator maxDepth query := by
  cases query with
  | improve rect current depth =>
    simp only [Journaled.ask, Session.ask, improve]
    cases target.check rect with
    | error e => rfl
    | ok _ =>
      rcases @agrees_searchJournaled target estimator (maxDepth - depth) rect current true s s.1
        rfl with ⟨e, hrun, hrun'⟩ | ⟨recipe, next, _, hrun, hrun', rfl⟩
      · simp only [hrun, hrun']
      · simp only [hrun, hrun']
  | color rect => rfl

lemma after_fst (target : Raster) (estimator : Estimator) (maxDepth : Nat)
    (history : List Query) :
    (Journaled.after target estimator maxDepth history).1 =
      .after target estimator maxDepth history := by
  induction history using List.reverseRecOn with
  | nil => rfl
  | append_singleton history query ih =>
    simp only [Journaled.after, Session.after, List.foldl_append, List.foldl_cons, List.foldl_nil]
      at ih ⊢
    rw [ask_fst, ih]

/-- The parts of a journal: the rectangles whose colors were asked for, and the blocks whose recipes
were remembered and whose searches began, were given up and were finished. -/
structure Parts where
  asked : List Rect
  recalled : List Key
  begun : List Key
  pruned : List Key
  finished : List Key

def Parts.add (p : Parts) : Event → Parts
  | .asked rect => { p with asked := p.asked ++ [rect] }
  | .recalled key => { p with recalled := p.recalled ++ [key] }
  | .begun key => { p with begun := p.begun ++ [key] }
  | .pruned key => { p with pruned := p.pruned ++ [key] }
  | .finished key => { p with finished := p.finished ++ [key] }

def parts (journal : List Event) : Parts :=
  journal.foldl Parts.add ⟨[], [], [], [], []⟩

lemma parts_concat (journal : List Event) (event : Event) :
    parts (journal ++ [event]) = (parts journal).add event :=
  List.foldl_concat ..

def Key.Hopeless (target : Raster) (key : Key) : Prop :=
  Subdivision.Hopeless target key.rect key.current

/-- The journal keeps the books of a session in which the searches of some blocks still run. -/
structure Books (target : Raster) (running : List Key) (s : Session) (p : Parts) : Prop where
  memoHits_eq : s.memoHits = p.recalled.length
  memoMisses_eq : s.memoMisses = p.begun.length
  pruned_eq : s.pruned = p.pruned.length
  size_eq : s.memo.size = p.finished.length
  counts : s.colors.Counts p.asked
  /-- Every search that began runs, was given up or was finished. -/
  ended : p.begun.Perm (running ++ (p.pruned ++ p.finished))
  mem_memo : ∀ key, key ∈ s.memo ↔ key ∈ p.finished
  finished_once : p.finished.Nodup
  running_new : ∀ key ∈ running, key ∉ p.finished
  hopeless : ∀ key ∈ p.pruned, key.Hopeless target
  hopeful : ∀ key ∈ p.finished, ¬ key.Hopeless target

/-- Where a search begins, all earlier searches of the block were given up. -/
def Anew (journal : List Event) : Prop :=
  ∀ before key, before ++ [.begun key] <+: journal →
    (parts before).begun.count key = (parts before).pruned.count key

section Books

variable {running : List Key} {s : Session} {p : Parts} {key : Key} {journal : List Event}

lemma books_empty (target : Raster) : Books target [] .empty (parts []) where
  memoHits_eq := rfl
  memoMisses_eq := rfl
  pruned_eq := rfl
  size_eq := rfl
  counts := ColorCache.counts_empty
  ended := List.Perm.refl _
  mem_memo key := by simp [Session.empty, parts]
  finished_once := List.nodup_nil
  running_new _ _ := List.not_mem_nil
  hopeless _ h := absurd h List.not_mem_nil
  hopeful _ h := absurd h List.not_mem_nil

lemma Books.ask (books : Books target running s p) (estimate : Rect → Color) (rect : Rect) :
    Books target running { s with colors := (s.colors.color estimate rect).2 }
      (p.add (.asked rect)) :=
  { books with counts := books.counts.color estimate rect }

lemma Books.recall (books : Books target running s p) (key : Key) :
    Books target running { s with memoHits := s.memoHits + 1 } (p.add (.recalled key)) :=
  { books with memoHits_eq := by simp [Parts.add, books.memoHits_eq] }

lemma Books.begin (books : Books target running s p) (new : key ∉ s.memo) :
    Books target (key :: running) { s with memoMisses := s.memoMisses + 1 }
      (p.add (.begun key)) :=
  { books with
    memoMisses_eq := by simp [Parts.add, books.memoMisses_eq]
    ended := (List.perm_append_singleton key p.begun).trans (books.ended.cons key)
    running_new := by
      rw [books.mem_memo] at new
      exact List.forall_mem_cons.mpr ⟨new, books.running_new⟩ }

lemma Books.prune (books : Books target (key :: running) s p) (hopeless : key.Hopeless target) :
    Books target running { s with pruned := s.pruned + 1 } (p.add (.pruned key)) :=
  { books with
    pruned_eq := by simp [Parts.add, books.pruned_eq]
    ended := by
      refine books.ended.trans (List.perm_middle.symm.trans (List.Perm.append_left running ?_))
      exact (List.perm_append_singleton key p.pruned).symm.append_right p.finished
    running_new := (List.forall_mem_cons.mp books.running_new).2
    hopeless := List.forall_mem_append.mpr ⟨books.hopeless, by simpa using hopeless⟩ }

lemma Books.finish (books : Books target (key :: running) s p) (idle : key ∉ running)
    (hopeful : ¬ key.Hopeless target) (recipe : Recipe) (candidates : Nat) :
    Books target running
      { s with memo := s.memo.insert key recipe, candidates := candidates }
      (p.add (.finished key)) := by
  obtain ⟨hnew, hrest⟩ := List.forall_mem_cons.mp books.running_new
  -- The key was searched for the first time, so the memo grows by one.
  have hmemo : key ∉ s.memo := (books.mem_memo key).not.mpr hnew
  have hmem : ∀ other, other ∈ p.finished ++ [key] ↔ other ∈ p.finished ∨ other = key := by simp
  exact { books with
    size_eq := by
      simp [Parts.add, Std.HashMap.size_insert, if_neg hmemo, books.size_eq]
    ended := by
      refine books.ended.trans (List.perm_middle.symm.trans (List.Perm.append_left running ?_))
      refine List.perm_middle.symm.trans (List.Perm.append_left p.pruned ?_)
      exact (List.perm_append_singleton key p.finished).symm
    mem_memo := by
      intro other
      rw [Std.HashMap.mem_insert, books.mem_memo, beq_iff_eq, or_comm, eq_comm]
      exact (hmem other).symm
    finished_once := by
      rw [Parts.add, ← List.concat_eq_append]
      exact (List.nodup_concat _ _).mpr ⟨hnew, books.finished_once⟩
    running_new := by
      intro other hother hfinished
      rcases (hmem other).mp hfinished with hfinished | rfl
      · exact hrest other hother hfinished
      · exact idle hother
    hopeful := List.forall_mem_append.mpr ⟨books.hopeful, by simpa using hopeful⟩ }

lemma anew_nil : Anew [] :=
  fun before key h => by simp at h

lemma Anew.append {event : Event} (anew : Anew journal)
    (last : ∀ key, event = .begun key →
      (parts journal).begun.count key = (parts journal).pruned.count key) :
    Anew (journal ++ [event]) := by
  intro before key h
  rcases List.prefix_concat_iff.mp h with heq | h
  · obtain ⟨rfl, hevent⟩ := List.append_inj' heq rfl
    exact last key (List.singleton_inj.mp hevent).symm
  · exact anew before key h

lemma Books.count_begun (books : Books target running s p) (idle : key ∉ running)
    (new : key ∉ s.memo) : p.begun.count key = p.pruned.count key := by
  rw [books.mem_memo] at new
  rw [books.ended.count_eq, List.count_append, List.count_append, List.count_eq_zero.mpr idle,
    List.count_eq_zero.mpr new, Nat.zero_add, Nat.add_zero]

/-- Where nothing is searched at the moment, every search was given up or is remembered. -/
lemma Books.memoMisses_eq_add (books : Books target [] s p) :
    s.memoMisses = s.pruned + s.memo.size := by
  have hlength := books.ended.length_eq
  rw [List.nil_append, List.length_append] at hlength
  rw [books.memoMisses_eq, hlength, books.pruned_eq, books.size_eq]

lemma Books.count_begun_le_one (books : Books target [] s p) (hopeful : ¬ key.Hopeless target) :
    p.begun.count key ≤ 1 := by
  have hpruned : key ∉ p.pruned := fun h => hopeful (books.hopeless key h)
  rw [books.ended.count_eq, List.nil_append, List.count_append, List.count_eq_zero.mpr hpruned,
    Nat.zero_add]
  exact List.nodup_iff_count_le_one.mp books.finished_once key

/-- The books of a session with its journal, in which every search begins anew. -/
def Kept (target : Raster) (running : List Key) (s : Journaled) : Prop :=
  Books target running s.1 (parts s.2) ∧ Anew s.2

end Books

section Keep

variable {running : List Key} {whole : Rect}

lemma succeeds_colorJournaled (rect : Rect) :
    Succeeds (Kept target running) (colorJournaled target estimator rect) := by
  rintro ⟨s, journal⟩ ⟨books, anew⟩
  refine ⟨_, _, rfl, ?_, anew.append nofun⟩
  rw [parts_concat]
  exact books.ask (estimator.estimate target) rect

lemma yields_hopeless {σ : Type} (surroundings : Surroundings σ) (key : Key) :
    Yields (fun finding => (∃ leave, finding = .pruned leave) ↔ key.Hopeless target)
      (searchBlock target surroundings key.rect key.current key.tryRecolor) := by
  intro start finding next h
  rcases searchBlock_finding target surroundings key.rect key.current key.tryRecolor start finding
    next h with ⟨hopeless, rfl⟩ | ⟨hopeful, others, rfl⟩
  · exact ⟨fun _ => hopeless, fun _ => ⟨_, rfl⟩⟩
  · exact ⟨nofun, fun hopeless => absurd hopeless hopeful⟩

/-- While the searches of larger blocks run, a search keeps the books. -/
lemma succeeds_rememberJournaled {key : Key} {find : SearchM Journaled Finding}
    (idle : key ∉ running) (h : Succeeds (Kept target (key :: running)) find)
    (hopeless : Yields (fun finding => (∃ leave, finding = .pruned leave) ↔ key.Hopeless target)
      find) :
    Succeeds (Kept target running) (rememberJournaled key find) := by
  rintro ⟨s, journal⟩ ⟨books, anew⟩
  simp only [StateT.run, rememberJournaled]
  cases hlook : s.memo[key]? with
  | some recipe =>
    refine ⟨_, _, rfl, ?_, anew.append nofun⟩
    rw [parts_concat]
    exact books.recall key
  | none =>
    have new : key ∉ s.memo := by
      rw [← Std.HashMap.isSome_getElem?_iff_mem, hlook]
      exact Bool.false_ne_true
    obtain ⟨finding, ⟨next, journal'⟩, hrun, books', anew'⟩ :=
      h ({ s with memoMisses := s.memoMisses + 1 }, journal ++ [.begun key]) ⟨by
        rw [parts_concat]
        exact books.begin new, anew.append fun key' heq => by
        obtain rfl := Event.begun.inj heq
        exact books.count_begun idle new⟩
    have hends := hopeless _ _ _ hrun
    cases finding with
    | pruned leave =>
      refine ⟨leave, _, bind_eq_ok.mpr ⟨_, hrun, rfl⟩, ?_, anew'.append nofun⟩
      rw [Finding.ending, parts_concat]
      exact books'.prune (hends.mp ⟨leave, rfl⟩)
    | compared leave others =>
      refine ⟨cheapest leave others, _, bind_eq_ok.mpr ⟨_, hrun, rfl⟩, ?_, anew'.append nofun⟩
      rw [Finding.ending, parts_concat]
      exact books'.finish idle (fun h => nomatch hends.mpr h) _ _

lemma succeeds_searchJournaled (estimator : Estimator) (moderate : Moderate whole)
    (remaining : Nat) :
    ∀ running, (∀ key ∈ running, remaining < key.remaining) →
      DeeperSucceeds (Kept target running) whole
        (searchJournaled target estimator remaining) := by
  induction remaining with
  | zero =>
    intro running above rect current tryRecolor inside
    refine succeeds_rememberJournaled (fun hmem => absurd (above _ hmem) (Nat.lt_irrefl 0)) ?_
      (yields_hopeless _ ⟨rect, current, 0, tryRecolor⟩)
    exact succeeds_searchBlock moderate inside ⟨succeeds_colorJournaled, nofun⟩ _ _
  | succ remaining ih =>
    intro running above rect current tryRecolor inside
    refine succeeds_rememberJournaled (fun hmem => absurd (above _ hmem) (Nat.lt_irrefl _)) ?_
      (yields_hopeless _ ⟨rect, current, remaining + 1, tryRecolor⟩)
    refine succeeds_searchBlock moderate inside ⟨succeeds_colorJournaled, ?_⟩ _ _
    intro deeper hdeeper
    obtain rfl := Option.some.inj hdeeper
    refine ih _ (List.forall_mem_cons.mpr ⟨Nat.lt_succ_self _, fun key hkey => ?_⟩)
    exact Nat.lt_of_succ_lt (above key hkey)

end Keep

lemma kept_after (sides : target.width ≤ maxCoordinate ∧ target.height ≤ maxCoordinate)
    (estimator : Estimator) (maxDepth : Nat) (history : List Query) :
    Kept target [] (.after target estimator maxDepth history) := by
  induction history using List.reverseRecOn with
  | nil => exact ⟨books_empty target, anew_nil⟩
  | append_singleton history query ih =>
    simp only [Journaled.after, List.foldl_append, List.foldl_cons, List.foldl_nil] at ih ⊢
    generalize history.foldl (Journaled.ask target estimator maxDepth) (.empty, []) = s at ih
    obtain ⟨books, anew⟩ := ih
    cases query with
    | color rect =>
      refine ⟨?_, anew.append nofun⟩
      rw [Journaled.ask, parts_concat]
      exact books.ask (estimator.estimate target) rect
    | improve rect current depth =>
      simp only [Journaled.ask]
      by_cases onRaster : rect.Within target.width target.height
      · have hcheck : target.check rect = .ok () := if_pos onRaster
        obtain ⟨recipe, next, hrun, kept⟩ :=
          succeeds_searchJournaled estimator (moderate_of_within sides onRaster) (maxDepth - depth)
            [] (fun _ h => absurd h List.not_mem_nil) rect current true (fun _ hp => hp) s
            ⟨books, anew⟩
        rw [hcheck, hrun]
        exact kept
      · have hcheck : target.check rect = .error _ := if_neg onRaster
        rw [hcheck]
        exact ⟨books, anew⟩

/-- On a raster whose sides fit a word a session answers every question about a block on it, and
whatever it was asked, every search from scratch was given up or is remembered. In the journal a
search begins only where all earlier searches of the block are over and were given up, so that no
block for which there is hope is searched twice and no search meets its own block, and as many colors
were estimated as rectangles were asked about. The questions that a cache answers from memory and the
rectangles that it estimates are as many as the questions to it. -/
theorem session_searches_once
    (sides : target.width ≤ maxCoordinate ∧ target.height ≤ maxCoordinate)
    (estimator : Estimator) (maxDepth : Nat) :
    (∀ history rect current depth, rect.Within target.width target.height →
      ∃ recipe next, improve target estimator maxDepth rect current depth
        (.after target estimator maxDepth history) = .ok (recipe, next)) ∧
    (∀ history, ∃ s journal, s = Session.after target estimator maxDepth history ∧
      Journaled.after target estimator maxDepth history = (s, journal) ∧
      Books target [] s (parts journal) ∧ Anew journal ∧
      s.memoMisses = s.pruned + s.memo.size ∧
      (∀ key, ¬ key.Hopeless target → (parts journal).begun.count key ≤ 1) ∧
      s.counters.colorsEstimated = (parts journal).asked.toFinset.card ∧
      s.colors.hits + s.colors.computed = (parts journal).asked.length) ∧
    ∀ (estimate : Rect → Color) (questions : List Rect),
      (questions.foldl (fun cache rect => (cache.color estimate rect).2)
        ColorCache.empty).Counts questions := by
  refine ⟨?_, ?_, ?_⟩
  · intro history rect current depth onRaster
    exact improve_succeeds sides onRaster estimator maxDepth current depth _
  · intro history
    have hkept := kept_after sides estimator maxDepth history
    have hsession := after_fst target estimator maxDepth history
    rcases heq : Journaled.after target estimator maxDepth history with ⟨s, journal⟩
    rw [heq] at hkept hsession
    obtain ⟨books, anew⟩ := hkept
    refine ⟨s, journal, hsession, rfl, books, anew, books.memoMisses_eq_add, ?_,
      books.counts.computed_eq, books.counts.total⟩
    exact fun key hopeful => books.count_begun_le_one hopeful
  · intro estimate questions
    exact ColorCache.counts_foldl ColorCache.counts_empty estimate questions

/-- There is hope for the white block over the half black one, so it is searched at most once with
one subdivision left, however often it is asked for. -/
theorem session_searches_once_of_halfBlack :
    ∃ s journal, s = Session.after halfBlack (.exact 0.5) 1
        [.improve wholeBlock.rect .white 0, .color wholeBlock.rect,
          .improve wholeBlock.rect .white 0] ∧
      Books halfBlack [] s (parts journal) ∧ s.memoMisses = s.pruned + s.memo.size ∧
      (parts journal).begun.count ⟨wholeBlock.rect, .white, 1, true⟩ ≤ 1 := by
  have sides : halfBlack.width ≤ maxCoordinate ∧ halfBlack.height ≤ maxCoordinate := by decide
  have hopeful : ¬ Key.Hopeless halfBlack ⟨wholeBlock.rect, .white, 1, true⟩ := by
    unfold Key.Hopeless Hopeless
    decide +kernel
  obtain ⟨_, hhistory, _⟩ := session_searches_once sides (.exact 0.5) 1
  obtain ⟨s, journal, hs, _, books, _, hmisses, honce, _⟩ := hhistory
    [.improve wholeBlock.rect .white 0, .color wholeBlock.rect, .improve wholeBlock.rect .white 0]
  exact ⟨s, journal, hs, books, hmisses, honce _ hopeful⟩

end Subdivision

end BlockPainting
