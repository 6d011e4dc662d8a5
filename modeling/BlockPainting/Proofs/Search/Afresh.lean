import BlockPainting.Proofs.Success
import BlockPainting.Search.Subdivision
import Mathlib.Data.List.Induction

/-!
# The search with and without a memory

`searchAtDepth` is the search that remembers nothing: every color is estimated and every part is
searched again. A session whose memory holds only what this search returns fares like it and
remembers nothing else, so no earlier question changes an answer.
-/

namespace BlockPainting

/-- Every color in the cache is the estimate for its rectangle. -/
def ColorCache.Sound (estimate : Rect → Color) (cache : ColorCache) : Prop :=
  ∀ (rect : Rect) (c : Color), cache.colors[rect]? = some c → c = estimate rect

lemma ColorCache.sound_empty (estimate : Rect → Color) : ColorCache.empty.Sound estimate := by
  intro rect c h
  simp [ColorCache.empty] at h

lemma ColorCache.Sound.color {estimate : Rect → Color} {cache : ColorCache}
    (sound : cache.Sound estimate) (rect : Rect) :
    (cache.color estimate rect).1 = estimate rect ∧
      (cache.color estimate rect).2.Sound estimate := by
  unfold ColorCache.color
  cases h : cache.colors[rect]? with
  | some c => exact ⟨sound rect c h, sound⟩
  | none =>
    refine ⟨rfl, ?_⟩
    intro rect' c hc
    simp only [Std.HashMap.getElem?_insert, beq_iff_eq] at hc
    split at hc
    · rename_i heq
      cases hc
      rw [heq]
    · exact sound rect' c hc

namespace Subdivision

open Success

section Agreement

variable {σ τ α β : Type} {R : σ → τ → Prop}

/-- From related states the two computations fare alike, and the states they leave are related
again. -/
def Agrees (R : σ → τ → Prop) (m : SearchM σ α) (m' : SearchM τ α) : Prop :=
  ∀ s t, R s t →
    (∃ e, m.run s = .error e ∧ m'.run t = .error e) ∨
      ∃ a s' t', m.run s = .ok (a, s') ∧ m'.run t = .ok (a, t') ∧ R s' t'

lemma agrees_pure (a : α) : Agrees R (pure a) (pure a) := by
  intro s t hst
  exact Or.inr ⟨a, s, t, rfl, rfl, hst⟩

lemma Agrees.bind {m : SearchM σ α} {m' : SearchM τ α} {f : α → SearchM σ β}
    {g : α → SearchM τ β} (h : Agrees R m m') (hf : ∀ a, Agrees R (f a) (g a)) :
    Agrees R (m >>= f) (m' >>= g) := by
  intro s t hst
  simp only [StateT.run_bind]
  rcases h s t hst with ⟨e, hm, hm'⟩ | ⟨a, s', t', hm, hm', hst'⟩
  · rw [hm, hm']
    exact Or.inl ⟨e, rfl, rfl⟩
  · rw [hm, hm']
    exact hf a s' t' hst'

lemma Agrees.ite {p : Prop} [Decidable p] {m n : SearchM σ α} {m' n' : SearchM τ α}
    (h : p → Agrees R m m') (h' : ¬ p → Agrees R n n') :
    Agrees R (if p then m else n) (if p then m' else n') := by
  by_cases hp : p
  · simpa only [if_pos hp] using h hp
  · simpa only [if_neg hp] using h' hp

lemma agrees_lift (x : Except GeometryError α) : Agrees R (lift x) (lift x) := by
  intro s t hst
  cases x with
  | error e => exact Or.inl ⟨e, rfl, rfl⟩
  | ok a => exact Or.inr ⟨a, s, t, rfl, rfl, hst⟩

lemma Agrees.mapM {f : α → SearchM σ β} {g : α → SearchM τ β}
    (h : ∀ a, Agrees R (f a) (g a)) (as : List α) : Agrees R (as.mapM f) (as.mapM g) := by
  induction as with
  | nil => exact agrees_pure []
  | cons a as ih =>
    simp only [List.mapM_cons]
    exact (h a).bind fun b => ih.bind fun bs => agrees_pure (b :: bs)

def DeeperAgrees (R : σ → τ → Prop) (deeper : Rect → Color → Bool → SearchM σ Recipe)
    (deeper' : Rect → Color → Bool → SearchM τ Recipe) : Prop :=
  ∀ rect current tryRecolor,
    Agrees R (deeper rect current tryRecolor) (deeper' rect current tryRecolor)

/-- Surroundings that agree in everything they are asked for. -/
structure Surroundings.Agrees (R : σ → τ → Prop) (s : Surroundings σ) (s' : Surroundings τ) :
    Prop where
  color : ∀ rect, Subdivision.Agrees R (s.color rect) (s'.color rect)
  deeper : Option.Rel (DeeperAgrees R) s.deeper s'.deeper

variable {s : Surroundings σ} {s' : Surroundings τ}
variable {deeper : Rect → Color → Bool → SearchM σ Recipe}
variable {deeper' : Rect → Color → Bool → SearchM τ Recipe}

lemma agrees_recolorings (target : Raster) (h : s.Agrees R s') (rect : Rect) (current : Color)
    (colorCost : Nat) (similarity : Float) :
    Agrees R (recolorings target s rect current colorCost similarity)
      (recolorings target s' rect current colorCost similarity) := by
  refine (h.color rect).bind fun estimate => Agrees.ite (fun _ => agrees_pure _) fun _ => ?_
  obtain ⟨color, deeper⟩ := s
  obtain ⟨color', deeper'⟩ := s'
  cases h.deeper with
  | none => exact agrees_pure _
  | some hdeeper => exact (hdeeper rect estimate false).bind fun nested => agrees_pure _

lemma agrees_searchParts (h : DeeperAgrees R deeper deeper') (current : Color) (r : Recipe)
    (index : Nat) (parts : List Rect) :
    Agrees R (searchParts deeper current r index parts)
      (searchParts deeper' current r index parts) := by
  induction parts generalizing r index with
  | nil => exact agrees_pure r
  | cons part rest ih => exact (h part current true).bind fun sub => ih _ _

lemma agrees_lineCutRecipe (h : DeeperAgrees R deeper deeper') (rect : Rect) (current : Color)
    (cost : Nat) (cut : Axis × Nat) :
    Agrees R (lineCutRecipe deeper rect current cost cut)
      (lineCutRecipe deeper' rect current cost cut) :=
  (agrees_lift _).bind fun _ => agrees_searchParts h _ _ _ _

lemma agrees_pointCutRecipe (h : DeeperAgrees R deeper deeper') (rect : Rect) (current : Color)
    (cost : Nat) :
    Agrees R (pointCutRecipe deeper rect current cost)
      (pointCutRecipe deeper' rect current cost) :=
  (agrees_lift _).bind fun _ => agrees_searchParts h _ _ _ _

lemma agrees_cuttings (h : DeeperAgrees R deeper deeper') (prices : Pricing) (rect : Rect)
    (current : Color) (colorCost : Nat) (least : Float) :
    Agrees R (cuttings prices deeper rect current colorCost least)
      (cuttings prices deeper' rect current colorCost least) := by
  refine Agrees.ite (fun _ => (Agrees.mapM (agrees_lineCutRecipe h rect current _) _).bind ?_)
    fun _ => (agrees_pure []).bind ?_
  all_goals
    intro lines
    exact Agrees.ite (fun _ => (agrees_pointCutRecipe h _ _ _).bind fun _ => agrees_pure _)
      fun _ => agrees_pure _

lemma agrees_searchBlock (target : Raster) (h : s.Agrees R s') (rect : Rect) (current : Color)
    (tryRecolor : Bool) :
    Agrees R (searchBlock target s rect current tryRecolor)
      (searchBlock target s' rect current tryRecolor) := by
  refine Agrees.ite (fun _ => agrees_pure _) fun _ => ?_
  refine Agrees.ite (fun _ => (agrees_recolorings target h _ _ _ _).bind ?_)
    fun _ => (agrees_pure _).bind ?_
  all_goals
    rintro ⟨recolored, least⟩
    obtain ⟨color, deeper⟩ := s
    obtain ⟨color', deeper'⟩ := s'
    cases h.deeper with
    | none => exact agrees_pure _
    | some hdeeper => exact (agrees_cuttings hdeeper _ _ _ _ _).bind fun _ => agrees_pure _

end Agreement

def Finding.best : Finding → Recipe
  | .pruned leave => leave
  | .compared leave others => cheapest leave others

def estimatedColor (target : Raster) (estimator : Estimator) (rect : Rect) : SearchM Unit Color :=
  pure (estimator.estimate target rect)

/-- The best recipe for a block with so many subdivisions left, searched without a memory. -/
def searchAfresh (target : Raster) (estimator : Estimator) :
    Nat → Rect → Color → Bool → SearchM Unit Recipe
  | 0, rect, current, tryRecolor =>
    Finding.best <$> searchBlock target ⟨estimatedColor target estimator, none⟩ rect current
      tryRecolor
  | remaining + 1, rect, current, tryRecolor =>
    Finding.best <$> searchBlock target
      ⟨estimatedColor target estimator, some (searchAfresh target estimator remaining)⟩ rect current
      tryRecolor

/-- The best recipe for a block that has been subdivided `depth` times, searched without a memory
and without counting what is left. -/
def searchAtDepth (target : Raster) (estimator : Estimator) (maxDepth depth : Nat) (rect : Rect)
    (current : Color) (tryRecolor : Bool) : SearchM Unit Recipe :=
  Finding.best <$> searchBlock target
    ⟨estimatedColor target estimator,
      if depth < maxDepth then some (searchAtDepth target estimator maxDepth (depth + 1)) else none⟩
    rect current tryRecolor
termination_by maxDepth - depth

lemma searchAtDepth_eq (target : Raster) (estimator : Estimator) (maxDepth depth : Nat) :
    searchAtDepth target estimator maxDepth depth =
      searchAfresh target estimator (maxDepth - depth) := by
  induction hn : maxDepth - depth generalizing depth with
  | zero =>
    funext rect current tryRecolor
    rw [searchAtDepth, if_neg (by omega)]
    rfl
  | succ n ih =>
    funext rect current tryRecolor
    rw [searchAtDepth, if_pos (by omega), ih (depth + 1) (by omega)]
    rfl

def improveAfresh (target : Raster) (estimator : Estimator) (maxDepth : Nat) (rect : Rect)
    (current : Color) (depth : Nat) : Except SolveError Recipe :=
  match target.check rect with
  | .error e => .error (.offRaster e)
  | .ok () =>
    match (searchAtDepth target estimator maxDepth depth rect current true).run () with
    | .error e => .error (.geometry e)
    | .ok (recipe, _) => .ok recipe

/-- Everything a session has in memory is what a search without a memory returns. -/
structure Session.Sound (target : Raster) (estimator : Estimator) (s : Session) : Prop where
  colors : ∀ (rect : Rect) (c : Color), s.colors.colors[rect]? = some c →
    c = estimator.estimate target rect
  memo : ∀ (key : Key) (recipe : Recipe), s.memo[key]? = some recipe →
    (searchAfresh target estimator key.remaining key.rect key.current key.tryRecolor).run () =
      .ok (recipe, ())

/-- A session beside the empty state of a search without a memory. -/
def Recalls (target : Raster) (estimator : Estimator) (s : Session) (_ : Unit) : Prop :=
  s.Sound target estimator

section Memory

variable {target : Raster} {estimator : Estimator}

lemma sound_empty : Session.empty.Sound target estimator := by
  refine ⟨ColorCache.sound_empty _, ?_⟩
  intro key recipe h
  simp [Session.empty] at h

lemma color_eq {s : Session} (sound : s.Sound target estimator) (rect : Rect) :
    (s.colors.color (estimator.estimate target) rect).1 = estimator.estimate target rect ∧
      Session.Sound target estimator
        { s with colors := (s.colors.color (estimator.estimate target) rect).2 } := by
  have colors : s.colors.Sound (estimator.estimate target) := sound.colors
  obtain ⟨hcolor, hsound⟩ := colors.color rect
  exact ⟨hcolor, hsound, sound.memo⟩

lemma agrees_cachedColor (rect : Rect) :
    Agrees (Recalls target estimator) (cachedColor target estimator rect)
      (estimatedColor target estimator rect) := by
  intro s _ sound
  obtain ⟨hcolor, hsound⟩ := color_eq sound rect
  have hrun : (cachedColor target estimator rect).run s =
      .ok ((s.colors.color (estimator.estimate target) rect).1,
        { s with colors := (s.colors.color (estimator.estimate target) rect).2 }) := rfl
  rw [hcolor] at hrun
  exact Or.inr ⟨_, _, _, hrun, rfl, hsound⟩

def Finding.kept : Finding → Option Recipe
  | .pruned _ => none
  | .compared leave others => some (cheapest leave others)

lemma memo_of_remember {key : Key} {find : SearchM Session Finding} {s next : Session}
    {finding : Finding} {recipe : Recipe} (miss : s.memo[key]? = none)
    (h : find.run { s with memoMisses := s.memoMisses + 1 } = .ok (finding, next))
    (kept : finding.kept = some recipe) :
    ∃ last, (remember key find).run s = .ok (recipe, last) ∧ last.memo[key]? = some recipe := by
  have hmiss : (remember key find).run s =
      (find >>= conclude key).run { s with memoMisses := s.memoMisses + 1 } := by
    simp [remember, miss]
  cases finding with
  | pruned leave => cases kept
  | compared leave others =>
    obtain rfl := Option.some.inj kept
    rw [hmiss, StateT.run_bind, h]
    exact ⟨_, rfl, Std.HashMap.getElem?_insert_self⟩

/-- Concluding a search remembers the recipe that a search without a memory returns. -/
lemma agrees_conclude (key : Key) {plain : SearchM Unit Finding} {finding : Finding}
    (hplain : plain.run () = .ok (finding, ()))
    (hkey : searchAfresh target estimator key.remaining key.rect key.current key.tryRecolor =
      Finding.best <$> plain) :
    Agrees (Recalls target estimator) (conclude key finding) (pure finding.best) := by
  intro s _ sound
  cases finding with
  | pruned leave =>
    exact Or.inr ⟨leave, { s with pruned := s.pruned + 1 }, (), rfl, rfl, sound.colors, sound.memo⟩
  | compared leave others =>
    refine Or.inr ⟨cheapest leave others, _, (), rfl, rfl, sound.colors, ?_⟩
    intro key' recipe hrecipe
    simp only [Std.HashMap.getElem?_insert, beq_iff_eq] at hrecipe
    split at hrecipe
    · rename_i heq
      cases hrecipe
      subst heq
      rw [hkey, StateT.run_map, hplain]
      rfl
    · exact sound.memo key' recipe hrecipe

/-- Looking a block up or searching it makes no difference, and what is remembered is right. -/
lemma agrees_remember (key : Key) {find : SearchM Session Finding} {plain : SearchM Unit Finding}
    (h : Agrees (Recalls target estimator) find plain)
    (hkey : searchAfresh target estimator key.remaining key.rect key.current key.tryRecolor =
      Finding.best <$> plain) :
    Agrees (Recalls target estimator) (remember key find)
      (searchAfresh target estimator key.remaining key.rect key.current key.tryRecolor) := by
  intro s _ sound
  cases hlook : s.memo[key]? with
  | some recipe =>
    refine Or.inr ⟨recipe, { s with memoHits := s.memoHits + 1 }, (), ?_,
      sound.memo key recipe hlook, sound.colors, sound.memo⟩
    simp only [remember, bind_pure_comp, StateT.run_bind, StateT.run_get, pure_bind, hlook]
    rfl
  | none =>
    have hmiss : (remember key find).run s =
        (find >>= conclude key).run { s with memoMisses := s.memoMisses + 1 } := by
      simp [remember, hlook]
    rw [hmiss, hkey, StateT.run_bind, StateT.run_map]
    rcases h { s with memoMisses := s.memoMisses + 1 } () ⟨sound.colors, sound.memo⟩ with
      ⟨e, hfind, hplain⟩ | ⟨finding, s', _, hfind, hplain, sound'⟩
    · rw [hfind, hplain]
      exact Or.inl ⟨e, rfl, rfl⟩
    · rw [hfind, hplain]
      exact agrees_conclude key hplain hkey s' () sound'

lemma agrees_bare : Surroundings.Agrees (Recalls target estimator)
    ⟨cachedColor target estimator, none⟩ ⟨estimatedColor target estimator, none⟩ :=
  ⟨agrees_cachedColor, .none⟩

lemma agrees_search (remaining : Nat) (rect : Rect) (current : Color) (tryRecolor : Bool) :
    Agrees (Recalls target estimator)
      (search target estimator remaining rect current tryRecolor)
      (searchAfresh target estimator remaining rect current tryRecolor) := by
  induction remaining generalizing rect current tryRecolor with
  | zero =>
    exact agrees_remember ⟨rect, current, 0, tryRecolor⟩
      (agrees_searchBlock target agrees_bare rect current tryRecolor) rfl
  | succ remaining ih =>
    have hdeeper : Surroundings.Agrees (Recalls target estimator)
        ⟨cachedColor target estimator, some (search target estimator remaining)⟩
        ⟨estimatedColor target estimator, some (searchAfresh target estimator remaining)⟩ :=
      ⟨agrees_cachedColor, .some ih⟩
    exact agrees_remember ⟨rect, current, remaining + 1, tryRecolor⟩
      (agrees_searchBlock target hdeeper rect current tryRecolor) rfl

end Memory

inductive Query where
  | improve (rect : Rect) (current : Color) (depth : Nat)
  | color (rect : Rect)

/-- The session after a question; a refused question leaves it as it was. -/
def Session.ask (target : Raster) (estimator : Estimator) (maxDepth : Nat) (s : Session) :
    Query → Session
  | .improve rect current depth =>
    match Subdivision.improve target estimator maxDepth rect current depth s with
    | .ok (_, next) => next
    | .error _ => s
  | .color rect => { s with colors := (s.colors.color (estimator.estimate target) rect).2 }

/-- The session that has answered these questions, the first one first. -/
def Session.after (target : Raster) (estimator : Estimator) (maxDepth : Nat)
    (history : List Query) : Session :=
  history.foldl (Session.ask target estimator maxDepth) .empty

section Questions

variable {target : Raster} {estimator : Estimator}

lemma improve_of_sound {s : Session} (sound : s.Sound target estimator) (maxDepth : Nat)
    (rect : Rect) (current : Color) (depth : Nat) :
    (improve target estimator maxDepth rect current depth s).map Prod.fst =
        improveAfresh target estimator maxDepth rect current depth ∧
      ∀ recipe next, improve target estimator maxDepth rect current depth s = .ok (recipe, next) →
        next.Sound target estimator := by
  simp only [improve, improveAfresh, searchAtDepth_eq]
  cases target.check rect with
  | error e =>
    refine ⟨rfl, ?_⟩
    intro recipe next h
    cases h
  | ok _ =>
    rcases agrees_search (maxDepth - depth) rect current true s () sound with
      ⟨e, hsearch, hplain⟩ | ⟨recipe, s', _, hsearch, hplain, sound'⟩
    · simp only [hsearch, hplain]
      refine ⟨rfl, ?_⟩
      intro recipe next h
      cases h
    · simp only [hsearch, hplain]
      refine ⟨rfl, ?_⟩
      intro recipe next h
      cases h
      exact sound'

lemma Session.Sound.ask {s : Session} (sound : s.Sound target estimator) (maxDepth : Nat)
    (query : Query) :
    (s.ask target estimator maxDepth query).Sound target estimator := by
  cases query with
  | improve rect current depth =>
    simp only [Session.ask]
    split
    · rename_i recipe next h
      exact (improve_of_sound sound maxDepth rect current depth).2 recipe next h
    · exact sound
  | color rect => exact (color_eq sound rect).2

lemma sound_after (target : Raster) (estimator : Estimator) (maxDepth : Nat)
    (history : List Query) :
    (Session.after target estimator maxDepth history).Sound target estimator := by
  induction history using List.reverseRecOn with
  | nil => exact sound_empty
  | append_singleton history query ih =>
    rw [Session.after, List.foldl_append]
    exact ih.ask maxDepth query

/-- All pixels of a raster of two rows and two columns. -/
def fourPixels : Rect := ⟨0, 0, 2, 2, Nat.two_pos, Nat.two_pos⟩

/-- The session that was asked for these pixels, beyond the largest depth. -/
def askedBeyond : Session :=
  .after (.filled 2 2 .black) (.exact 0.5) 4 [.improve fourPixels .white 7]

lemma memo_askedBeyond : ∃ recipe,
    askedBeyond.memo[(⟨fourPixels, .white, 0, true⟩ : Key)]? = some recipe ∧
      recipe.steps = [⟨[], .color .black⟩] := by
  have heval : ((searchBlock (.filled 2 2 .black)
      ⟨estimatedColor (.filled 2 2 .black) (.exact 0.5), none⟩ fourPixels .white true).run
        ()).toOption.map (fun r => r.1.kept.map Recipe.steps) =
      some (some [⟨[], .color .black⟩]) := by
    decide +kernel
  obtain ⟨⟨finding, _⟩, hplain, hkept⟩ := exists_of_toOption heval
  obtain ⟨recipe, hrecipe, hsteps⟩ := Option.map_eq_some_iff.mp hkept
  rcases agrees_searchBlock (.filled 2 2 .black)
      (@agrees_bare (.filled 2 2 .black) (.exact 0.5)) fourPixels .white true
      { Session.empty with memoMisses := 1 } () ⟨sound_empty.colors, sound_empty.memo⟩ with
    ⟨e, _, hfailed⟩ | ⟨_, next, _, hfind, hplain', _⟩
  · cases hplain.symm.trans hfailed
  · cases hplain.symm.trans hplain'
    obtain ⟨last, hlast, hmemo⟩ := @memo_of_remember ⟨fourPixels, .white, 0, true⟩ _ .empty _ _ _
      (by simp [Session.empty]) hfind hrecipe
    have hcheck : Raster.check (.filled 2 2 .black) fourPixels = .ok () := rfl
    have himprove : improve (.filled 2 2 .black) (.exact 0.5) 4 fourPixels .white 7 .empty =
        .ok (recipe, last) := by
      simp only [improve, hcheck, search, show 4 - 7 = 0 from rfl, hlast]
    have hnext : askedBeyond = last := by
      change Session.ask _ _ _ .empty (.improve fourPixels .white 7) = last
      rw [Session.ask, himprove]
    exact ⟨recipe, hnext ▸ hmemo, hsteps⟩

/-- Whatever a session was asked before, it answers like a search without a memory, hence like a
session that was asked nothing, and depths that leave equally many subdivisions get one answer. -/
theorem improve_after (target : Raster) (estimator : Estimator) (maxDepth : Nat)
    (history : List Query) (rect : Rect) (current : Color) (depth : Nat) :
    (improve target estimator maxDepth rect current depth
        (.after target estimator maxDepth history)).map Prod.fst =
      improveAfresh target estimator maxDepth rect current depth ∧
    (improve target estimator maxDepth rect current depth
        (.after target estimator maxDepth history)).map Prod.fst =
      (improve target estimator maxDepth rect current depth .empty).map Prod.fst ∧
    ∀ (depth' : Nat) (history' : List Query), maxDepth - depth' = maxDepth - depth →
      (improve target estimator maxDepth rect current depth'
          (.after target estimator maxDepth history')).map Prod.fst =
        (improve target estimator maxDepth rect current depth
          (.after target estimator maxDepth history)).map Prod.fst := by
  have hany : ∀ (history : List Query) (depth : Nat),
      (improve target estimator maxDepth rect current depth
          (.after target estimator maxDepth history)).map Prod.fst =
        improveAfresh target estimator maxDepth rect current depth :=
    fun history depth => (improve_of_sound (sound_after target estimator maxDepth history) maxDepth
      rect current depth).1
  refine ⟨hany history depth, ?_, ?_⟩
  · rw [hany history depth, ← hany [] depth]
    rfl
  · intro depth' history' heq
    rw [hany history' depth', hany history depth]
    simp only [improveAfresh, searchAtDepth_eq, heq]

/-- Beyond the largest depth nothing is left, however far beyond: a session that has painted the
block remembers the answer, and a new one finds the same. -/
theorem improve_after_beyond : ∃ recipe,
    askedBeyond.memo[(⟨fourPixels, .white, 0, true⟩ : Key)]? = some recipe ∧
      recipe.steps = [⟨[], .color .black⟩] ∧
      (improve (.filled 2 2 .black) (.exact 0.5) 4 fourPixels .white 9 askedBeyond).map Prod.fst =
        (improve (.filled 2 2 .black) (.exact 0.5) 4 fourPixels .white 5
          (.after (.filled 2 2 .black) (.exact 0.5) 4 [])).map Prod.fst := by
  obtain ⟨recipe, hmemo, hsteps⟩ := memo_askedBeyond
  exact ⟨recipe, hmemo, hsteps, (improve_after (.filled 2 2 .black) (.exact 0.5) 4 [] fourPixels
    .white 5).2.2 9 [.improve fourPixels .white 7] (by decide)⟩

end Questions

end Subdivision

end BlockPainting
