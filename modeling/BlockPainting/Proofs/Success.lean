import Mathlib.Data.List.Forall2
import Mathlib.Tactic.Lemma

/-!
# When chained steps succeed

A chain of steps that may fail succeeds exactly if each step does, given what the steps before it
came to. With these equivalences a run is taken apart step by step.
-/

namespace BlockPainting.Success

variable {ε α β : Type}

lemma bind_eq_ok {x : Except ε α} {f : α → Except ε β} {b : β} :
    (x >>= f) = .ok b ↔ ∃ a, x = .ok a ∧ f a = .ok b := by
  cases x <;> simp [bind, Except.bind]

lemma bind_eq_error {x : Except ε α} {f : α → Except ε β} {e : ε} :
    (x >>= f) = .error e ↔ x = .error e ∨ ∃ a, x = .ok a ∧ f a = .error e := by
  cases x <;> simp [bind, Except.bind]

lemma pure_eq_ok {a b : α} : (pure a : Except ε α) = .ok b ↔ a = b := by
  simp [pure, Except.pure]

lemma throw_ne_ok {e : ε} {a : α} : ¬ (throw e : Except ε α) = .ok a := by
  simp [throw, throwThe, MonadExceptOf.throw]

lemma map_eq_ok {x : Except ε α} {f : α → β} {b : β} :
    x.map f = .ok b ↔ ∃ a, x = .ok a ∧ f a = b := by
  cases x <;> simp [Except.map]

lemma map_eq_error {x : Except ε α} {f : α → β} {e : ε} :
    x.map f = .error e ↔ x = .error e := by
  cases x <;> simp [Except.map]

lemma toOption_eq_some_iff {x : Except ε α} {a : α} : x.toOption = some a ↔ x = .ok a := by
  cases x <;> simp [Except.toOption]

lemma guard_eq_ok {p : Prop} [Decidable p] {e : ε} {f : α → Except ε β} {x : Except ε β} {b : β} :
    (if p then throw e >>= f else x) = .ok b ↔ ¬ p ∧ x = .ok b := by
  by_cases h : p <;> simp [h, bind, Except.bind, throw, throwThe, MonadExceptOf.throw]

lemma join_eq_ok {p : Prop} [Decidable p] {x y : Except ε α} {f : α → Except ε β} {b : β} :
    (if p then x >>= f else y >>= f) = .ok b ↔
      ∃ a, (if p then x = .ok a else y = .ok a) ∧ f a = .ok b := by
  by_cases h : p <;> simp only [h, if_true, if_false, bind_eq_ok]

lemma join_map_eq_ok {γ : Type} {p : Prop} [Decidable p] {x : Except ε γ} {g : γ → α}
    {y : Except ε α} {f : α → Except ε β} {b : β} :
    (if p then x >>= fun c => pure (g c) >>= f else y >>= f) = .ok b ↔
      ∃ a, (if p then ∃ c, x = .ok c ∧ g c = a else y = .ok a) ∧ f a = .ok b := by
  by_cases h : p <;> simp only [h, if_true, if_false, bind_eq_ok, pure_eq_ok]
  constructor
  · rintro ⟨c, hc, _, rfl, hf⟩
    exact ⟨g c, ⟨c, hc, rfl⟩, hf⟩
  · rintro ⟨_, ⟨c, hc, rfl⟩, hf⟩
    exact ⟨c, hc, g c, rfl, hf⟩

lemma mapM_eq_ok {f : α → Except ε β} {as : List α} {bs : List β} :
    as.mapM f = .ok bs ↔ List.Forall₂ (fun a b => f a = .ok b) as bs := by
  induction as generalizing bs with
  | nil => rw [List.mapM_nil, pure_eq_ok, List.forall₂_nil_left_iff, eq_comm]
  | cons a as ih =>
    simp only [List.mapM_cons, bind_eq_ok, pure_eq_ok, ih, List.forall₂_cons_left_iff]
    constructor
    · rintro ⟨b, hb, bs, hbs, rfl⟩
      exact ⟨b, bs, hb, hbs, rfl⟩
    · rintro ⟨b, bs, hb, hbs, rfl⟩
      exact ⟨b, hb, bs, hbs, rfl⟩

lemma mapM_eq_error {f : α → Except ε β} {as : List α} {e : ε} :
    as.mapM f = .error e ↔ ∃ before a after, as = before ++ a :: after ∧
      (∀ a' ∈ before, ∃ b, f a' = .ok b) ∧ f a = .error e := by
  induction as with
  | nil => simp [pure, Except.pure]
  | cons first as ih =>
    simp only [List.mapM_cons, bind_eq_error, ih]
    constructor
    · rintro (hfirst | ⟨b, hb, ⟨before, a, after, rfl, hbefore, ha⟩ | ⟨_, _, hpure⟩⟩)
      · exact ⟨[], first, as, rfl, by simp, hfirst⟩
      · refine ⟨first :: before, a, after, rfl, ?_, ha⟩
        exact List.forall_mem_cons.mpr ⟨⟨b, hb⟩, hbefore⟩
      · cases hpure
    · rintro ⟨_ | ⟨first', before⟩, a, after, heq, hbefore, ha⟩
      · obtain ⟨rfl, rfl⟩ := List.cons.inj heq
        exact Or.inl ha
      · obtain ⟨rfl, rfl⟩ := List.cons.inj heq
        obtain ⟨⟨b, hb⟩, hrest⟩ := List.forall_mem_cons.mp hbefore
        exact Or.inr ⟨b, hb, Or.inl ⟨before, a, after, rfl, hrest, ha⟩⟩

lemma exists_of_mem_left {R : α → β → Prop} {as : List α} {bs : List β}
    (h : List.Forall₂ R as bs) {a : α} (ha : a ∈ as) : ∃ b ∈ bs, R a b := by
  induction h with
  | nil => cases ha
  | cons hab _ ih =>
    rcases List.mem_cons.mp ha with rfl | ha
    · exact ⟨_, List.mem_cons_self, hab⟩
    · obtain ⟨b, hb, hab⟩ := ih ha
      exact ⟨b, List.mem_cons_of_mem _ hb, hab⟩

lemma exists_of_mem_right {R : α → β → Prop} {as : List α} {bs : List β}
    (h : List.Forall₂ R as bs) {b : β} (hb : b ∈ bs) : ∃ a ∈ as, R a b := by
  obtain ⟨a, ha, hab⟩ := exists_of_mem_left (List.Forall₂.flip h) hb
  exact ⟨a, ha, hab⟩

lemma exists_forall₂ {R : α → β → Prop} {as : List α} (h : ∀ a ∈ as, ∃ b, R a b) :
    ∃ bs, List.Forall₂ R as bs := by
  induction as with
  | nil => exact ⟨[], List.Forall₂.nil⟩
  | cons a as ih =>
    obtain ⟨b, hab⟩ := h a List.mem_cons_self
    obtain ⟨bs, hbs⟩ := ih fun a ha => h a (List.mem_cons_of_mem _ ha)
    exact ⟨b :: bs, hbs.cons hab⟩

/-- A computation that was evaluated in part came to some result. -/
lemma exists_of_toOption {x : Except ε α} {f : α → β} {b : β} (h : x.toOption.map f = some b) :
    ∃ a, x = .ok a ∧ f a = b := by
  cases x with
  | error e => cases h
  | ok a => exact ⟨a, rfl, Option.some.inj h⟩

/-- The result of steps that may fail, and the state they leave also where they fail. -/
def runFrom {σ : Type} (s : σ) (x : ExceptT ε (StateM σ) α) : Except ε α × σ :=
  StateT.run (ExceptT.run x) s

lemma runFrom_bind {σ : Type} {s : σ} (x : ExceptT ε (StateM σ) α)
    (f : α → ExceptT ε (StateM σ) β) :
    runFrom s (x >>= f) =
      match runFrom s x with
      | (.ok a, s') => runFrom s' (f a)
      | (.error e, s') => (.error e, s') := by
  change StateT.run (ExceptT.run x >>= ExceptT.bindCont f) s = _
  rw [StateT.run_bind, runFrom]
  rcases StateT.run (ExceptT.run x) s with ⟨_ | _, s'⟩ <;> rfl

lemma runFrom_bind_eq_ok {σ : Type} {s s' : σ} {x : ExceptT ε (StateM σ) α}
    {f : α → ExceptT ε (StateM σ) β} {b : β} :
    runFrom s (x >>= f) = (.ok b, s') ↔
      ∃ a mid, runFrom s x = (.ok a, mid) ∧ runFrom mid (f a) = (.ok b, s') := by
  rw [runFrom_bind]
  rcases runFrom s x with ⟨e | a, mid⟩ <;> simp

lemma runFrom_bind_of_ok {σ : Type} {s s' : σ} {x : ExceptT ε (StateM σ) α}
    {f : α → ExceptT ε (StateM σ) β} {a : α} (h : runFrom s x = (.ok a, s')) :
    runFrom s (x >>= f) = runFrom s' (f a) := by
  rw [runFrom_bind, h]

lemma runFrom_bind_of_error {σ : Type} {s s' : σ} {x : ExceptT ε (StateM σ) α}
    {f : α → ExceptT ε (StateM σ) β} {e : ε} (h : runFrom s x = (.error e, s')) :
    runFrom s (x >>= f) = (.error e, s') := by
  rw [runFrom_bind, h]

lemma runFrom_pure {σ : Type} {s : σ} (a : α) :
    runFrom s (pure a : ExceptT ε (StateM σ) α) = (.ok a, s) :=
  rfl

end BlockPainting.Success
