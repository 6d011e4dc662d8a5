import BlockPainting.Proofs.Board.InPlace

/-!
# The history of the ids

After a change the live ids are those that were live and not removed, children of those removed, and
the next fresh number. So where no live id extends another, an id that is no longer live has no live
ancestor, and neither its ancestors nor itself come back. As fresh numbers only go up, a merge never
finds one that was in use before.
-/

namespace BlockPainting

/-- The ids that an instruction names, in the order in which they are looked up. -/
def Instruction.named : Instruction → List BlockId
  | .color id _ => [id]
  | .lineCut id _ _ => [id]
  | .pointCut id _ _ => [id]
  | .merge id id' => [id, id']
  | .swap id id' => [id, id']

/-- The ids that a successful instruction takes off the board. -/
def Instruction.consumed : Instruction → List BlockId
  | .color .. => []
  | .lineCut id _ _ => [id]
  | .pointCut id _ _ => [id]
  | .merge id id' => [id, id']
  | .swap .. => []

lemma Instruction.named_of_consumed {i : Instruction} {id : BlockId} (h : id ∈ i.consumed) :
    id ∈ i.named := by
  cases i with
  | color => cases h
  | swap => cases h
  | lineCut => exact h
  | pointCut => exact h
  | merge => exact h

namespace Board

open Success InPlace

def missing (b : Board) (ids : List BlockId) : Option BlockId :=
  ids.find? fun id => !b.live.contains id

def Born (b : Board) (i : Instruction) (id : BlockId) : Prop :=
  id ∉ b.live ∧ id ∈ (runFrom b (step i)).2.live

/-- The blocks are filed under their ids, which are unrelated and below the next fresh number. -/
structure Orderly (b : Board) (width height : Nat) : Prop extends Sized b width height where
  rooted : b.Rooted
  unrelated : ∀ id ∈ b.live, ∀ id' ∈ b.live, id ≠ id' → id.Unrelated id'

/-- The id is below the next fresh number, and neither it nor an ancestor of it is live. -/
structure Gone (b : Board) (id : BlockId) : Prop where
  used : id.root < b.ids.next
  ancestor : ∀ o ∈ b.live, ¬ id.Extends o

/-- Where an id that is live after a change comes from. -/
inductive Follows (b : Board) (c : Change) : BlockId → Prop
  | kept {id : BlockId} (live : id ∈ b.live) (stays : id ∉ c.removed) : Follows b c id
  | part {id : BlockId} (k : Nat) (live : id ∈ b.live) (removed : id ∈ c.removed) :
      Follows b c (id.child k)
  | fresh : Follows b c (.top b.ids.next)

variable {b : Board} {width height : Nat} {i : Instruction} {c : Change} {id : BlockId}

lemma Rooted.lt (rooted : b.Rooted) (live : id ∈ b.live) : id.root < b.ids.next := by
  obtain ⟨block, hblock⟩ := mem_live_iff.mp live
  exact rooted id block hblock

lemma Legal.removed_eq (legal : b.Legal i c) (sized : b.Sized width height) :
    c.removed = i.consumed := by
  cases legal with
  | color paint live => rfl
  | lineCut live cut => rw [sized.keyed _ _ live]; rfl
  | pointCut live cut => rw [sized.keyed _ _ live]; rfl
  | merge live live' join left => rw [sized.keyed _ _ live, sized.keyed _ _ live']; rfl
  | swap live live' different same => rfl

lemma Legal.live_of_named (legal : b.Legal i c) (named : id ∈ i.named) : id ∈ b.live := by
  cases legal with
  | color paint live =>
    obtain rfl := List.mem_singleton.mp named
    exact mem_of_live live
  | lineCut live cut =>
    obtain rfl := List.mem_singleton.mp named
    exact mem_of_live live
  | pointCut live cut =>
    obtain rfl := List.mem_singleton.mp named
    exact mem_of_live live
  | merge live live' join left =>
    simp only [Instruction.named, List.mem_cons, List.not_mem_nil, or_false] at named
    rcases named with rfl | rfl
    · exact mem_of_live live
    · exact mem_of_live live'
  | swap live live' different same =>
    simp only [Instruction.named, List.mem_cons, List.not_mem_nil, or_false] at named
    rcases named with rfl | rfl
    · exact mem_of_live live
    · exact mem_of_live live'

lemma Legal.follows (legal : b.Legal i c) (sized : b.Sized width height)
    (after : id ∈ (b.commit c).live) : b.Follows c id := by
  obtain ⟨block, hblock⟩ := mem_live_iff.mp after
  rcases (live_commit_iff legal.distinct).mp hblock with ⟨added, rfl⟩ | ⟨_, stays, hold⟩
  · clear hblock after
    cases legal with
    | @color id whole paint live =>
      obtain rfl := sized.keyed id whole live
      obtain rfl := List.mem_singleton.mp added
      exact .kept (mem_of_live live) List.not_mem_nil
    | @lineCut id whole axis position low high live cut =>
      obtain rfl := sized.keyed id whole live
      simp only [List.mem_cons, List.not_mem_nil, or_false] at added
      rcases added with rfl | rfl <;>
        exact .part _ (mem_of_live live) (List.mem_singleton_self _)
    | @pointCut id whole x y quarters live cut =>
      obtain rfl := sized.keyed id whole live
      change block ∈ quarters.toList.mapIdx whole.part at added
      obtain ⟨k, _, rfl⟩ := List.mem_mapIdx.mp added
      exact .part k (mem_of_live live) (List.mem_singleton_self _)
    | merge live live' join left =>
      obtain rfl := List.mem_singleton.mp added
      exact .fresh
    | @swap id id' first second live live' different same =>
      obtain rfl := sized.keyed id first live
      obtain rfl := sized.keyed id' second live'
      simp only [List.mem_cons, List.not_mem_nil, or_false] at added
      rcases added with rfl | rfl
      · exact .kept (mem_of_live live) List.not_mem_nil
      · exact .kept (mem_of_live live') List.not_mem_nil
  · exact .kept (mem_of_live hold) stays

namespace Orderly

lemma unrelated_of_follows {id' : BlockId} (orderly : b.Orderly width height)
    (follows : b.Follows c id) (follows' : b.Follows c id') (hne : id ≠ id') :
    id.Unrelated id' := by
  have hkept : ∀ {o o' : BlockId} (k : Nat), o ∈ b.live → o ∉ c.removed → o' ∈ b.live →
      o' ∈ c.removed → o.Unrelated (o'.child k) := by
    intro o o' k live stays live' removed
    have hoo : o' ≠ o := fun heq => stays (heq ▸ removed)
    exact ((orderly.unrelated _ live' _ live hoo).of_extends (o'.child_extends k)).symm
  have hfresh : ∀ {o : BlockId}, o.root < b.ids.next → o.Unrelated (.top b.ids.next) := by
    intro o hlt
    exact ⟨fun h => hlt.ne h.1, fun h => hlt.ne h.1.symm⟩
  -- Nine pairs of origins, of which the symmetric ones share a fact.
  cases follows with
  | kept live stays =>
    cases follows' with
    | kept live' stays' => exact orderly.unrelated _ live _ live' hne
    | part k live' removed' => exact hkept k live stays live' removed'
    | fresh => exact hfresh (orderly.rooted.lt live)
  | @part o j live removed =>
    cases follows' with
    | kept live' stays' => exact (hkept j live' stays' live removed).symm
    | @part o' k live' removed' =>
      by_cases heq : o = o'
      · subst heq
        exact o.child_unrelated fun hjk => hne (hjk ▸ rfl)
      · have hparents := orderly.unrelated _ live _ live' heq
        exact ((hparents.of_extends (o.child_extends j)).symm.of_extends
          (o'.child_extends k)).symm
    | fresh => exact (hfresh (orderly.rooted.lt live)).of_extends (o.child_extends j)
  | fresh =>
    cases follows' with
    | kept live' stays' => exact (hfresh (orderly.rooted.lt live')).symm
    | @part o' k live' removed' =>
      exact ((hfresh (orderly.rooted.lt live')).of_extends (o'.child_extends k)).symm
    | fresh => exact absurd rfl hne

lemma commit (orderly : b.Orderly width height) (legal : b.Legal i c) :
    (b.commit c).Orderly width height := by
  refine ⟨orderly.toSized.commit legal.distinct,
    orderly.rooted.commit orderly.toSized legal, ?_⟩
  intro id live id' live' hne
  exact orderly.unrelated_of_follows (legal.follows orderly.toSized live)
    (legal.follows orderly.toSized live') hne

lemma not_live_of_removed (orderly : b.Orderly width height) (legal : b.Legal i c)
    (live : id ∈ b.live) (removed : id ∈ c.removed) : id ∉ (b.commit c).live := by
  intro after
  cases legal.follows orderly.toSized after with
  | kept _ stays => exact stays removed
  | @part o k hparent _ =>
    exact (orderly.unrelated _ live _ hparent (o.child_ne k)).1 (o.child_extends k)
  | fresh => exact Nat.lt_irrefl _ (orderly.rooted.lt live)

end Orderly

lemma Legal.removed_of_lost (legal : b.Legal i c) (live : id ∈ b.live)
    (lost : id ∉ (b.commit c).live) : id ∈ c.removed := by
  obtain ⟨block, hblock⟩ := mem_live_iff.mp live
  by_contra stays
  refine lost ?_
  by_cases replaced : ∃ a ∈ c.added, a.id = id
  · obtain ⟨a, added, hid⟩ := replaced
    exact mem_of_live ((live_commit_iff legal.distinct).mpr (Or.inl ⟨added, hid⟩))
  · refine mem_of_live ((live_commit_iff legal.distinct).mpr (Or.inr ⟨?_, stays, hblock⟩))
    exact fun a added hid => replaced ⟨a, added, hid⟩

namespace Gone

lemma not_live (gone : b.Gone id) : id ∉ b.live :=
  fun live => gone.ancestor id live (BlockId.Extends.refl id)

lemma commit (gone : b.Gone id) (sized : b.Sized width height) (legal : b.Legal i c) :
    (b.commit c).Gone id := by
  refine ⟨gone.used.trans_le legal.next_le, ?_⟩
  intro o live hextends
  cases legal.follows sized live with
  | kept hold _ => exact gone.ancestor o hold hextends
  | @part parent k hold _ =>
    exact gone.ancestor parent hold (hextends.trans (parent.child_extends k))
  | fresh => exact gone.used.ne hextends.1

lemma of_lost (orderly : b.Orderly width height) (legal : b.Legal i c) (live : id ∈ b.live)
    (lost : id ∉ (b.commit c).live) : (b.commit c).Gone id := by
  refine ⟨(orderly.rooted.lt live).trans_le legal.next_le, ?_⟩
  intro o hlive hextends
  cases legal.follows orderly.toSized hlive with
  | kept hold _ =>
    have hne : id ≠ o := fun heq => lost (heq ▸ hlive)
    exact (orderly.unrelated _ live _ hold hne).1 hextends
  | @part parent k hold _ =>
    by_cases heq : id = parent
    · exact id.not_extends_child k (heq ▸ hextends)
    · exact (orderly.unrelated _ live _ hold heq).1 (hextends.trans (parent.child_extends k))
  | fresh => exact (orderly.rooted.lt live).ne hextends.1

end Gone

lemma feed_append (b : Board) (past future : List Instruction) :
    b.feed (past ++ future) = (b.feed past).feed future :=
  List.foldl_append

/-- What every legal change keeps, every run in place keeps. -/
lemma Orderly.feed_induction {P : Board → Prop} (orderly : b.Orderly width height) (first : P b)
    (step : ∀ b i c, b.Orderly width height → P b → b.Legal i c → P (b.commit c))
    (program : List Instruction) : (b.feed program).Orderly width height ∧ P (b.feed program) := by
  rw [feed_eq_attemptAll orderly.toSized]
  refine attemptAll_induction (P := fun b => b.Orderly width height ∧ P b) ⟨orderly, first⟩ ?_
    program
  rintro b i c ⟨orderly, hb⟩ legal
  exact ⟨orderly.commit legal, step b i c orderly hb legal⟩

lemma Orderly.feed (orderly : b.Orderly width height) (program : List Instruction) :
    (b.feed program).Orderly width height :=
  (orderly.feed_induction (P := fun _ => True) trivial (fun _ _ _ _ _ _ => trivial) program).1

lemma Orderly.after (orderly : b.Orderly width height) {result : Except ReplayError Nat}
    {next : Board} (ran : runFrom b (step i) = (result, next)) : next.Orderly width height := by
  have hfeed := orderly.feed [i]
  rw [feed_cons, ran] at hfeed
  exact hfeed

lemma Gone.feed (gone : b.Gone id) (orderly : b.Orderly width height)
    (program : List Instruction) : (b.feed program).Gone id :=
  (orderly.feed_induction (P := (Gone · id)) gone
    (fun _ _ _ orderly gone legal => gone.commit orderly.toSized legal) program).2

lemma Orderly.next_le_feed (orderly : b.Orderly width height) (program : List Instruction) :
    b.ids.next ≤ (b.feed program).ids.next :=
  (orderly.feed_induction (P := fun b' => b.ids.next ≤ b'.ids.next) (Nat.le_refl _)
    (fun _ _ _ _ hle legal => hle.trans legal.next_le) program).2

/-- An id that is live at some time and not at a later one is gone then. -/
lemma Gone.of_lost_feed (orderly : b.Orderly width height) (live : id ∈ b.live)
    {program : List Instruction} (lost : id ∉ (b.feed program).live) :
    (b.feed program).Gone id := by
  induction program generalizing b with
  | nil => exact absurd live lost
  | cons i rest ih =>
    rw [feed_cons] at lost ⊢
    rcases runFrom_step_cases orderly.toSized i with ⟨c, legal, hrun⟩ | ⟨e, _, hrun⟩
    · rw [hrun] at lost ⊢
      by_cases hmid : id ∈ (b.commit c).live
      · exact ih (orderly.commit legal) hmid lost
      · exact (Gone.of_lost orderly legal live hmid).feed (orderly.commit legal) rest
    · rw [hrun] at lost ⊢
      exact ih orderly live lost

lemma find_of_not_live (dead : id ∉ b.live) : b.find id = .error (.unknownBlock b.applied id) := by
  unfold find
  split
  · rename_i block live
    exact absurd (mem_of_live live) dead
  · rfl

lemma missing_cons (b : Board) (id : BlockId) (rest : List BlockId) :
    b.missing (id :: rest) = if id ∈ b.live then b.missing rest else some id := by
  by_cases live : id ∈ b.live <;> simp [missing, live]

lemma exists_missing {ids : List BlockId} (named : id ∈ ids) (dead : id ∉ b.live) :
    ∃ o, b.missing ids = some o := by
  rw [← Option.isSome_iff_exists, missing, List.find?_isSome]
  exact ⟨id, named, by simpa using dead⟩

lemma find_bind_of_missing {α : Type} {o : BlockId} {rest : List BlockId}
    {f : Block → Except ReplayError α} (h : b.missing (o :: rest) = some id)
    (later : ∀ block, b.missing rest = some id →
      f block = .error (.unknownBlock b.applied id)) :
    (b.find o >>= f) = .error (.unknownBlock b.applied id) := by
  rw [missing_cons] at h
  split at h
  · rename_i live
    obtain ⟨block, hblock⟩ := mem_live_iff.mp live
    exact bind_eq_error.mpr (Or.inr ⟨block, find_eq_ok.mpr hblock, later block h⟩)
  · rename_i dead
    obtain rfl := Option.some.inj h
    exact bind_eq_error.mpr (Or.inl (find_of_not_live dead))

lemma plan_of_missing (h : b.missing i.named = some id) :
    b.plan i = .error (.unknownBlock b.applied id) := by
  have hnone : ∀ {α : Type} {x : Except ReplayError α}, b.missing [] = some id →
      x = .error (.unknownBlock b.applied id) := fun hnil => nomatch hnil
  cases i with
  | color o paint => exact find_bind_of_missing h fun _ => hnone
  | lineCut o axis position => exact find_bind_of_missing h fun _ => hnone
  | pointCut o x y => exact find_bind_of_missing h fun _ => hnone
  | merge o o' =>
    exact find_bind_of_missing h fun _ h' => find_bind_of_missing h' fun _ => hnone
  | swap o o' =>
    exact find_bind_of_missing h fun _ h' => find_bind_of_missing h' fun _ => hnone

lemma Gone.refused (gone : b.Gone id) (sized : b.Sized width height) (named : id ∈ i.named) :
    ∃ o, b.missing i.named = some o ∧
      runFrom b (step i) = (.error (.unknownBlock b.applied o), b) := by
  obtain ⟨o, ho⟩ := exists_missing named gone.not_live
  refine ⟨o, ho, ?_⟩
  rw [runFrom_step sized, plan_of_missing ho]

namespace Orderly

/-- What a successful instruction consumes was live and is gone. -/
lemma gone_of_consumed (orderly : b.Orderly width height) {cost : Nat} {next : Board}
    (ran : runFrom b (step i) = (.ok cost, next)) (consumed : id ∈ i.consumed) :
    id ∈ b.live ∧ next.Gone id := by
  rcases runFrom_step_cases orderly.toSized i with ⟨c, legal, hrun⟩ | ⟨e, _, hrun⟩
  · cases hrun.symm.trans ran
    have live := legal.live_of_named (Instruction.named_of_consumed consumed)
    rw [← legal.removed_eq orderly.toSized] at consumed
    exact ⟨live, Gone.of_lost orderly legal live (orderly.not_live_of_removed legal live consumed)⟩
  · cases hrun.symm.trans ran

lemma consumed_of_lost (orderly : b.Orderly width height) (live : id ∈ b.live)
    (lost : id ∉ (runFrom b (step i)).2.live) :
    id ∈ i.consumed ∧ ∃ cost, (runFrom b (step i)).1 = .ok cost := by
  rcases runFrom_step_cases orderly.toSized i with ⟨c, legal, hrun⟩ | ⟨e, _, hrun⟩
  · rw [hrun] at lost ⊢
    rw [← legal.removed_eq orderly.toSized]
    exact ⟨legal.removed_of_lost live lost, c.cost, rfl⟩
  · rw [hrun] at lost
    exact absurd live lost

/-- A successful merge brings one id to life, the top-level block with the next fresh number. -/
lemma born_merge_iff (orderly : b.Orderly width height) {a a' : BlockId} {cost : Nat}
    {next : Board} (merged : runFrom b (step (.merge a a')) = (.ok cost, next)) :
    b.ids.next ≤ maxRoot ∧ next.ids.next = b.ids.next + 1 ∧
      ∀ id, b.Born (.merge a a') id ↔ id = .top b.ids.next := by
  simp only [Born, merged]
  rcases runFrom_step_cases orderly.toSized (.merge a a') with ⟨c, legal, hrun⟩ | ⟨e, _, hrun⟩
  · cases hrun.symm.trans merged
    have hdistinct := legal.distinct
    cases legal with
    | merge live live' join left =>
      refine ⟨left, rfl, ?_⟩
      intro id
      constructor
      · rintro ⟨dead, after⟩
        obtain ⟨block, hblock⟩ := mem_live_iff.mp after
        rcases (live_commit_iff hdistinct).mp hblock with ⟨added, rfl⟩ | ⟨_, _, hold⟩
        · rw [List.mem_singleton.mp added]
        · exact absurd (mem_of_live hold) dead
      · rintro rfl
        refine ⟨fun live => Nat.lt_irrefl _ (orderly.rooted.lt live), ?_⟩
        exact mem_of_live ((live_commit_iff hdistinct).mpr
          (Or.inl ⟨List.mem_singleton_self _, rfl⟩))
  · cases hrun.symm.trans merged

lemma root_of_born_merge (orderly : b.Orderly width height) {a a' : BlockId}
    (born : b.Born (.merge a a') id) : id.root = b.ids.next := by
  rcases runFrom_step_cases orderly.toSized (.merge a a') with ⟨c, _, hrun⟩ | ⟨e, _, hrun⟩
  · rw [((orderly.born_merge_iff hrun).2.2 id).mp born]
    rfl
  · rw [Born, hrun] at born
    exact absurd born.2 born.1

lemma root_lt_next (orderly : b.Orderly width height) {earlier past : List Instruction}
    (before : earlier <+: past) (live : id ∈ (b.feed earlier).live) :
    id.root < (b.feed past).ids.next := by
  obtain ⟨rest, rfl⟩ := before
  have hlt := (orderly.feed earlier).rooted.lt live
  have hle := (orderly.feed earlier).next_le_feed rest
  rw [feed_append]
  omega

lemma merge_refused (orderly : b.Orderly width height) (spent : maxRoot < b.ids.next)
    (a a' : BlockId) : ∃ e, runFrom b (step (.merge a a')) = (.error e, b) := by
  rcases runFrom_step_cases orderly.toSized (.merge a a') with ⟨c, _, hrun⟩ | ⟨e, _, hrun⟩
  · have hleft := (orderly.born_merge_iff hrun).1
    omega
  · exact ⟨e, hrun⟩

end Orderly

lemma orderly_of_start {initial : List Block} {first : Board}
    (h : start width height initial = .ok first)
    (unrelated : initial.Pairwise fun a a' => a.id.Unrelated a'.id) :
    first.Orderly width height := by
  refine ⟨Reached.sized ⟨first, h, [], rfl⟩, rooted_of_start h, ?_⟩
  intro id live id' live' hne
  obtain ⟨block, hblock⟩ := mem_live_iff.mp live
  obtain ⟨block', hblock'⟩ := mem_live_iff.mp live'
  obtain ⟨hmem, rfl⟩ := (live_start_iff h).mp hblock
  obtain ⟨hmem', rfl⟩ := (live_start_iff h).mp hblock'
  exact unrelated.forall hmem hmem' fun heq => hne (heq ▸ rfl)

/-- From initial blocks with unrelated ids, every id is live during at most one stretch of a run.
The stretch ends only with a cut or merge that consumes the id. Afterwards the id is never live
again, and an instruction that names it changes nothing and fails on the first id it names that is
not live. A merge brings one id to life, with a number above all numbers seen so far and below those
of later merges. Once the last number was seen, every merge fails and changes nothing. -/
theorem ids_never_reused {target : Raster} {initial : List Block}
    (unrelated : initial.Pairwise fun a a' => a.id.Unrelated a'.id) :
    ∃ first, start target.width target.height initial = .ok first ∧
      (∀ past between future id, id ∈ (first.feed past).live →
        id ∉ (first.feed (past ++ between)).live →
        id ∉ (first.feed (past ++ between ++ future)).live) ∧
      (∀ past i id, id ∈ (first.feed past).live → id ∉ (first.feed (past ++ [i])).live →
        id ∈ i.consumed ∧ ∃ cost, (runFrom (first.feed past) (step i)).1 = .ok cost) ∧
      (∀ past i future cost next, runFrom (first.feed past) (step i) = (.ok cost, next) →
        ∀ id ∈ i.consumed, id ∈ (first.feed past).live ∧
          ∀ b, first.feed (past ++ i :: future) = b → id ∉ b.live ∧
            ∀ j, id ∈ j.named → ∃ o, b.missing j.named = some o ∧
              runFrom b (step j) = (.error (.unknownBlock b.applied o), b)) ∧
      (∀ past a a' cost next, runFrom (first.feed past) (step (.merge a a')) = (.ok cost, next) →
        ∃ m ≤ maxRoot, (∀ id, (first.feed past).Born (.merge a a') id ↔ id = .top m) ∧
          (∀ earlier, earlier <+: past → ∀ id ∈ (first.feed earlier).live, id.root < m) ∧
          ∀ future e e' id, (first.feed (past ++ .merge a a' :: future)).Born (.merge e e') id →
            m < id.root) ∧
      (∀ past future id, id ∈ (first.feed past).live → maxRoot ≤ id.root →
        ∀ a a', ∃ e, runFrom (first.feed (past ++ future)) (step (.merge a a')) =
          (.error e, first.feed (past ++ future))) := by
  have hdistinct : initial.Pairwise fun a a' => a.id ≠ a'.id :=
    unrelated.imp BlockId.Unrelated.ne
  obtain ⟨first, hfirst⟩ := @exists_start target.width target.height initial hdistinct
  have horderly := orderly_of_start hfirst unrelated
  refine ⟨first, hfirst, ?_, ?_, ?_, ?_, ?_⟩
  · intro past between future id live lost
    rw [feed_append] at lost
    have hgone := Gone.of_lost_feed (horderly.feed past) live lost
    rw [feed_append, feed_append]
    exact (hgone.feed ((horderly.feed past).feed between) future).not_live
  · intro past i id live lost
    rw [feed_append] at lost
    exact (horderly.feed past).consumed_of_lost live lost
  · rintro past i future cost next ran id consumed
    obtain ⟨live, hgone⟩ := (horderly.feed past).gone_of_consumed ran consumed
    refine ⟨live, ?_⟩
    rintro b rfl
    have horderly' := (horderly.feed past).after ran
    rw [feed_append, feed_cons, ran]
    exact ⟨(hgone.feed horderly' future).not_live,
      fun j named => (hgone.feed horderly' future).refused (horderly'.feed future).toSized named⟩
  · intro past a a' cost next merged
    obtain ⟨left, hids, hborn⟩ := (horderly.feed past).born_merge_iff merged
    refine ⟨(first.feed past).ids.next, left, hborn, fun _ before _ => horderly.root_lt_next before,
      ?_⟩
    intro future e e' id born
    have hle := ((horderly.feed past).after merged).next_le_feed future
    rw [(horderly.feed _).root_of_born_merge born, feed_append, feed_cons, merged]
    change (first.feed past).ids.next < (next.feed future).ids.next
    omega
  · intro past future id live last a a'
    have hlt := horderly.root_lt_next (List.prefix_append past future) live
    exact (horderly.feed _).merge_refused (by omega) a a'

def twoPixels : List Block :=
  [⟨.top 0, ⟨0, 0, 2, 1, Nat.two_pos, Nat.one_pos⟩, some .white⟩]

theorem ids_never_reused_of_twoPixels :
    ∃ first, start 2 1 twoPixels = .ok first ∧
      ∀ future b, first.feed (.lineCut (.top 0) .x 1 :: future) = b → BlockId.top 0 ∉ b.live ∧
        ∀ j, BlockId.top 0 ∈ j.named → ∃ o, b.missing j.named = some o ∧
          runFrom b (step j) = (.error (.unknownBlock b.applied o), b) := by
  obtain ⟨first, hfirst, _, _, hconsumed, _⟩ :=
    @ids_never_reused (.filled 2 1 .white) twoPixels (by decide)
  have live : first.live[BlockId.top 0]? =
      some ⟨.top 0, ⟨0, 0, 2, 1, by decide, by decide⟩, some .white⟩ :=
    (live_start_iff hfirst).mpr (by simp [twoPixels])
  have hsized : first.Sized 2 1 := Reached.sized ⟨first, hfirst, [], rfl⟩
  obtain ⟨c, legal⟩ := (exists_legal_iff (i := .lineCut (.top 0) .x 1) hsized).mpr
    ⟨_, live, Nat.zero_lt_one, Nat.one_lt_two⟩
  have hrun := runFrom_step (i := .lineCut (.top 0) .x 1) hsized
  rw [plan_eq_ok_iff.mpr legal] at hrun
  refine ⟨first, hfirst, ?_⟩
  intro future
  exact (hconsumed [] _ future _ _ hrun _ (List.mem_singleton_self _)).2

end Board

end BlockPainting
