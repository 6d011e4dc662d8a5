import BlockPainting.Proofs.Board.Count
import BlockPainting.Proofs.Board.Footprints
import BlockPainting.Proofs.Board.History

/-!
# Independent instructions commute

Where the live blocks tile the raster, two instructions that name different live blocks, at most one
of them a merge, find each other's blocks as they were. The ids that one of them takes off the board
or puts on it are none of those that the other one does, and their strokes have no pixel in common.
So either may come first, at the same prices and with the same result.
-/

namespace BlockPainting

/-- Instructions that name different blocks, at most one of them a merge. -/
structure Instruction.Independent (i j : Instruction) : Prop where
  different : ∀ id ∈ i.named, id ∉ j.named
  merges : ¬ (i.operation = .merge ∧ j.operation = .merge)

lemma Instruction.Independent.symm {i j : Instruction} (independent : i.Independent j) :
    j.Independent i :=
  ⟨fun id hj hi => independent.different id hi hj, fun h => independent.merges h.symm⟩

namespace Board

open Success InPlace

/-- The boards show the same: live blocks, painting, numbers left, cost and count. -/
structure Same (b b' : Board) : Prop where
  prices_eq : b.prices = b'.prices
  live : ∀ id : BlockId, b.live[id]? = b'.live[id]?
  painted_eq : b.painted = b'.painted
  ids_eq : b.ids = b'.ids
  cost_eq : b.cost = b'.cost
  applied_eq : b.applied = b'.applied

/-- The ids that an instruction may take off a board or put on it. -/
def Concerns (b : Board) (i : Instruction) (id : BlockId) : Prop :=
  (∃ o ∈ i.named, id.Extends o) ∨ i.operation = .merge ∧ id = .top b.ids.next

variable {b : Board} {width height : Nat} {i j : Instruction} {c d : Change} {id id' : BlockId}

lemma Tiled.orderly (tiled : b.Tiled width height) : b.Orderly width height := by
  refine ⟨tiled.toSized, tiled.fresh, ?_⟩
  intro id live id' live' hne
  obtain ⟨block, hblock⟩ := mem_live_iff.mp live
  obtain ⟨block', hblock'⟩ := mem_live_iff.mp live'
  exact tiled.unrelated id id' block block' hblock hblock' hne

lemma concerns_of_named (named : id ∈ i.named) : b.Concerns i id :=
  Or.inl ⟨id, named, BlockId.Extends.refl id⟩

lemma Legal.concerns_removed (legal : b.Legal i c) (sized : b.Sized width height)
    (removed : id ∈ c.removed) : b.Concerns i id := by
  rw [legal.removed_eq sized] at removed
  exact concerns_of_named (Instruction.named_of_consumed removed)

lemma Legal.concerns_added (legal : b.Legal i c) (sized : b.Sized width height) {a : Block}
    (added : a ∈ c.added) : b.Concerns i a.id := by
  cases legal with
  | @color id block paint live =>
    obtain rfl := sized.keyed id block live
    obtain rfl := List.mem_singleton.mp added
    exact concerns_of_named (List.mem_singleton_self block.id)
  | @lineCut id block axis position low high live cut =>
    obtain rfl := sized.keyed id block live
    simp only [List.mem_cons, List.not_mem_nil, or_false] at added
    refine Or.inl ⟨block.id, List.mem_singleton_self block.id, ?_⟩
    rcases added with rfl | rfl <;> exact block.id.child_extends _
  | @pointCut id block x y quarters live cut =>
    obtain rfl := sized.keyed id block live
    change a ∈ quarters.toList.mapIdx block.part at added
    obtain ⟨k, _, rfl⟩ := List.mem_mapIdx.mp added
    exact Or.inl ⟨block.id, List.mem_singleton_self block.id, block.id.child_extends k⟩
  | merge live live' join left =>
    obtain rfl := List.mem_singleton.mp added
    exact Or.inr ⟨rfl, rfl⟩
  | @swap id id' first second live live' different same =>
    obtain rfl := sized.keyed id first live
    obtain rfl := sized.keyed id' second live'
    simp only [List.mem_cons, List.not_mem_nil, or_false] at added
    rcases added with rfl | rfl
    · exact concerns_of_named List.mem_cons_self
    · exact concerns_of_named (List.mem_cons_of_mem _ List.mem_cons_self)

section Independent

variable (tiled : b.Tiled width height) (independent : i.Independent j) (legal : b.Legal i c)
variable (legal' : b.Legal j d)

include tiled independent legal legal'

lemma unrelated_of_named (named : id ∈ i.named) (named' : id' ∈ j.named) : id.Unrelated id' :=
  tiled.orderly.unrelated id (legal.live_of_named named) id' (legal'.live_of_named named')
    fun heq => independent.different id named (heq ▸ named')

lemma ne_of_concerns (concerns : b.Concerns i id) (concerns' : b.Concerns j id') : id ≠ id' := by
  have hfresh : ∀ {k : Instruction} {e : Change} {o : BlockId}, b.Legal k e → o ∈ k.named →
      o.root < b.ids.next := fun hlegal named =>
    tiled.orderly.rooted.lt (hlegal.live_of_named named)
  rcases concerns with ⟨o, named, below⟩ | ⟨hmerge, rfl⟩
  · rcases concerns' with ⟨o', named', below'⟩ | ⟨_, rfl⟩
    · have hparents := unrelated_of_named tiled independent legal legal' named named'
      exact ((hparents.of_extends below).symm.of_extends below').symm.ne
    · rintro rfl
      exact (hfresh legal named).ne below.1.symm
  · rcases concerns' with ⟨o', named', below'⟩ | ⟨hmerge', _⟩
    · rintro rfl
      exact (hfresh legal' named').ne below'.1.symm
    · exact absurd ⟨hmerge, hmerge'⟩ independent.merges

lemma live_commit_of_concerns (concerns : b.Concerns i id) :
    (b.commit d).live[id]? = b.live[id]? := by
  refine getElem?_commit ?_ ?_
  · intro a added heq
    have hadded := legal'.concerns_added tiled.toSized added
    exact ne_of_concerns tiled independent legal legal' concerns hadded heq.symm
  · intro removed
    have hremoved := legal'.concerns_removed tiled.toSized removed
    exact ne_of_concerns tiled independent legal legal' concerns hremoved rfl

/-- An instruction does the same after an independent one; only the numbers left may be others. -/
lemma exists_legal_after : ∃ ids, (b.commit d).Legal i { c with ids } := by
  have hlive : ∀ id ∈ i.named, (b.commit d).live[id]? = b.live[id]? := fun id named =>
    live_commit_of_concerns tiled independent legal legal' (concerns_of_named named)
  cases legal with
  | color paint live =>
    exact ⟨d.ids, .color paint ((hlive _ List.mem_cons_self).trans live)⟩
  | lineCut live cut =>
    exact ⟨d.ids, .lineCut ((hlive _ List.mem_cons_self).trans live) cut⟩
  | pointCut live cut =>
    exact ⟨d.ids, .pointCut ((hlive _ List.mem_cons_self).trans live) cut⟩
  | @merge id id' first second rect live live' join left =>
    -- The other instruction is no merge and leaves the next number to this one.
    have hids : (b.commit d).ids = b.ids := by
      have hnext : d.ids.next = b.ids.next + numbersTaken j := legal'.next_eq
      have htaken : numbersTaken j = 0 := by
        cases j with
        | merge e e' => exact absurd ⟨rfl, rfl⟩ independent.merges
        | _ => rfl
      rw [htaken] at hnext
      exact congrArg IdSupply.mk hnext
    have hmerge := Legal.merge (b := b.commit d) ((hlive _ List.mem_cons_self).trans live)
      ((hlive _ (List.mem_cons_of_mem _ List.mem_cons_self)).trans live') join
      (by rwa [hids])
    rw [hids] at hmerge
    exact ⟨_, hmerge⟩
  | swap live live' different same =>
    exact ⟨d.ids, .swap ((hlive _ List.mem_cons_self).trans live)
      ((hlive _ (List.mem_cons_of_mem _ List.mem_cons_self)).trans live') different same⟩

lemma live_commit_commit_iff {ids : IdSupply} {block : Block} :
    ((b.commit c).commit { d with ids }).live[id]? = some block ↔
      (block ∈ c.added ∨ block ∈ d.added) ∧ block.id = id ∨
        (∀ a ∈ c.added, a.id ≠ id) ∧ (∀ a ∈ d.added, a.id ≠ id) ∧ id ∉ c.removed ∧
          id ∉ d.removed ∧ b.live[id]? = some block := by
  have hdistinct : ({ d with ids } : Change).added.Pairwise fun a a' => a.id ≠ a'.id :=
    legal'.distinct
  have hdifferent : block ∈ c.added → block.id = id →
      (∀ a ∈ d.added, a.id ≠ id) ∧ id ∉ d.removed := by
    rintro added rfl
    have hconcerns := legal.concerns_added tiled.toSized added
    constructor
    · intro a added' heq
      have hconcerns' := legal'.concerns_added tiled.toSized added'
      exact ne_of_concerns tiled independent legal legal' hconcerns hconcerns' heq.symm
    · intro removed
      have hconcerns' := legal'.concerns_removed tiled.toSized removed
      exact ne_of_concerns tiled independent legal legal' hconcerns hconcerns' rfl
  rw [live_commit_iff hdistinct, live_commit_iff legal.distinct]
  constructor
  · rintro (⟨added', hid⟩ | ⟨hadded', hremoved', ⟨added, hid⟩ | ⟨hadded, hremoved, live⟩⟩)
    · exact Or.inl ⟨Or.inr added', hid⟩
    · exact Or.inl ⟨Or.inl added, hid⟩
    · exact Or.inr ⟨hadded, hadded', hremoved, hremoved', live⟩
  · rintro (⟨added | added', hid⟩ | ⟨hadded, hadded', hremoved, hremoved', live⟩)
    · obtain ⟨hadded', hremoved'⟩ := hdifferent added hid
      exact Or.inr ⟨hadded', hremoved', Or.inl ⟨added, hid⟩⟩
    · exact Or.inl ⟨added', hid⟩
    · exact Or.inr ⟨hadded', hremoved', Or.inr ⟨hadded, hremoved, live⟩⟩

end Independent

lemma Legal.named_of_footprint (legal : b.Legal i c) {rect : Rect}
    (mem : rect ∈ c.stroke.footprint) :
    ∃ id ∈ i.named, ∃ block, b.live[id]? = some block ∧ block.rect = rect := by
  cases legal with
  | @color id block paint live =>
    obtain rfl := List.mem_singleton.mp mem
    exact ⟨id, List.mem_cons_self, block, live, rfl⟩
  | lineCut live cut => cases mem
  | pointCut live cut => cases mem
  | merge live live' join left => cases mem
  | @swap id id' first second live live' different same =>
    simp only [Stroke.footprint, List.mem_cons, List.not_mem_nil, or_false] at mem
    rcases mem with rfl | rfl
    · exact ⟨id', List.mem_cons_of_mem _ List.mem_cons_self, second, live', rfl⟩
    · exact ⟨id, List.mem_cons_self, first, live, rfl⟩

lemma Tiled.fits (tiled : b.Tiled width height) (legal : b.Legal i c) :
    c.stroke.Fits width height := by
  cases legal with
  | color paint live => exact tiled.within _ _ live
  | lineCut live cut => trivial
  | pointCut live cut => trivial
  | merge live live' join left => trivial
  | @swap id id' first second live live' different same =>
    obtain rfl := tiled.keyed id first live
    obtain rfl := tiled.keyed id' second live'
    have hsizes := of_decide_eq_true same
    exact ⟨tiled.within _ _ live', tiled.within _ _ live,
      decide_eq_true ⟨hsizes.1.symm, hsizes.2.symm⟩,
      tiled.apart _ _ _ _ live' live different.symm⟩

lemma Tiled.footprints_apart (tiled : b.Tiled width height) (independent : i.Independent j)
    (legal : b.Legal i c) (legal' : b.Legal j d) :
    ∀ r ∈ c.stroke.footprint, ∀ r' ∈ d.stroke.footprint, r.Apart r' := by
  intro r mem r' mem'
  obtain ⟨id, named, block, live, rfl⟩ := legal.named_of_footprint mem
  obtain ⟨id', named', block', live', rfl⟩ := legal'.named_of_footprint mem'
  exact tiled.apart id id' block block' live live'
    fun heq => independent.different id named (heq ▸ named')

/-- Two independent changes can be made in either order, with the same result. -/
theorem Tiled.commute (tiled : b.Tiled width height) (independent : i.Independent j)
    (legal : b.Legal i c) (legal' : b.Legal j d) :
    ∃ ids ids', (b.commit c).Legal j { d with ids } ∧ (b.commit d).Legal i { c with ids := ids' } ∧
      ((b.commit c).commit { d with ids }).Same ((b.commit d).commit { c with ids := ids' }) := by
  obtain ⟨ids, hj⟩ := exists_legal_after tiled independent.symm legal' legal
  obtain ⟨ids', hi⟩ := exists_legal_after tiled independent legal legal'
  refine ⟨ids, ids', hj, hi, rfl, ?_, ?_, ?_, ?_, rfl⟩
  · intro id
    ext block
    rw [live_commit_commit_iff tiled independent legal legal',
      live_commit_commit_iff tiled independent.symm legal' legal]
    constructor
    · rintro (⟨added, hid⟩ | ⟨hadded, hadded', hremoved, hremoved', live⟩)
      · exact Or.inl ⟨added.symm, hid⟩
      · exact Or.inr ⟨hadded', hadded, hremoved', hremoved, live⟩
    · rintro (⟨added, hid⟩ | ⟨hadded, hadded', hremoved, hremoved', live⟩)
      · exact Or.inl ⟨added.symm, hid⟩
      · exact Or.inr ⟨hadded', hadded, hremoved', hremoved, live⟩
  · have fits := tiled.fits legal
    have fits' := tiled.fits legal'
    have apart := tiled.footprints_apart independent legal legal'
    rw [← tiled.width_eq, ← tiled.height_eq] at fits fits'
    exact Raster.stroke_comm fits fits' apart
  · have hnext : c.ids.next = b.ids.next + numbersTaken i := legal.next_eq
    have hnext' : d.ids.next = b.ids.next + numbersTaken j := legal'.next_eq
    have hlast : ids.next = c.ids.next + numbersTaken j := hj.next_eq
    have hlast' : ids'.next = d.ids.next + numbersTaken i := hi.next_eq
    exact congrArg IdSupply.mk (by omega)
  · exact Nat.add_right_comm b.cost c.cost d.cost

/-- On every board that instructions, refused ones included, lead to from the blocks of an accepted
layout, none of whose ids is a prefix of another: of two independent instructions that each succeed,
either may be carried out first. Both succeed in either order, each at the price it has alone, and
the two boards show the same. -/
theorem independent_steps_commute {layout : Layout} {target : Raster} {blocks : List Block}
    (accepted : layout.validate target = .ok blocks)
    (unrelated : blocks.Pairwise fun a a' => a.id.Unrelated a'.id) :
    ∃ first, start target.width target.height blocks = .ok first ∧ ∀ program b,
      first.feed program = b → ∀ i j, i.Independent j → ∀ price price' next next',
      runFrom b (step i) = (.ok price, next) → runFrom b (step j) = (.ok price', next') →
      ∃ last last', runFrom next (step j) = (.ok price', last) ∧
        runFrom next' (step i) = (.ok price, last') ∧ last.Same last' := by
  obtain ⟨first, hfirst, htiled⟩ := (tiled_of_accepted accepted).2 unrelated
  refine ⟨first, hfirst, ?_⟩
  rintro program b rfl i j independent price price' next next' ran ran'
  have hbegun : first.Tiled target.width target.height := htiled []
  have tiled := htiled program
  rw [← feed_eq_attemptAll hbegun.toSized] at tiled
  obtain ⟨c, legal, rfl, rfl⟩ := legal_of_runFrom_step tiled.toSized ran
  obtain ⟨d, legal', rfl, rfl⟩ := legal_of_runFrom_step tiled.toSized ran'
  obtain ⟨ids, ids', hj, hi, same⟩ := tiled.commute independent legal legal'
  have hrun := runFrom_step_of_legal (tiled.toSized.commit legal.distinct) hj
  have hrun' := runFrom_step_of_legal (tiled.toSized.commit legal'.distinct) hi
  exact ⟨_, _, hrun, hrun', same⟩

theorem independent_steps_commute_of_pairLayout :
    ∃ blocks first, (pairLayout (.top 1)).validate (.filled 3 1 .white) = .ok blocks ∧
      start 3 1 blocks = .ok first ∧ ∃ price price' next next' last last',
        runFrom first (step (.lineCut (.top 0) .x 1)) = (.ok price, next) ∧
        runFrom next (step (.color (.top 1) .white)) = (.ok price', last) ∧
        runFrom first (step (.color (.top 1) .white)) = (.ok price', next') ∧
        runFrom next' (step (.lineCut (.top 0) .x 1)) = (.ok price, last') ∧
        last.Same last' := by
  obtain ⟨blocks, accepted, hwhole, hother, unrelated⟩ : ∃ blocks,
      (pairLayout (.top 1)).validate (.filled 3 1 .white) = .ok blocks ∧
        ⟨.top 0, ⟨0, 0, 2, 1, by decide, by decide⟩, some .white⟩ ∈ blocks ∧
        ⟨.top 1, ⟨2, 0, 1, 1, by decide, by decide⟩, some .white⟩ ∈ blocks ∧
        blocks.Pairwise fun a b => a.id.Unrelated b.id :=
    ⟨_, rfl, List.mem_cons_self, List.mem_cons_of_mem _ List.mem_cons_self, by decide⟩
  obtain ⟨first, hfirst, hcommute⟩ := independent_steps_commute accepted unrelated
  obtain ⟨first', hfirst', hlaid⟩ := laid_of_accepted accepted
  obtain rfl := Except.ok.inj (hfirst.symm.trans hfirst')
  have sized : first.Sized 3 1 := Reached.sized ⟨first, hfirst, [], rfl⟩
  have hcut := runFrom_step_of_legal sized <|
    @Legal.lineCut first _ _ .x 1 _ _ ((hlaid.live_iff _ _).mpr ⟨hwhole, rfl⟩) rfl
  have hcolor := runFrom_step_of_legal sized <|
    @Legal.color first _ _ .white ((hlaid.live_iff _ _).mpr ⟨hother, rfl⟩)
  have independent : (Instruction.lineCut (.top 0) .x 1).Independent (.color (.top 1) .white) :=
    ⟨by decide, by decide⟩
  obtain ⟨last, last', hlast, hlast', same⟩ :=
    hcommute [] first rfl _ _ independent _ _ _ _ hcut hcolor
  exact ⟨blocks, first, accepted, hfirst, _, _, _, _, last, last', hcut, hlast, hcolor, hlast', same⟩

end Board

end BlockPainting
