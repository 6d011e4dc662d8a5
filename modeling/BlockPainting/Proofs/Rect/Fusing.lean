import BlockPainting.Proofs.Rect.Cuts

/-!
# Rectangles joined one after the other

A line of rectangles is joined from its near end: what the first ones made is joined with the next.
That works where each rectangle follows the one before it without a gap, be it upward or to the
right. Rectangles with one left edge that can all be joined are equally wide.
-/

namespace BlockPainting.Rect

variable {a b joined r : Rect} {rects : List Rect}

/-- Joining the rectangles to the first, one after the other, makes `r`. -/
inductive Fuses : List Rect → Rect → Prop
  | one (r : Rect) : Fuses [r] r
  | more {a b joined r : Rect} {rest : List Rect} (join : a.join b = .ok joined)
      (fuses : Fuses (joined :: rest) r) : Fuses (a :: b :: rest) r

lemma Fuses.mem_iff (h : Fuses rects r) (p : Nat × Nat) : p ∈ r ↔ ∃ part ∈ rects, p ∈ part := by
  induction h with
  | one r => simp
  | more join fuses ih => simp only [ih, List.exists_mem_cons_iff, join_mem_iff join, or_assoc]

lemma width_of_join (join : a.join b = .ok joined) (hx : a.x = b.x) :
    a.width = b.width ∧ joined.x = a.x ∧ joined.width = a.width := by
  have ha := a.width_pos
  have hb := b.width_pos
  simp only [Rect.join] at join
  split at join
  · rename_i stacked
    cases join
    exact ⟨stacked.2.1, rfl, rfl⟩
  · split at join
    · rename_i beside
      unfold right at beside
      omega
    · cases join

lemma Fuses.width_eq (h : Fuses rects r) {x : Nat} (same : ∀ a ∈ rects, a.x = x) :
    r.x = x ∧ ∀ a ∈ rects, a.width = r.width := by
  induction h with
  | one r => simpa using same
  | @more a b joined r rest join _ ih =>
    simp only [List.forall_mem_cons] at same ih ⊢
    obtain ⟨hax, hbx, hrest⟩ := same
    obtain ⟨hab, hx, hwidth⟩ := width_of_join join (hax.trans hbx.symm)
    obtain ⟨hrx, hjoined, hothers⟩ := ih ⟨hx.trans hax, hrest⟩
    have ha : a.width = r.width := hwidth.symm.trans hjoined
    exact ⟨hrx, ha, hab.symm.trans ha, hothers⟩

structure Below (a b : Rect) : Prop where
  x_eq : a.x = b.x
  width_eq : a.width = b.width
  edge : a.top = b.y

structure LeftOf (a b : Rect) : Prop where
  y_eq : a.y = b.y
  height_eq : a.height = b.height
  edge : a.right = b.x

lemma exists_join_of_below (a b : Rect) (h : a.Below b) :
    ∃ joined, a.join b = .ok joined ∧ ∀ c, b.Below c → joined.Below c := by
  obtain ⟨hx, hwidth, hedge⟩ := h
  refine ⟨_, if_pos ⟨hx, hwidth, Or.inl hedge⟩, ?_⟩
  intro c hc
  refine ⟨hx.trans hc.x_eq, hwidth.trans hc.width_eq, ?_⟩
  have htop := hc.edge
  simp only [top] at hedge htop ⊢
  omega

lemma exists_join_of_leftOf (a b : Rect) (h : a.LeftOf b) :
    ∃ joined, a.join b = .ok joined ∧ ∀ c, b.LeftOf c → joined.LeftOf c := by
  obtain ⟨hy, hheight, hedge⟩ := h
  have ha := a.width_pos
  have hstacked : ¬ (a.x = b.x ∧ a.width = b.width ∧ (a.top = b.y ∨ b.top = a.y)) := by
    unfold right at hedge
    omega
  refine ⟨_, (if_neg hstacked).trans (if_pos ⟨hy, hheight, Or.inl hedge⟩), ?_⟩
  intro c hc
  refine ⟨hy.trans hc.y_eq, hheight.trans hc.height_eq, ?_⟩
  have hright := hc.edge
  simp only [right] at hedge hright ⊢
  omega

lemma exists_fuses {follows : Rect → Rect → Prop}
    (step : ∀ a b, follows a b →
      ∃ joined, a.join b = .ok joined ∧ ∀ c, follows b c → follows joined c)
    (hne : rects ≠ []) (chain : rects.IsChain follows) : ∃ r, Fuses rects r := by
  obtain ⟨first, rest, rfl⟩ := List.exists_cons_of_ne_nil hne
  clear hne
  induction rest generalizing first with
  | nil => exact ⟨first, Fuses.one first⟩
  | cons next rest ih =>
    obtain ⟨hfollows, hchain⟩ := List.isChain_cons_cons.mp chain
    obtain ⟨joined, hjoin, hnext⟩ := step first next hfollows
    obtain ⟨hhead, htail⟩ := List.isChain_cons.mp hchain
    obtain ⟨r, hr⟩ := ih joined (List.isChain_cons.mpr ⟨fun c hc => hnext c (hhead c hc), htail⟩)
    exact ⟨r, Fuses.more hjoin hr⟩

/-- Spans in order that leave out no number below the end meet where one ends and the next
begins. -/
lemma isChain_of_covers {α : Type} {low high : α → Nat} {list : List α} (size : Nat)
    (within : ∀ a ∈ list, low a < high a ∧ high a ≤ size)
    (sorted : list.Pairwise fun a b => high a ≤ low b)
    (covers : ∀ n < size, (∃ a ∈ list, low a ≤ n) → ∃ a ∈ list, low a ≤ n ∧ n < high a) :
    list.IsChain fun a b => high a = low b := by
  induction list with
  | nil => exact List.IsChain.nil
  | cons a rest ih =>
    obtain ⟨hsorted, hrest⟩ := List.pairwise_cons.mp sorted
    obtain ⟨ha, hwithin⟩ := List.forall_mem_cons.mp within
    have htail : rest.IsChain fun a b => high a = low b := by
      refine ih hwithin hrest ?_
      rintro n hn ⟨b, hb, hlow⟩
      obtain ⟨c, hc, hcn, hnc⟩ := covers n hn ⟨b, List.mem_cons_of_mem a hb, hlow⟩
      rcases List.mem_cons.mp hc with rfl | hc
      · have hcb := hsorted b hb
        omega
      · exact ⟨c, hc, hcn, hnc⟩
    cases rest with
    | nil => exact List.IsChain.singleton a
    | cons b rest =>
      refine List.isChain_cons_cons.mpr ⟨?_, htail⟩
      have hab := hsorted b List.mem_cons_self
      have hb := hwithin b List.mem_cons_self
      by_contra hne
      -- Otherwise the first number beyond `a` is left out.
      obtain ⟨c, hc, hlow, hhigh⟩ :=
        covers (high a) (by omega) ⟨a, List.mem_cons_self, by omega⟩
      simp only [List.mem_cons] at hc
      rcases hc with rfl | rfl | hc
      · omega
      · omega
      · have hbc := (List.pairwise_cons.mp hrest).1 c hc
        omega

end BlockPainting.Rect
