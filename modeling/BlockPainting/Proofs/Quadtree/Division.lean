import BlockPainting.ColorEstimate
import BlockPainting.Proofs.Rect.Pixels

/-!
# How a quadtree divides a raster

The nodes of a tree are divided at their middle until the last level or a side of one pixel is
reached. So the parts of a node tile it, and of the nodes at one depth no two share a pixel.
-/

namespace BlockPainting.Quadtree

/-- All nodes of a tree, each before those below it. -/
def nodes : Quadtree → List Quadtree
  | leaf depth rect color => [leaf depth rect color]
  | node depth rect color bottomLeft bottomRight topRight topLeft =>
    node depth rect color bottomLeft bottomRight topRight topLeft ::
      (bottomLeft.nodes ++ bottomRight.nodes ++ topRight.nodes ++ topLeft.nodes)

/-- The node is a leaf exactly if it is in the last level or one pixel wide or high. The parts of any
other node are the quarters of a cut through its middle, one level deeper. -/
structure Divided (levels : Nat) (t : Quadtree) : Prop where
  leaf_iff : t.children = [] ↔ t.depth + 1 = levels ∨ t.rect.width < 2 ∨ t.rect.height < 2
  quartered : t.children ≠ [] → ∃ q : Quarters Rect,
    t.rect.cutPoint (t.rect.x + (t.rect.width + 1) / 2) (t.rect.y + (t.rect.height + 1) / 2) =
      .ok q ∧ t.children.map rect = q.toList
  deeper : ∀ s ∈ t.children, s.depth = t.depth + 1

variable {t s s' : Quadtree} {levels : Nat}

lemma induction_children {P : Quadtree → Prop} (step : ∀ t, (∀ s ∈ t.children, P s) → P t)
    (t : Quadtree) : P t := by
  induction t with
  | leaf depth rect color => exact step _ fun s hs => absurd hs List.not_mem_nil
  | node depth rect color bottomLeft bottomRight topRight topLeft ih₁ ih₂ ih₃ ih₄ =>
    refine step _ ?_
    simp only [children, List.forall_mem_cons]
    exact ⟨ih₁, ih₂, ih₃, ih₄, fun s hs => absurd hs List.not_mem_nil⟩

lemma nodes_eq (t : Quadtree) : t.nodes = t :: t.children.flatMap nodes := by
  cases t <;> simp [nodes, children, List.flatMap_cons]

lemma mem_nodes_iff : s ∈ t.nodes ↔ s = t ∨ ∃ part ∈ t.children, s ∈ part.nodes := by
  rw [nodes_eq, List.mem_cons, List.mem_flatMap]

lemma mem_nodes_self (t : Quadtree) : t ∈ t.nodes :=
  mem_nodes_iff.mpr (Or.inl rfl)

lemma mem_nodes_of_mem_children (part : s ∈ t.children) {u : Quadtree} (below : u ∈ s.nodes) :
    u ∈ t.nodes :=
  mem_nodes_iff.mpr (Or.inr ⟨s, part, below⟩)

lemma eq_of_pairwise_apart {found : List Quadtree}
    (apart : found.Pairwise fun u u' => u.rect.Apart u'.rect) (mem : s ∈ found) (mem' : s' ∈ found)
    {p : Nat × Nat} (hp : p ∈ s.rect) (hp' : p ∈ s'.rect) : s = s' := by
  by_contra hne
  have : Std.Symm fun u u' : Quadtree => u.rect.Apart u'.rect :=
    ⟨fun u u' h => Std.Symm.symm u.rect u'.rect h⟩
  exact apart.forall mem mem' hne p hp hp'

lemma Divided.tiles (divided : t.Divided levels) (inner : t.children ≠ []) :
    Rect.Tiles (t.children.map rect) t.rect := by
  obtain ⟨q, hcut, hrects⟩ := divided.quartered inner
  rw [hrects]
  exact Rect.cutPoint_tiles hcut

lemma Divided.pairwise_children (divided : t.Divided levels) :
    t.children.Pairwise fun u u' => u.rect.Apart u'.rect := by
  by_cases inner : t.children = []
  · rw [inner]
    exact List.Pairwise.nil
  · exact List.pairwise_map.mp (divided.tiles inner).apart

lemma Divided.mem_of_mem_part (divided : t.Divided levels) (part : s ∈ t.children)
    {p : Nat × Nat} (hp : p ∈ s.rect) : p ∈ t.rect := by
  have inner : t.children ≠ [] := List.ne_nil_of_mem part
  exact ((divided.tiles inner).mem_iff p).mpr ⟨s.rect, List.mem_map_of_mem part, hp⟩

section Tree

variable (divided : ∀ u ∈ t.nodes, u.Divided levels)

include divided

lemma divided_of_mem_children (part : s ∈ t.children) : ∀ u ∈ s.nodes, u.Divided levels :=
  fun u hu => divided u (mem_nodes_of_mem_children part hu)

lemma mem_root_of_mem_nodes (mem : s ∈ t.nodes) {p : Nat × Nat} (hp : p ∈ s.rect) :
    p ∈ t.rect := by
  induction t using induction_children with
  | step t ih =>
    rcases mem_nodes_iff.mp mem with rfl | ⟨part, hpart, hs⟩
    · exact hp
    · have hmem := ih part hpart (divided_of_mem_children divided hpart) hs
      exact (divided t (mem_nodes_self t)).mem_of_mem_part hpart hmem

lemma depth_le_of_mem_nodes (mem : s ∈ t.nodes) : t.depth ≤ s.depth := by
  induction t using induction_children with
  | step t ih =>
    rcases mem_nodes_iff.mp mem with rfl | ⟨part, hpart, hs⟩
    · exact Nat.le_refl _
    · have hdeeper := (divided t (mem_nodes_self t)).deeper part hpart
      have hbelow := ih part hpart (divided_of_mem_children divided hpart) hs
      omega

lemma eq_of_depth_eq (mem : s ∈ t.nodes) (mem' : s' ∈ t.nodes) (depth_eq : s.depth = s'.depth)
    {p : Nat × Nat} (hp : p ∈ s.rect) (hp' : p ∈ s'.rect) : s = s' := by
  induction t using induction_children with
  | step t ih =>
    have hroot := divided t (mem_nodes_self t)
    have hbelow : ∀ {part u : Quadtree}, part ∈ t.children → u ∈ part.nodes →
        t.depth < u.depth := by
      intro part u hpart hu
      have hle := depth_le_of_mem_nodes (divided_of_mem_children divided hpart) hu
      have hdeeper := hroot.deeper part hpart
      omega
    rcases mem_nodes_iff.mp mem with rfl | ⟨part, hpart, hs⟩
    · rcases mem_nodes_iff.mp mem' with rfl | ⟨part', hpart', hs'⟩
      · rfl
      · exact absurd (hbelow hpart' hs') (by omega)
    · rcases mem_nodes_iff.mp mem' with rfl | ⟨part', hpart', hs'⟩
      · exact absurd (hbelow hpart hs) (by omega)
      · -- Both lie below the one part that holds the pixel.
        have hpixel := mem_root_of_mem_nodes (divided_of_mem_children divided hpart) hs hp
        have hpixel' := mem_root_of_mem_nodes (divided_of_mem_children divided hpart') hs' hp'
        obtain rfl : part = part' :=
          eq_of_pairwise_apart hroot.pairwise_children hpart hpart' hpixel hpixel'
        exact ih part hpart (divided_of_mem_children divided hpart) hs hs'

lemma parent_unique {u : Quadtree} (mem : s ∈ t.nodes) (mem' : s' ∈ t.nodes)
    (part : u ∈ s.children) (part' : u ∈ s'.children) : s = s' := by
  have hdeeper := (divided s mem).deeper u part
  have hdeeper' := (divided s' mem').deeper u part'
  have hp := u.rect.bottomLeft_mem
  refine eq_of_depth_eq divided mem mem' (by omega) ((divided s mem).mem_of_mem_part part hp) ?_
  exact (divided s' mem').mem_of_mem_part part' hp

end Tree

variable (r : Raster) (epsilon : Float)

@[simp] lemma depth_grow (depth below : Nat) (rect : Rect) :
    (grow r epsilon depth below rect).depth = depth := by
  cases below with
  | zero => rfl
  | succ below =>
    rw [grow]
    split
    · split <;> rfl
    · rfl

@[simp] lemma rect_grow (depth below : Nat) (rect : Rect) :
    (grow r epsilon depth below rect).rect = rect := by
  cases below with
  | zero => rfl
  | succ below =>
    rw [grow]
    split
    · split <;> rfl
    · rfl

lemma exists_cutPoint_middle {rect : Rect} (wide : 2 ≤ rect.width) (high : 2 ≤ rect.height) :
    ∃ q, rect.cutPoint (rect.x + (rect.width + 1) / 2) (rect.y + (rect.height + 1) / 2) = .ok q := by
  have hx : rect.x < rect.x + (rect.width + 1) / 2 ∧
      rect.x + (rect.width + 1) / 2 < rect.right := by
    unfold Rect.right
    omega
  have hy : rect.y < rect.y + (rect.height + 1) / 2 ∧
      rect.y + (rect.height + 1) / 2 < rect.top := by
    unfold Rect.top
    omega
  exact ⟨_, by rw [Rect.cutPoint, dif_pos hx, dif_pos hy]⟩

lemma children_grow (depth below : Nat) (rect : Rect) :
    (below = 0 ∨ rect.width < 2 ∨ rect.height < 2) ∧
        (grow r epsilon depth below rect).children = [] ∨
      ∃ (deeper : Nat) (q : Quarters Rect),
        below = deeper + 1 ∧ 2 ≤ rect.width ∧ 2 ≤ rect.height ∧
        rect.cutPoint (rect.x + (rect.width + 1) / 2) (rect.y + (rect.height + 1) / 2) = .ok q ∧
        (grow r epsilon depth below rect).children =
          q.toList.map (grow r epsilon (depth + 1) deeper) := by
  cases below with
  | zero => exact Or.inl ⟨Or.inl rfl, rfl⟩
  | succ below =>
    by_cases wide : 2 ≤ rect.width ∧ 2 ≤ rect.height
    · obtain ⟨q, hcut⟩ := exists_cutPoint_middle wide.1 wide.2
      refine Or.inr ⟨below, q, rfl, wide.1, wide.2, hcut, ?_⟩
      rw [grow]
      simp only [if_pos wide, hcut]
      rfl
    · refine Or.inl ⟨Or.inr (by omega), ?_⟩
      rw [grow]
      simp only [if_neg wide]
      rfl

lemma divided_grow (depth below : Nat) (rect : Rect) :
    (grow r epsilon depth below rect).Divided (depth + below + 1) := by
  rcases children_grow r epsilon depth below rect with
    ⟨hstop, hnone⟩ | ⟨deeper, q, rfl, wide, high, hcut, hparts⟩
  · refine ⟨iff_of_true hnone ?_, fun inner => absurd hnone inner, ?_⟩
    · rw [depth_grow, rect_grow]
      omega
    · rw [hnone]
      exact fun s hs => absurd hs List.not_mem_nil
  · refine ⟨iff_of_false ?_ ?_, fun _ => ⟨q, ?_, ?_⟩, ?_⟩
    · rw [hparts]
      exact List.cons_ne_nil _ _
    · rw [depth_grow, rect_grow]
      omega
    · rw [rect_grow]
      exact hcut
    · rw [hparts, List.map_map]
      exact List.map_id'' (rect_grow r epsilon (depth + 1) deeper) q.toList
    · rw [hparts, depth_grow]
      intro s hs
      obtain ⟨quarter, _, rfl⟩ := List.mem_map.mp hs
      exact depth_grow r epsilon (depth + 1) deeper quarter

theorem divided_of_mem_grow (depth below : Nat) (rect : Rect) :
    ∀ t ∈ (grow r epsilon depth below rect).nodes, t.Divided (depth + below + 1) := by
  induction below generalizing depth rect with
  | zero =>
    intro t ht
    obtain rfl := List.mem_singleton.mp ht
    exact divided_grow r epsilon depth 0 rect
  | succ below ih =>
    intro t ht
    rcases mem_nodes_iff.mp ht with rfl | ⟨part, hpart, hbelow⟩
    · exact divided_grow r epsilon depth (below + 1) rect
    · rcases children_grow r epsilon depth (below + 1) rect with
        ⟨_, hnone⟩ | ⟨deeper, q, hdeeper, _, _, _, hparts⟩
      · rw [hnone] at hpart
        exact absurd hpart List.not_mem_nil
      · obtain rfl := Nat.succ.inj hdeeper
        rw [hparts] at hpart
        obtain ⟨quarter, _, rfl⟩ := List.mem_map.mp hpart
        have hdivided := ih (depth + 1) quarter t hbelow
        rwa [show depth + 1 + below + 1 = depth + (below + 1) + 1 by omega] at hdivided

end BlockPainting.Quadtree
