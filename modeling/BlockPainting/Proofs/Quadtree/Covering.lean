import BlockPainting.Proofs.Quadtree.Division
import BlockPainting.Proofs.Rect.Predicates

/-!
# Covers of a query

On the way down a tree the parts of a node share the pixels of the node among them. So wherever the
walk stops, the nodes that it stops at share the pixels of the query that the root holds.
-/

namespace BlockPainting.Quadtree

variable {t s : Quadtree} {query : Rect} {levels zoom : Nat}

/-- What the nodes found for a query are: nodes of the tree that share the pixels which the query
and the root have in common. Each is as large as the query, the depth and the tree allow, and was
reached through a node that had to be opened. -/
structure Covers (tree : Quadtree) (query : Rect) (zoom : Nat) (found : List Quadtree) : Prop where
  nodes : ∀ t ∈ found, t ∈ tree.nodes
  overlap : ∀ t ∈ found, t.rect.overlaps query = true
  apart : found.Pairwise fun s t => s.rect.Apart t.rect
  unique : ∀ p : Nat × Nat, p ∈ tree.rect → p ∈ query → ∃! t, t ∈ found ∧ p ∈ t.rect
  areas : ((found.filterMap fun t => t.rect.intersection query).map Rect.area).sum =
    (tree.rect.intersection query).elim 0 Rect.area
  stopped : ∀ t ∈ found, query.contains t.rect = true ∨ t.children = [] ∨ t.depth = zoom
  opened : ∀ t ∈ found, t ≠ tree → ∃ parent,
    (∀ s, s ∈ tree.nodes ∧ t ∈ s.children ↔ s = parent) ∧
      parent.depth < zoom ∧ query.contains parent.rect = false

lemma cover_eq (query : Rect) (zoom : Nat) (t : Quadtree) :
    t.cover query zoom =
      if t.rect.overlaps query = true then
        if query.contains t.rect = true ∨ t.children = [] ∨ zoom ≤ t.depth then [t]
        else t.children.flatMap (cover query zoom)
      else [] := by
  cases t with
  | leaf depth rect color => simp [cover, Quadtree.rect, children]
  | node depth rect color bottomLeft bottomRight topRight topLeft =>
    simp [cover, Quadtree.rect, Quadtree.depth, children, List.flatMap_cons]

lemma mem_cover_iff : s ∈ t.cover query zoom ↔ t.rect.overlaps query = true ∧
    ((query.contains t.rect = true ∨ t.children = [] ∨ zoom ≤ t.depth) ∧ s = t ∨
      query.contains t.rect = false ∧ t.depth < zoom ∧
        ∃ part ∈ t.children, s ∈ part.cover query zoom) := by
  rw [cover_eq]
  split
  case isFalse apart => simp [apart]
  case isTrue overlap =>
    split
    case isTrue stop =>
      rw [List.mem_singleton]
      constructor
      · rintro rfl
        exact ⟨overlap, Or.inl ⟨stop, rfl⟩⟩
      · rintro ⟨_, ⟨_, rfl⟩ | ⟨houtside, hdepth, part, hpart, _⟩⟩
        · rfl
        · rcases stop with hinside | hnone | hdeep
          · rw [houtside] at hinside
            cases hinside
          · exact absurd hnone (List.ne_nil_of_mem hpart)
          · omega
    case isFalse go =>
      rw [List.mem_flatMap]
      simp only [not_or, Bool.not_eq_true, not_le] at go
      constructor
      · exact fun h => ⟨overlap, Or.inr ⟨go.1, go.2.2, h⟩⟩
      · rintro ⟨_, ⟨hinside | hnone | hdeep, _⟩ | ⟨_, _, h⟩⟩
        · rw [go.1] at hinside
          cases hinside
        · exact absurd hnone go.2.1
        · omega
        · exact h

lemma mem_nodes_of_mem_cover (mem : s ∈ t.cover query zoom) : s ∈ t.nodes := by
  induction t using induction_children with
  | step t ih =>
    rcases mem_cover_iff.mp mem with ⟨_, ⟨_, rfl⟩ | ⟨_, _, part, hpart, hs⟩⟩
    · exact mem_nodes_self s
    · exact mem_nodes_of_mem_children hpart (ih part hpart hs)

lemma overlaps_of_mem_cover (mem : s ∈ t.cover query zoom) : s.rect.overlaps query = true := by
  induction t using induction_children with
  | step t ih =>
    rcases mem_cover_iff.mp mem with ⟨overlap, ⟨_, rfl⟩ | ⟨_, _, part, hpart, hs⟩⟩
    · exact overlap
    · exact ih part hpart hs

lemma stop_of_mem_cover (mem : s ∈ t.cover query zoom) :
    query.contains s.rect = true ∨ s.children = [] ∨ zoom ≤ s.depth := by
  induction t using induction_children with
  | step t ih =>
    rcases mem_cover_iff.mp mem with ⟨_, ⟨stop, rfl⟩ | ⟨_, _, part, hpart, hs⟩⟩
    · exact stop
    · exact ih part hpart hs

lemma exists_opened_of_mem_cover (mem : s ∈ t.cover query zoom) :
    s = t ∨ ∃ parent ∈ t.nodes, s ∈ parent.children ∧ parent.depth < zoom ∧
      query.contains parent.rect = false := by
  induction t using induction_children with
  | step t ih =>
    rcases mem_cover_iff.mp mem with ⟨_, ⟨_, rfl⟩ | ⟨houtside, hdepth, part, hpart, hs⟩⟩
    · exact Or.inl rfl
    · right
      rcases ih part hpart hs with rfl | ⟨parent, hparent, hchild⟩
      · exact ⟨t, mem_nodes_self t, hpart, hdepth, houtside⟩
      · exact ⟨parent, mem_nodes_of_mem_children hpart hparent, hchild⟩

section Tree

variable (divided : ∀ u ∈ t.nodes, u.Divided levels)

include divided

/-- No pixel of the query is lost on the way down. -/
lemma exists_mem_cover (zoom : Nat) {p : Nat × Nat} (hp : p ∈ t.rect) (hquery : p ∈ query) :
    ∃ s ∈ t.cover query zoom, p ∈ s.rect := by
  induction t using induction_children with
  | step t ih =>
    have overlap : t.rect.overlaps query = true := Rect.overlaps_iff.mpr ⟨p, hp, hquery⟩
    by_cases stop : query.contains t.rect = true ∨ t.children = [] ∨ zoom ≤ t.depth
    · exact ⟨t, mem_cover_iff.mpr ⟨overlap, Or.inl ⟨stop, rfl⟩⟩, hp⟩
    · simp only [not_or, Bool.not_eq_true, not_le] at stop
      have htiles := (divided t (mem_nodes_self t)).tiles stop.2.1
      obtain ⟨_, hmem, hpart⟩ := (htiles.mem_iff p).mp hp
      obtain ⟨part, hchild, rfl⟩ := List.mem_map.mp hmem
      obtain ⟨s, hs, hps⟩ := ih part hchild (divided_of_mem_children divided hchild) hpart
      exact ⟨s, mem_cover_iff.mpr ⟨overlap, Or.inr ⟨stop.1, stop.2.2, part, hchild, hs⟩⟩, hps⟩

lemma pairwise_cover : (t.cover query zoom).Pairwise fun s s' => s.rect.Apart s'.rect := by
  induction t using induction_children with
  | step t ih =>
    rw [cover_eq]
    split
    case isFalse => exact List.Pairwise.nil
    case isTrue =>
      split
      case isTrue => exact List.pairwise_singleton _ _
      case isFalse =>
        rw [List.pairwise_flatMap]
        refine ⟨fun part hpart => ih part hpart (divided_of_mem_children divided hpart), ?_⟩
        refine (divided t (mem_nodes_self t)).pairwise_children.imp_of_mem ?_
        intro part part' hpart hpart' apart s hs s' hs' p hp hp'
        exact apart p
          (mem_root_of_mem_nodes (divided_of_mem_children divided hpart)
            (mem_nodes_of_mem_cover hs) hp)
          (mem_root_of_mem_nodes (divided_of_mem_children divided hpart')
            (mem_nodes_of_mem_cover hs') hp')

/-- The parts of the query in the nodes of a cover tile the part of it in the root. -/
lemma tiles_cover {common : Rect} (hcommon : t.rect.intersection query = some common) :
    Rect.Tiles ((t.cover query zoom).filterMap fun s => s.rect.intersection query) common := by
  constructor
  · refine (pairwise_cover divided).filterMap _ ?_
    intro s s' apart part hpart part' hpart' p hp hp'
    exact apart p ((Rect.mem_of_intersection hpart p).mp hp).1
      ((Rect.mem_of_intersection hpart' p).mp hp').1
  · intro p
    rw [Rect.mem_of_intersection hcommon]
    constructor
    · rintro ⟨hp, hquery⟩
      obtain ⟨s, hs, hps⟩ := exists_mem_cover divided zoom hp hquery
      obtain ⟨part, hpart⟩ := Rect.exists_intersection_iff.mpr ⟨p, hps, hquery⟩
      exact ⟨part, List.mem_filterMap.mpr ⟨s, hs, hpart⟩,
        (Rect.mem_of_intersection hpart p).mpr ⟨hps, hquery⟩⟩
    · rintro ⟨part, hmem, hp⟩
      obtain ⟨s, hs, hpart⟩ := List.mem_filterMap.mp hmem
      obtain ⟨hps, hquery⟩ := (Rect.mem_of_intersection hpart p).mp hp
      exact ⟨mem_root_of_mem_nodes divided (mem_nodes_of_mem_cover hs) hps, hquery⟩

lemma cover_areas :
    (((t.cover query zoom).filterMap fun s => s.rect.intersection query).map Rect.area).sum =
      (t.rect.intersection query).elim 0 Rect.area := by
  cases hcommon : t.rect.intersection query with
  | some common => exact (tiles_cover divided hcommon).area_eq
  | none =>
    have hnone : t.cover query zoom = [] := by
      refine List.eq_nil_iff_forall_not_mem.mpr fun s hs => ?_
      have hoverlap : t.rect.overlaps query = true := (mem_cover_iff.mp hs).1
      obtain ⟨common, h⟩ := Rect.exists_intersection_iff.mpr (Rect.overlaps_iff.mp hoverlap)
      rw [hcommon] at h
      cases h
    rw [hnone]
    rfl

theorem covers_cover (shallow : t.depth ≤ zoom) : t.Covers query zoom (t.cover query zoom) := by
  have hopened := @exists_opened_of_mem_cover t
  refine ⟨fun s => mem_nodes_of_mem_cover, fun s => overlaps_of_mem_cover,
    pairwise_cover divided, ?_, cover_areas divided, ?_, ?_⟩
  · intro p hp hquery
    obtain ⟨s, hs, hps⟩ := exists_mem_cover divided zoom hp hquery
    refine ⟨s, ⟨hs, hps⟩, ?_⟩
    rintro s' ⟨hs', hps'⟩
    exact eq_of_pairwise_apart (pairwise_cover divided) hs' hs hps' hps
  · intro s hs
    refine (stop_of_mem_cover hs).imp_right (Or.imp_right fun hdeep => ?_)
    rcases hopened hs with rfl | ⟨parent, hparent, hchild, hdepth, _⟩
    · omega
    · have hdeeper := (divided parent hparent).deeper s hchild
      omega
  · intro s hs hne
    obtain ⟨parent, hparent, hchild, hdepth, houtside⟩ := (hopened hs).resolve_left hne
    refine ⟨parent, ?_, hdepth, houtside⟩
    intro other
    constructor
    · rintro ⟨hother, hchild'⟩
      exact parent_unique divided hother hparent hchild' hchild
    · rintro rfl
      exact ⟨hparent, hchild⟩

end Tree

/-- There is a tree over every raster with pixels. Its root is the raster at depth 0. Each of its
nodes is a leaf exactly if it is in the last level or one pixel wide or high, and otherwise has four
parts one level deeper that tile it, in the order of point cuts. For every query and depth the walk
finds a cover, and the nodes in it weigh as much as the parts of the query that lie in them. Queries
may also end beyond `maxCoordinate`, where the far edge would overflow a word; no region of a raster
whose sides fit a word does. -/
theorem covers_of_build {r : Raster} (wide : 0 < r.width) (high : 0 < r.height) (levels : Nat)
    (epsilon : Float) :
    ∃ tree, build r levels epsilon = .ok tree ∧ tree.depth = 0 ∧ r.bounds = .ok tree.rect ∧
      (∀ p : Nat × Nat, p ∈ tree.rect ↔ p.1 < r.width ∧ p.2 < r.height) ∧
      (∀ t ∈ tree.nodes, t.Divided (max levels 1) ∧
        (t.children ≠ [] → t.children.length = 4 ∧ Rect.Tiles (t.children.map rect) t.rect)) ∧
      ∀ query zoom, tree.Covers query zoom (tree.cover query zoom) ∧
        ((tree.cover query zoom).filterMap (sample query)).map Sample.weight =
          ((tree.cover query zoom).filterMap fun t => t.rect.intersection query).map
            fun common => countToFloat common.area := by
  have hbounds : r.bounds = .ok ⟨0, 0, r.width, r.height, wide, high⟩ := dif_pos ⟨wide, high⟩
  have hbuild : build r levels epsilon = .ok
      (grow r epsilon 0 (max levels 1 - 1) ⟨0, 0, r.width, r.height, wide, high⟩) := by
    rw [build, hbounds]
    rfl
  have hdivided := divided_of_mem_grow r epsilon 0 (max levels 1 - 1)
    ⟨0, 0, r.width, r.height, wide, high⟩
  rw [show 0 + (max levels 1 - 1) + 1 = max levels 1 by omega] at hdivided
  refine ⟨_, hbuild, depth_grow .., ?_, ?_, ?_, ?_⟩
  · rw [rect_grow]
    exact hbounds
  · intro p
    rw [rect_grow, Rect.mem_iff]
    simp only [Rect.right, Rect.top]
    omega
  · intro t ht
    refine ⟨hdivided t ht, fun inner => ⟨?_, (hdivided t ht).tiles inner⟩⟩
    obtain ⟨q, _, hrects⟩ := (hdivided t ht).quartered inner
    rw [← List.length_map rect, hrects]
    rfl
  · intro query zoom
    refine ⟨covers_cover hdivided ?_, ?_⟩
    · rw [depth_grow]
      exact Nat.zero_le zoom
    · rw [List.map_filterMap, List.map_filterMap]
      simp only [sample, Option.map_map]
      rfl

theorem covers_of_build_of_fifteenPixels :
    ∃ tree, build (.filled 5 3 .white) 2 0.5 = .ok tree ∧
      tree.children.map (fun t => (t.rect.x, t.rect.y, t.rect.width, t.rect.height)) =
        [(0, 0, 3, 2), (3, 0, 2, 2), (3, 2, 2, 1), (0, 2, 3, 1)] := by
  obtain ⟨tree, hbuild, hdepth, hbounds, _, hnodes, _⟩ :=
    covers_of_build (r := .filled 5 3 .white) (by decide) (by decide) 2 0.5
  have hroot := Except.ok.inj hbounds
  obtain ⟨hleaf, hquarters, _⟩ := (hnodes tree (mem_nodes_self tree)).1
  rw [← hroot] at hleaf hquarters
  have hinner : tree.children ≠ [] := by
    intro hnone
    have hstop := hleaf.mp hnone
    rw [hdepth] at hstop
    exact absurd hstop (by decide)
  obtain ⟨q, hcut, hrects⟩ := hquarters hinner
  obtain rfl := Except.ok.inj hcut
  have hcorners := congrArg (List.map fun r => (r.x, r.y, r.width, r.height)) hrects
  rw [List.map_map] at hcorners
  exact ⟨tree, hbuild, hcorners⟩

end BlockPainting.Quadtree
