import BlockPainting.Proofs.Success
import BlockPainting.Solve

/-!
# Which programs compete

The programs of one solve are told apart by name. All programs that start from one block carry the
label of this block, and none but the refined one ends in the mark of a refinement.
-/

namespace BlockPainting.Solve

open Success

variable {target : Raster} {initial : List Block} {settings : Settings} {clock : Clock}
variable {base : Base} {painted : Raster} {ids : IdSupply}

lemma replayed_eq_ok {α : Type} {x : Except ReplayError α} {a : α} :
    replayed x = .ok a ↔ x = .ok a := by
  cases x <;> simp [replayed]

lemma name_of_shuffleCandidate {c : Candidate}
    (h : shuffleCandidate target initial settings clock = .ok c) : c.name = "Shuffle" := by
  simp only [shuffleCandidate] at h
  split at h
  · cases h
  · cases h
    rfl

lemma label_of_mergedBase {plan : LayoutPlan}
    (h : mergedBase target initial plan = .ok (some base)) :
    base.label = "Merge+" := by
  simp only [mergedBase] at h
  split at h
  · cases h
    rfl
  · split at h <;> cases h

lemma name_of_subdivide {c : Candidate} {counters : Subdivision.Counters}
    (h : subdivide target settings base clock = .ok (c, counters)) :
    c.name = base.label ++ "Blocks" := by
  simp only [subdivide] at h
  split at h
  · cases h
  · simp only [bind_eq_ok, pure_eq_ok, Prod.exists, Prod.mk.injEq] at h
    obtain ⟨recipe, session, _, rfl, _⟩ := h
    rfl

/-- The name of a program that walks over a grid. -/
def walkName (label : String) (cellSize : Nat) (direction : Direction) : String :=
  s!"{label}PixelGrid {cellSize} {direction.text}"

lemma names_of_walkGrid {cs : List Candidate}
    (h : walkGrid target painted ids settings base clock = .ok cs) :
    ∃ cellSize direction,
      (cs.map Candidate.name).Sublist [walkName base.label cellSize direction] := by
  simp only [walkGrid, bind_eq_ok] at h
  obtain ⟨best, _, h⟩ := h
  cases best with
  | none =>
    cases h
    exact ⟨0, .upRight, List.nil_sublist _⟩
  | some walk =>
    cases h
    exact ⟨walk.cellSize, walk.direction, List.Sublist.refl _⟩

lemma name_of_stripe {c : Candidate} (h : stripe target painted settings base clock = .ok c) :
    c.name = base.label ++ "Stripes" := by
  simp only [stripe, bind_eq_ok, pure_eq_ok] at h
  obtain ⟨bands, _, rfl⟩ := h
  rfl

lemma paintBase_eq_ok {cs : List Candidate} {counters : Option Subdivision.Counters}
    (h : paintBase target initial settings base clock = .ok (cs, counters)) :
    ∃ first board subdivided walked striped,
      Board.start target.width target.height initial = .ok first ∧
      first.applyAll base.opening = .ok board ∧
      (if settings.strategy.runs .blocks then
        ∃ c k, subdivide target settings base clock = .ok (c, k) ∧ subdivided = [c] ∧
          counters = some k
        else subdivided = [] ∧ counters = none) ∧
      (if settings.strategy.runs .pixelGrid then
        walkGrid target board.painted board.ids settings base clock = .ok walked
        else walked = []) ∧
      (if settings.strategy.runs .stripes then
        ∃ c, stripe target board.painted settings base clock = .ok c ∧ striped = [c]
        else striped = []) ∧
      cs = subdivided ++ walked ++ striped := by
  simp only [paintBase, bind_eq_ok, replayed_eq_ok] at h
  obtain ⟨first, hfirst, board, hboard, h⟩ := h
  split at h
  · rename_i hruns
    simp only [bind_eq_ok, pure_eq_ok, join_eq_ok, join_map_eq_ok, Prod.exists, Prod.mk.injEq] at h
    obtain ⟨c, k, hsub, _, _, ⟨rfl, rfl⟩, walked, hwalked, striped, hstriped, rfl, rfl⟩ := h
    refine ⟨first, board, _, walked, striped, hfirst, hboard, ?_, ?_, ?_, rfl⟩
    · rw [if_pos hruns]
      exact ⟨c, k, hsub, rfl, rfl⟩
    · simpa only [eq_comm] using hwalked
    · simpa only [eq_comm] using hstriped
  · rename_i hruns
    simp only [bind_eq_ok, pure_eq_ok, join_eq_ok, join_map_eq_ok, Prod.exists, Prod.mk.injEq] at h
    obtain ⟨_, _, ⟨rfl, rfl⟩, walked, hwalked, striped, hstriped, rfl, rfl⟩ := h
    refine ⟨first, board, _, walked, striped, hfirst, hboard, ?_, ?_, ?_, rfl⟩
    · rw [if_neg hruns]
      exact ⟨rfl, rfl⟩
    · simpa only [eq_comm] using hwalked
    · simpa only [eq_comm] using hstriped

/-- The names that the programs of one solve may have, in the order of the programs. -/
def possibleNames (label : String) (cellSize : Nat) (direction : Direction) : List String :=
  ["Noop", "Shuffle", label ++ "Blocks", walkName label cellSize direction, label ++ "Stripes"]

lemma names_of_paintBase {cs : List Candidate} {counters : Option Subdivision.Counters}
    (h : paintBase target initial settings base clock = .ok (cs, counters)) :
    ∃ cellSize direction, (cs.map Candidate.name).Sublist
      [base.label ++ "Blocks", walkName base.label cellSize direction,
        base.label ++ "Stripes"] := by
  obtain ⟨_, _, subdivided, walked, striped, _, _, hsub, hwalk, hstripe, rfl⟩ := paintBase_eq_ok h
  have hsub' : (subdivided.map Candidate.name).Sublist [base.label ++ "Blocks"] := by
    split at hsub
    · obtain ⟨c, k, hc, rfl, _⟩ := hsub
      simp [name_of_subdivide hc]
    · simp [hsub.1]
  have hwalk' : ∃ cellSize direction,
      (walked.map Candidate.name).Sublist [walkName base.label cellSize direction] := by
    split at hwalk
    · exact names_of_walkGrid hwalk
    · exact ⟨0, .upRight, by simp [hwalk]⟩
  have hstripe' : (striped.map Candidate.name).Sublist [base.label ++ "Stripes"] := by
    split at hstripe
    · obtain ⟨c, hc, rfl⟩ := hstripe
      simp [name_of_stripe hc]
    · simp [hstripe]
  obtain ⟨cellSize, direction, hwalk'⟩ := hwalk'
  refine ⟨cellSize, direction, ?_⟩
  rw [List.map_append, List.map_append]
  exact (hsub'.append hwalk').append hstripe'

lemma names_of_begin {shuffled : List Candidate} {start : Option Base}
    (h : begin target initial settings clock = .ok (shuffled, start)) :
    (shuffled.map Candidate.name).Sublist ["Shuffle"] ∧
      ∀ base ∈ start, base.label = "" ∨ base.label = "Merge+" := by
  simp only [begin] at h
  split at h
  · cases h
    simp
  · simp only [join_eq_ok, pure_eq_ok, map_eq_ok, Prod.mk.injEq] at h
    obtain ⟨_, hshuffled, _, hstart, rfl, rfl⟩ := h
    constructor
    · split at hshuffled
      · obtain ⟨c, hc, rfl⟩ := hshuffled
        simp [name_of_shuffleCandidate hc]
      · cases hshuffled
        simp
    · intro base hbase
      obtain rfl := Option.mem_def.mp hbase
      split at hstart
      · exact Or.inr (label_of_mergedBase hstart)
      · cases hstart

lemma names_of_candidates {others : List Candidate} {counters : Option Subdivision.Counters}
    (h : candidates target initial settings clock = .ok (others, counters)) :
    ∃ label cellSize direction, (label = "" ∨ label = "Merge+") ∧
      ((noop :: others).map Candidate.name).Sublist (possibleNames label cellSize direction) := by
  simp only [candidates, bind_eq_ok, Prod.exists] at h
  obtain ⟨shuffled, start, hbegin, h⟩ := h
  obtain ⟨hshuffled, hlabel⟩ := names_of_begin hbegin
  cases start with
  | none =>
    cases h
    refine ⟨"", 0, .upRight, Or.inl rfl, List.Sublist.cons_cons _ ?_⟩
    exact hshuffled.trans (List.sublist_append_left _ _)
  | some base =>
    simp only [bind_eq_ok, pure_eq_ok, Prod.exists, Prod.mk.injEq] at h
    obtain ⟨cs, _, hcs, rfl, _⟩ := h
    obtain ⟨cellSize, direction, hnames⟩ := names_of_paintBase hcs
    refine ⟨base.label, cellSize, direction, hlabel base rfl, List.Sublist.cons_cons _ ?_⟩
    rw [List.map_append]
    exact hshuffled.append hnames

def refinedMark : String := "+Refine"

lemma toList_walkName (label : String) (cellSize : Nat) (direction : Direction) :
    (walkName label cellSize direction).toList =
      label.toList ++ ("PixelGrid ".toList ++ (Nat.toDigits 10 cellSize ++
        (" ".toList ++ direction.text.toList))) := by
  simp [walkName, toString]

lemma nodup_possibleNames {label : String} (hlabel : label = "" ∨ label = "Merge+")
    (cellSize : Nat) (direction : Direction) : (possibleNames label cellSize direction).Nodup := by
  rcases hlabel with rfl | rfl <;>
    simp [possibleNames, ← String.toList_inj, toList_walkName]

lemma ne_append_refinedMark {label : String} {cellSize : Nat} {direction : Direction}
    {name : String} (hname : name ∈ possibleNames label cellSize direction) (other : String) :
    name ≠ other ++ refinedMark := by
  intro h
  -- Read backwards, no name begins like the mark.
  have hback := congrArg (fun s : String => s.toList.reverse) h
  simp only [possibleNames, List.mem_cons, List.not_mem_nil, or_false] at hname
  rcases hname with rfl | rfl | rfl | rfl | rfl
  · simp [refinedMark] at hback
  · simp [refinedMark] at hback
  · simp [refinedMark] at hback
  · cases direction <;> simp [refinedMark, toList_walkName, Direction.text] at hback
  · simp [refinedMark] at hback

end BlockPainting.Solve
