import BlockPainting.Instruction
import BlockPainting.Proofs.Board.History

/-!
# Renumbering a program

Moving the start `a` to `b` shifts the top-level numbers from `a` on and leaves those below alone.
Where `b` is not below `a`, no two numbers meet and their order stays, so that the way back and any
further way is open. The first id whose number would be too large is reported.
-/

namespace BlockPainting

open Success

/-- Where a top-level number goes when the start `a` is moved to `b`. -/
def shiftedRoot (a b n : Nat) : Nat :=
  if n < a then n else n - a + b

section Numbers

variable {a b c m n : Nat}

lemma shiftedRoot_lt_iff (le : a ≤ b) : shiftedRoot a b m < shiftedRoot a b n ↔ m < n := by
  unfold shiftedRoot
  split <;> split <;> omega

lemma compare_shiftedRoot (le : a ≤ b) :
    compare (shiftedRoot a b m) (shiftedRoot a b n) = compare m n := by
  rcases Nat.lt_trichotomy m n with h | rfl | h
  · rw [Nat.compare_eq_lt.mpr h, Nat.compare_eq_lt.mpr ((shiftedRoot_lt_iff le).mpr h)]
  · simp only [Std.ReflCmp.compare_self]
  · rw [Nat.compare_eq_gt.mpr h, Nat.compare_eq_gt.mpr ((shiftedRoot_lt_iff le).mpr h)]

lemma shiftedRoot_shiftedRoot (le : a ≤ b) :
    shiftedRoot b c (shiftedRoot a b n) = shiftedRoot a c n := by
  unfold shiftedRoot
  split <;> split <;> omega

lemma shiftedRoot_self : shiftedRoot a a n = n := by
  unfold shiftedRoot
  split <;> omega

end Numbers

namespace BlockId

/-- The id after the start `a` is moved to `b`. -/
def shifted (a b : Nat) (id : BlockId) : BlockId :=
  id.withRoot (shiftedRoot a b id.root)

/-- Whether the id would get a number beyond the largest. -/
def overflows (a b : Nat) (id : BlockId) : Bool :=
  decide (a ≤ id.root ∧ maxRoot < id.root - a + b)

variable {a b c : Nat} {id id' : BlockId}

lemma renumber_eq (a b : Nat) (id : BlockId) : id.renumber a b =
    if id.overflows a b then .error ⟨id, a, b⟩ else .ok (id.shifted a b) := by
  simp only [renumber, overflows, shifted, shiftedRoot, decide_eq_true_eq]
  by_cases below : id.root < a
  · rw [if_pos below, if_neg (by omega), if_pos below]
    rfl
  · by_cases small : id.root - a + b ≤ maxRoot
    · rw [if_neg below, if_pos small, if_neg (by omega), if_neg below]
    · rw [if_neg below, if_neg small, if_pos (by omega)]

lemma compare_shifted (le : a ≤ b) (id id' : BlockId) :
    compare (id.shifted a b) (id'.shifted a b) = compare id id' :=
  congrArg (Ordering.then · (compare id.path id'.path)) (compare_shiftedRoot le)

lemma shifted_shifted (le : a ≤ b) (id : BlockId) :
    (id.shifted a b).shifted b c = id.shifted a c :=
  congrArg (BlockId.mk · id.path) (shiftedRoot_shiftedRoot le)

lemma shifted_self (id : BlockId) : id.shifted a a = id :=
  congrArg (BlockId.mk · id.path) shiftedRoot_self

lemma shifted_inj (le : a ≤ b) (h : id.shifted a b = id'.shifted a b) : id = id' := by
  have hback := congrArg (shifted b a) h
  rwa [shifted_shifted le, shifted_shifted le, shifted_self, shifted_self] at hback

/-- Moving on from an intermediate start overflows where moving at once does. -/
lemma overflows_shifted (le : a ≤ b) (c : Nat) (id : BlockId) :
    (id.shifted a b).overflows b c = id.overflows a c := by
  apply decide_eq_decide.mpr
  simp only [shifted, withRoot, shiftedRoot]
  split <;> omega

lemma overflows_back (le : a ≤ b) (h : id.overflows a b = false) :
    id.overflows a a = false := by
  simp only [overflows, decide_eq_false_iff_not] at h ⊢
  omega

end BlockId

namespace Instruction

def rename (f : BlockId → BlockId) : Instruction → Instruction
  | color block paint => color (f block) paint
  | lineCut block axis position => lineCut (f block) axis position
  | pointCut block x y => pointCut (f block) x y
  | merge a b => merge (f a) (f b)
  | swap a b => swap (f a) (f b)

lemma named_rename (f : BlockId → BlockId) (i : Instruction) :
    (i.rename f).named = i.named.map f := by
  cases i <;> rfl

lemma rename_rename (f g : BlockId → BlockId) (i : Instruction) :
    (i.rename f).rename g = i.rename fun id => g (f id) := by
  cases i <;> rfl

lemma rename_id (i : Instruction) : (i.rename fun id => id) = i := by
  cases i <;> rfl

lemma mapIds_eq {ε : Type} {f : BlockId → Except ε BlockId} {refused : BlockId → Bool}
    {error : BlockId → ε} {g : BlockId → BlockId}
    (answers : ∀ id, f id = if refused id then .error (error id) else .ok (g id))
    (i : Instruction) : i.mapIds f =
      match i.named.find? refused with
      | some id => .error (error id)
      | none => .ok (i.rename g) := by
  have hone : ∀ (id : BlockId) (h : BlockId → Instruction), (do return h (← f id)) =
      match [id].find? refused with
      | some id => Except.error (error id)
      | none => .ok (h (g id)) := by
    intro id h
    rw [answers, List.find?_singleton]
    split <;> rfl
  have htwo : ∀ (id id' : BlockId) (h : BlockId → BlockId → Instruction),
      (do let a ← f id; let b ← f id'; return h a b) =
      match [id, id'].find? refused with
      | some id => Except.error (error id)
      | none => .ok (h (g id) (g id')) := by
    intro id id' h
    rw [answers, answers, List.find?_cons, List.find?_singleton]
    cases refused id
    · cases refused id' <;> rfl
    · rfl
  cases i with
  | color id paint => exact hone id (.color · paint)
  | lineCut id axis position => exact hone id (.lineCut · axis position)
  | pointCut id x y => exact hone id (.pointCut · x y)
  | merge id id' => exact htwo id id' .merge
  | swap id id' => exact htwo id id' .swap

end Instruction

variable {a b : Nat} {program moved last : List Instruction}

/-- The ids of a program in the order in which they are named. -/
def namedIds (program : List Instruction) : List BlockId :=
  program.flatMap Instruction.named

lemma namedIds_cons (i : Instruction) (rest : List Instruction) :
    namedIds (i :: rest) = i.named ++ namedIds rest :=
  List.flatMap_cons

lemma namedIds_map_rename (f : BlockId → BlockId) (program : List Instruction) :
    namedIds (program.map (Instruction.rename f)) = (namedIds program).map f := by
  induction program with
  | nil => rfl
  | cons i rest ih =>
    rw [List.map_cons, namedIds_cons, namedIds_cons, ih, Instruction.named_rename, List.map_append]

lemma renumber_eq (program : List Instruction) (a b : Nat) : renumber program a b =
    match (namedIds program).find? (BlockId.overflows a b) with
    | some id => .error ⟨id, a, b⟩
    | none => .ok (program.map (Instruction.rename (BlockId.shifted a b))) := by
  induction program with
  | nil => rfl
  | cons i rest ih =>
    rw [renumber] at ih ⊢
    rw [List.mapM_cons, ih, Instruction.mapIds_eq (BlockId.renumber_eq a b), namedIds_cons,
      List.find?_append]
    cases i.named.find? (BlockId.overflows a b) with
    | some id => rfl
    | none =>
      rw [Option.none_or]
      cases (namedIds rest).find? (BlockId.overflows a b) <;> rfl

lemma renumber_eq_error_iff {e : RenumberError} : renumber program a b = .error e ↔
    ∃ id, (namedIds program).find? (BlockId.overflows a b) = some id ∧ e = ⟨id, a, b⟩ := by
  rw [renumber_eq]
  cases (namedIds program).find? (BlockId.overflows a b) <;> simp [eq_comm]

lemma renumber_eq_ok_iff : renumber program a b = .ok moved ↔
    (∀ id ∈ namedIds program, id.overflows a b = false) ∧
      moved = program.map (Instruction.rename (BlockId.shifted a b)) := by
  rw [renumber_eq]
  cases h : (namedIds program).find? (BlockId.overflows a b) with
  | some id =>
    have hover := List.find?_some h
    have hmem := List.mem_of_find?_eq_some h
    simp only [reduceCtorEq, false_iff, not_and]
    intro fits
    rw [fits id hmem] at hover
    cases hover
  | none =>
    have fits : ∀ id ∈ namedIds program, id.overflows a b = false := by
      simpa using List.find?_eq_none.mp h
    rw [Except.ok.injEq]
    exact ⟨fun heq => ⟨fits, heq.symm⟩, fun ⟨_, heq⟩ => heq.symm⟩

lemma renumber_renumber (le : a ≤ b) (h : renumber program a b = .ok moved) (c : Nat) :
    renumber moved b c = .ok last ↔ renumber program a c = .ok last := by
  obtain ⟨_, rfl⟩ := renumber_eq_ok_iff.mp h
  have hmap : (program.map (Instruction.rename (BlockId.shifted a b))).map
      (Instruction.rename (BlockId.shifted b c)) =
      program.map (Instruction.rename (BlockId.shifted a c)) := by
    rw [List.map_map]
    refine List.map_congr_left fun i _ => ?_
    simp only [Function.comp_apply, Instruction.rename_rename, BlockId.shifted_shifted le]
  rw [renumber_eq_ok_iff, renumber_eq_ok_iff, namedIds_map_rename, hmap, List.forall_mem_map]
  simp only [BlockId.overflows_shifted le]

lemma renumber_self (fits : ∀ id ∈ namedIds program, id.overflows a a = false) :
    renumber program a a = .ok program := by
  refine renumber_eq_ok_iff.mpr ⟨fits, ?_⟩
  have hshifted : BlockId.shifted a a = fun id => id := funext BlockId.shifted_self
  have hrename : Instruction.rename (BlockId.shifted a a) = id := by
    rw [hshifted]
    exact funext Instruction.rename_id
  rw [hrename, List.map_id]

/-- Moving the start `a` of a program to `b` fails with the first id whose number would be beyond
the largest. If there is none, every instruction stays what it is, and so does the path of every id;
numbers below `a` stay, and others become larger by the distance of the starts. If `b` is not below
`a`, different ids stay different and in their order, moving back gives the program again, and
moving on comes to what moving at once does. -/
theorem renumber_shifts (program : List Instruction) (a b : Nat) :
    (∀ e, renumber program a b = .error e ↔
      ∃ id, (namedIds program).find? (BlockId.overflows a b) = some id ∧ e = ⟨id, a, b⟩) ∧
    (∀ moved, renumber program a b = .ok moved ↔
      (∀ id ∈ namedIds program, id.overflows a b = false) ∧
        moved = program.map (Instruction.rename (BlockId.shifted a b))) ∧
    (a ≤ b →
      (∀ id id' : BlockId, id.shifted a b = id'.shifted a b → id = id') ∧
      (∀ id id' : BlockId, compare (id.shifted a b) (id'.shifted a b) = compare id id') ∧
      ∀ moved, renumber program a b = .ok moved →
        renumber moved b a = .ok program ∧
        ∀ c, (renumber moved b c).toOption = (renumber program a c).toOption) := by
  refine ⟨fun e => renumber_eq_error_iff, fun moved => renumber_eq_ok_iff, ?_⟩
  intro le
  refine ⟨fun id id' => BlockId.shifted_inj le, BlockId.compare_shifted le, ?_⟩
  intro moved h
  constructor
  · apply (renumber_renumber le h a).mpr
    apply renumber_self
    exact fun id hid => BlockId.overflows_back le ((renumber_eq_ok_iff.mp h).1 id hid)
  · intro c
    apply Option.ext
    intro last
    simp only [toOption_eq_some_iff, renumber_renumber le h c]

/-- Where the new start is below the old one, two ids can meet. -/
example : (BlockId.top 0).shifted 1 0 = (BlockId.top 1).shifted 1 0 := rfl

/-- A program that names block 1, a part of block 7 and block 9. -/
def farIds : List Instruction :=
  [.merge (.top 1) ⟨7, [2]⟩, .color (.top 9) .black]

theorem renumber_shifts_of_farIds :
    ∃ moved, 5 ≤ maxRoot - 4 ∧ renumber farIds 5 (maxRoot - 4) = .ok moved ∧
      moved = [.merge (.top 1) ⟨maxRoot - 2, [2]⟩, .color (.top maxRoot) .black] ∧
      renumber moved (maxRoot - 4) 5 = .ok farIds ∧
      (renumber moved (maxRoot - 4) (maxRoot - 3)).toOption = none := by
  obtain ⟨_, _, hlaws⟩ := renumber_shifts farIds 5 (maxRoot - 4)
  have le : 5 ≤ maxRoot - 4 := by decide
  obtain ⟨_, _, hmoves⟩ := hlaws le
  obtain ⟨hback, hon⟩ := hmoves _ rfl
  exact ⟨_, le, rfl, rfl, hback, hon (maxRoot - 3)⟩

end BlockPainting
