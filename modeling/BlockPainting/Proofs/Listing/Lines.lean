import BlockPainting.Listing
import BlockPainting.Proofs.Text.Pieces

/-!
# Instructions as lines

An instruction is written as a keyword with bracketed groups: ids as numbers between points, numbers
in decimal digits. None of the groups contains a bracket or the end of a line.
-/

namespace BlockPainting

open Text

/-- An id that can be read: its number is in range and no cut has more than four children. -/
def BlockId.Readable (id : BlockId) : Prop :=
  id.root ≤ maxRoot ∧ ∀ index ∈ id.path, index < 4

lemma BlockId.toList_text (id : BlockId) :
    id.text.toList = ['.'].intercalate ((id.root :: id.path).map (Nat.toDigits 10)) := by
  rw [text, String.toList_intercalate, List.map_cons, List.map_map, List.map_cons, toList_toString]
  congr 2
  exact List.map_congr_left fun index _ => toList_toString index

lemma BlockId.mem_text {id : BlockId} {c : Char} (h : c ∈ id.text.toList) :
    isDigit c = true ∨ c = '.' := by
  rw [toList_text] at h
  rcases mem_intercalate h with hc | ⟨_, hmem, hc⟩
  · exact Or.inr (List.mem_singleton.mp hc)
  · obtain ⟨n, _, rfl⟩ := List.mem_map.mp hmem
    exact Or.inl (isDigit_of_mem_toDigits hc)

namespace Instruction

/-- An instruction that can be read: its ids can, and its coordinates are in range. -/
def Readable : Instruction → Prop
  | color block _ => block.Readable
  | lineCut block _ position => block.Readable ∧ position ≤ maxCoordinate
  | pointCut block x y => block.Readable ∧ x ≤ maxCoordinate ∧ y ≤ maxCoordinate
  | merge a b => a.Readable ∧ b.Readable
  | swap a b => a.Readable ∧ b.Readable

def word : Instruction → List Char
  | color .. => ['c', 'o', 'l', 'o', 'r']
  | lineCut .. => ['c', 'u', 't']
  | pointCut .. => ['c', 'u', 't']
  | merge .. => ['m', 'e', 'r', 'g', 'e']
  | swap .. => ['s', 'w', 'a', 'p']

def numbers (ns : List Nat) : List Char :=
  [',', ' '].intercalate (ns.map (Nat.toDigits 10))

def args : Instruction → List (List Char)
  | color block paint => [block.text.toList,
      numbers [paint.red.toNat, paint.green.toNat, paint.blue.toNat, paint.alpha.toNat]]
  | lineCut block axis position =>
    [block.text.toList, axis.text.toList, Nat.toDigits 10 position]
  | pointCut block x y => [block.text.toList, numbers [x, y]]
  | merge a b => [a.text.toList, b.text.toList]
  | swap a b => [a.text.toList, b.text.toList]

end Instruction

def bracketed (groups : List (List Char)) : List Char :=
  groups.flatMap fun group => ' ' :: '[' :: (group ++ [']'])

lemma toList_toString_byte (n : UInt8) : (toString n).toList = Nat.toDigits 10 n.toNat :=
  toList_toString n.toNat

lemma toString_text (s : String) : toString s = s :=
  rfl

lemma toList_line (i : Instruction) : i.line.toList = i.word ++ bracketed i.args := by
  cases i <;>
    simp [Instruction.line, Instruction.word, Instruction.args, Instruction.numbers, bracketed,
      Color.text, toString_text, toList_toString_byte, List.intercalate_cons_cons]

namespace Instruction

variable {i : Instruction} {group : List Char} {c : Char}

def Plain (c : Char) : Prop :=
  isDigit c = true ∨ c ∈ ['.', ',', ' ', 'x', 'y']

lemma Plain.ne {d : Char} (h : Plain c) (hdigit : isDigit d = false)
    (hd : d ∉ ['.', ',', ' ', 'x', 'y']) : c ≠ d := by
  rintro rfl
  rcases h with h | h
  · rw [h] at hdigit
    cases hdigit
  · exact hd h

lemma plain_id {id : BlockId} (h : c ∈ id.text.toList) : Plain c :=
  (BlockId.mem_text h).imp_right fun hpoint => by simp [hpoint]

lemma plain_numbers {ns : List Nat} (h : c ∈ numbers ns) : Plain c := by
  rcases mem_intercalate h with h | ⟨_, hmem, h⟩
  · rcases List.mem_pair.mp h with rfl | rfl <;> exact Or.inr (by decide)
  · obtain ⟨n, _, rfl⟩ := List.mem_map.mp hmem
    exact Or.inl (isDigit_of_mem_toDigits h)

lemma plain_axis {axis : Axis} (h : c ∈ axis.text.toList) : Plain c := by
  cases axis <;> exact Or.inr (List.mem_singleton.mp h ▸ by decide)

lemma plain_args (hgroup : group ∈ i.args) (hc : c ∈ group) : Plain c := by
  cases i <;> simp only [args, List.mem_cons, List.not_mem_nil, or_false] at hgroup
  case color block paint =>
    rcases hgroup with rfl | rfl
    · exact plain_id hc
    · exact plain_numbers hc
  case lineCut block axis position =>
    rcases hgroup with rfl | rfl | rfl
    · exact plain_id hc
    · exact plain_axis hc
    · exact Or.inl (isDigit_of_mem_toDigits hc)
  case pointCut block x y =>
    rcases hgroup with rfl | rfl
    · exact plain_id hc
    · exact plain_numbers hc
  case merge a b => rcases hgroup with rfl | rfl <;> exact plain_id hc
  case swap a b => rcases hgroup with rfl | rfl <;> exact plain_id hc

lemma args_eq_cons (i : Instruction) : ∃ group groups, i.args = group :: groups := by
  cases i <;> exact ⟨_, _, rfl⟩

lemma word_ne_nil (i : Instruction) : i.word ≠ [] := by
  cases i <;> exact List.cons_ne_nil _ _

lemma not_blank_of_mem_word (hc : c ∈ i.word) : isBlank c = false := by
  have hall : i.word.all (fun c => !isBlank c) = true := by cases i <;> rfl
  simpa using List.all_eq_true.mp hall c hc

end Instruction

end BlockPainting
