import BlockPainting.Proofs.Board.Step
import BlockPainting.Proofs.Listing.Acceptance
import BlockPainting.Proofs.Listing.Names

/-!
# Programs survive being written and read

Every instruction is a line of its own. Metadata stands in comment lines before them, whatever it
contains: it is written line by line, and a line that begins with a hash is skipped.
-/

namespace BlockPainting

open Grammar Text

namespace Grammar

variable {i : Instruction} {groups : List (List Char)}

lemma blank_space : Blank [' '] := by
  intro c hc
  rw [List.mem_singleton.mp hc]
  decide

lemma numbers_numbers (n : Nat) (ns : List Nat) :
    Numbers (n :: ns) (Instruction.numbers (n :: ns)) := by
  induction ns generalizing n with
  | nil => simpa [Instruction.numbers] using Numbers.last (numeral_toDigits n)
  | cons m ns ih =>
    have hnumbers : Instruction.numbers (n :: m :: ns) =
        Nat.toDigits 10 n ++ ([] ++ ',' :: ([' '] ++ Instruction.numbers (m :: ns))) := by
      simp [Instruction.numbers, List.intercalate_cons_cons]
    rw [hnumbers]
    exact .more (numeral_toDigits n) blank_nil blank_space (ih m)

lemma letter_text (axis : Axis) : Letter axis axis.text.toList := by
  cases axis with
  | x => exact .x
  | y => exact .y

lemma arguments_args (h : i.Readable) : Arguments i i.args := by
  cases i with
  | color id c => exact .color (name_text h) (numbers_numbers _ _)
  | lineCut id axis position =>
    exact .lineCut (name_text h.1) (letter_text axis) (numeral_toDigits position) h.2
  | pointCut id x y => exact .pointCut (name_text h.1) (numbers_numbers x [y]) h.2.1 h.2.2
  | merge a b => exact .merge (name_text h.1) (name_text h.2)
  | swap a b => exact .swap (name_text h.1) (name_text h.2)

lemma groups_bracketed (h : ∀ group ∈ groups, ']' ∉ group) :
    Groups groups (bracketed groups) := by
  induction groups with
  | nil => exact .none
  | cons group groups ih =>
    rw [List.forall_mem_cons] at h
    have hbracketed : bracketed (group :: groups) =
        [' '] ++ '[' :: (group ++ ']' :: bracketed groups) := by simp [bracketed]
    rw [hbracketed]
    exact .more blank_space (spaced_self group) h.1 (ih h.2)

lemma tells_line (h : i.Readable) : Tells i i.line.toList := by
  refine ⟨_, spaced_self _, ?_⟩
  obtain ⟨group, groups, hargs⟩ := i.args_eq_cons
  have hclosed : ∀ group ∈ i.args, ']' ∉ group :=
    fun group hgroup hc => (Instruction.plain_args hgroup hc).ne (by decide) (by decide) rfl
  rw [hargs, List.forall_mem_cons] at hclosed
  refine ⟨i.word, [' '], '[' :: (group ++ ']' :: bracketed groups), i.args, by cases i <;> rfl,
    List.cons_ne_nil _ _, blank_space, ?_, arguments_args h, ?_⟩
  · rw [hargs]
    exact .more blank_nil (spaced_self group) hclosed.1 (groups_bracketed hclosed.2)
  · rw [toList_line, hargs]
    simp [bracketed]

lemma Arguments.readable {contents : List (List Char)} (h : Arguments i contents) :
    i.Readable := by
  cases h with
  | color named => exact named.1
  | lineCut named _ _ position_le => exact ⟨named.1, position_le⟩
  | pointCut named _ x_le y_le => exact ⟨named.1, x_le, y_le⟩
  | merge named named' => exact ⟨named.1, named'.1⟩
  | swap named named' => exact ⟨named.1, named'.1⟩

lemma Written.readable {lines : List (List Char)} {program : List Instruction}
    (h : Written lines program) : ∀ i ∈ program, i.Readable := by
  induction h with
  | none => simp
  | silent _ _ ih => exact ih
  | tells tells _ ih =>
    obtain ⟨_, _, _, _, _, _, _, _, _, _, arguments, _⟩ := tells
    exact List.forall_mem_cons.mpr ⟨arguments.readable, ih⟩

end Grammar

lemma readable_of_instructions {first : Nat} {lines : List (List Char)}
    {program : List Instruction} (h : Listing.instructions first lines = .ok program) :
    ∀ i ∈ program, i.Readable :=
  (instructions_eq_ok_iff.mp h).readable

lemma not_mem_line {i : Instruction} {c : Char} (hc : c ∈ ['\n', '\r']) : c ∉ i.line.toList := by
  have hblank : isBlank c = true := by
    rcases List.mem_pair.mp hc with rfl | rfl <;> decide
  rw [toList_line, List.mem_append, not_or]
  constructor
  · intro h
    rw [i.not_blank_of_mem_word h] at hblank
    cases hblank
  · intro h
    obtain ⟨group, hgroup, h⟩ := List.mem_flatMap.mp h
    simp only [List.mem_cons, List.mem_append, List.not_mem_nil, or_false] at h hc
    rcases h with rfl | rfl | h | rfl
    · revert hc
      decide
    · revert hc
      decide
    · rcases hc with rfl | rfl <;>
        exact (Instruction.plain_args hgroup h).ne (by decide) (by decide) rfl
    · revert hc
      decide

lemma instructions_line {i : Instruction} (hi : i.Readable) (first : Nat) (rest : List Char) :
    Listing.instructions first (lines (i.line.toList ++ '\n' :: rest)) =
      (Listing.instructions (first + 1) (lines rest)).map (i :: ·) := by
  rw [lines_append_of_not_mem (not_mem_line (by decide)) (not_mem_line (by decide)),
    instructions_cons_of_tells (tells_line hi)]

/-- A comment line is passed over, also where a carriage return at its end is lost. -/
lemma instructions_comment {line : List Char} (hline : '\n' ∉ line) (first : Nat)
    (rest : List Char) :
    Listing.instructions first (lines ('#' :: line ++ '\n' :: rest)) =
      Listing.instructions (first + 1) (lines rest) := by
  have hcomment : '\n' ∉ '#' :: line := by simpa using hline
  obtain ⟨read, hread, hreturn⟩ := lines_append rest hcomment
  obtain ⟨comment, rfl⟩ : ∃ comment, read = '#' :: comment := by
    cases read with
    | nil => simp at hreturn
    | cons c comment =>
      have hc : '#' = c := by rcases hreturn with h | h <;> exact (List.cons.inj h).1
      exact ⟨comment, by rw [hc]⟩
  have hsilent : Silent ('#' :: comment) := Or.inr ⟨[], comment, blank_nil, rfl⟩
  rw [hread, instructions_cons_of_silent hsilent]

lemma exists_comment_of_label {label : String} {text : Option String} {line : String}
    (hlabel : ∃ rest, label.toList = '#' :: rest ∧ '\n' ∉ rest)
    (h : line ∈ Metadata.comments label text) :
    ∃ rest, line.toList = '#' :: rest ∧ '\n' ∉ rest := by
  obtain ⟨start, hstart, hfeed⟩ := hlabel
  cases text with
  | none => cases h
  | some text =>
    obtain ⟨content, hcontent, rfl⟩ := List.mem_map.mp h
    refine ⟨start ++ content, ?_, ?_⟩
    · rw [String.toList_append, hstart, String.toList_ofList, List.cons_append]
    · rw [List.mem_append, not_or]
      exact ⟨hfeed, not_mem_of_mem_lines hcontent⟩

lemma exists_comment {metadata : Metadata} {line : String} (h : line ∈ metadata.lines) :
    ∃ rest, line.toList = '#' :: rest ∧ '\n' ∉ rest := by
  simp only [Metadata.lines, List.mem_append] at h
  rcases h with (((h | h) | h) | h) | h
  · split at h
    · rw [List.mem_singleton.mp h]
      exact ⟨_, rfl, by decide⟩
    · cases h
  · exact exists_comment_of_label ⟨_, rfl, by decide⟩ h
  · exact exists_comment_of_label ⟨_, rfl, by decide⟩ h
  · exact exists_comment_of_label ⟨_, rfl, by decide⟩ h
  · exact exists_comment_of_label ⟨_, rfl, by decide⟩ h

lemma toList_written (texts : List String) :
    (String.join (texts.map (· ++ "\n"))).toList =
      texts.flatMap fun text => text.toList ++ ['\n'] := by
  simp [List.flatMap_map]

lemma instructions_program {program : List Instruction} (h : ∀ i ∈ program, i.Readable)
    (first : Nat) :
    Listing.instructions first
      (lines ((program.map Instruction.line).flatMap fun text => text.toList ++ ['\n'])) =
        .ok program := by
  induction program generalizing first with
  | nil => rfl
  | cons i program ih =>
    rw [List.forall_mem_cons] at h
    rw [List.map_cons, List.flatMap_cons, List.append_assoc, List.singleton_append,
      instructions_line h.1, ih h.2]
    rfl

/-- Reading what was written gives the program back, whatever the metadata. -/
lemma readProgram_written {program : List Instruction} (h : ∀ i ∈ program, i.Readable)
    (metadata : Metadata) : readProgram (writeProgram program metadata) = .ok program := by
  rw [readProgram, writeProgram, toList_written, List.flatMap_append]
  generalize 1 = first
  have hcomments : ∀ line ∈ metadata.lines, ∃ rest, line.toList = '#' :: rest ∧ '\n' ∉ rest :=
    fun line hline => exists_comment hline
  generalize metadata.lines = comments at hcomments
  -- The comments are passed over one by one.
  induction comments generalizing first with
  | nil => exact instructions_program h first
  | cons line more ih =>
    rw [List.forall_mem_cons] at hcomments
    obtain ⟨⟨rest, hrest, hfeed⟩, hmore⟩ := hcomments
    rw [List.flatMap_cons, hrest, List.append_assoc, List.append_assoc, List.singleton_append,
      instructions_comment hfeed]
    exact ih (first + 1) hmore

lemma readable_of_legal {b : Board} {i : Instruction} {c : Change} (legal : b.Legal i c)
    (h : ∀ (id : BlockId) (block : Block), b.live[id]? = some block → block.id.Readable) :
    ∀ a ∈ c.added, a.id.Readable := by
  have hchild : ∀ {id : BlockId} {index : Nat}, id.Readable → index < 4 →
      (id.child index).Readable := by
    rintro id index ⟨hroot, hpath⟩ hindex
    refine ⟨hroot, ?_⟩
    intro k hk
    rcases List.mem_append.mp hk with hk | hk
    · exact hpath k hk
    · rwa [List.mem_singleton.mp hk]
  intro a ha
  cases legal with
  | color paint live =>
    obtain rfl := List.mem_singleton.mp ha
    have hid := h _ _ live
    exact hid
  | lineCut live cut =>
    rcases List.mem_pair.mp ha with rfl | rfl <;> exact hchild (h _ _ live) (by decide)
  | pointCut live cut =>
    simp only [Quarters.mapIdx, Quarters.toList, List.mem_cons, List.not_mem_nil, or_false] at ha
    rcases ha with rfl | rfl | rfl | rfl <;> exact hchild (h _ _ live) (by decide)
  | merge live live' join left =>
    obtain rfl := List.mem_singleton.mp ha
    exact ⟨left, fun index hindex => by cases hindex⟩
  | swap live live' different same =>
    have hid := h _ _ live
    have hid' := h _ _ live'
    rcases List.mem_pair.mp ha with rfl | rfl
    · exact hid
    · exact hid'

/-- Program text survives reading and writing. A program whose ids name at most four children of
each cut, and whose numbers are in range, is read back from its text, whatever the metadata say.
Whatever is read is such a program, so it is read again from its own text. And every instruction
leaves a board on which all ids can be read with such ids only. -/
theorem readProgram_writeProgram :
    (∀ (program : List Instruction) (metadata : Metadata), (∀ i ∈ program, i.Readable) →
      readProgram (writeProgram program metadata) = .ok program) ∧
    (∀ (text : String) (program : List Instruction), readProgram text = .ok program →
      (∀ i ∈ program, i.Readable) ∧
        ∀ metadata : Metadata, readProgram (writeProgram program metadata) = .ok program) ∧
    ∀ (b : Board) (i : Instruction) (c : Change), b.Legal i c →
      (∀ (id : BlockId) (block : Block), b.live[id]? = some block → block.id.Readable) →
      ∀ a ∈ c.added, a.id.Readable := by
  refine ⟨fun program metadata h => readProgram_written h metadata, ?_,
    fun b i c legal h => readable_of_legal legal h⟩
  intro text program h
  have hreadable := readable_of_instructions h
  exact ⟨hreadable, readProgram_written hreadable⟩

def fiveShapes : List Instruction :=
  [.lineCut (.top 0) .x 200, .color ⟨0, [0]⟩ ⟨0, 10, 255, 7⟩, .pointCut ⟨0, [1]⟩ 4294967295 0,
    .merge ⟨0, [1, 0]⟩ ⟨0, [1, 1]⟩, .swap ⟨4294967295, [3]⟩ (.top 12)]

/-- Metadata that read like instructions, with all kinds of line ends. -/
def trickyMetadata : Metadata where
  title := some "a.png\nswap [0] [1]"
  description := some "\r\n\ncolor [0] [1, 2, 3, 4]\r\r\n]"
  score := some ""

theorem readProgram_writeProgram_of_fiveShapes :
    readProgram (writeProgram fiveShapes trickyMetadata) = .ok fiveShapes :=
  readProgram_writeProgram.1 fiveShapes trickyMetadata (by
    simp [fiveShapes, Instruction.Readable, BlockId.Readable, BlockId.top, maxRoot, maxCoordinate,
      maxWord])

end BlockPainting
