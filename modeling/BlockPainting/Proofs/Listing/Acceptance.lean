import BlockPainting.Proofs.Listing.Grammar

/-!
# The reader accepts exactly the language

Every step of reading a line recognizes one rule of the grammar, and where a rule leaves white space
open, trimming takes it away. So a text is read exactly if all its lines belong to the language, and
otherwise the first line that does not is reported.
-/

namespace BlockPainting.Grammar

open Success Text

variable {cs line text inner gap rest back : List Char} {contents : List (List Char)}
variable {i : Instruction}

lemma numbers_of_point {x y : Nat} {before after : List Char}
    (h : splitOnce (· == ',') cs = some (before, after)) (hx : Padded x before)
    (hy : Padded y after) : ∃ inner, Numbers [x, y] inner ∧ Spaced inner cs := by
  obtain ⟨c, rfl, hc, _⟩ := splitOnce_eq_some_iff.mp h
  obtain rfl := eq_of_beq hc
  have hpieces : List.Forall₂ Padded [x, y] [before, after] := .cons hx (.cons hy .nil)
  simpa [List.intercalate_cons_cons] using exists_numbers hpieces

lemma point_of_numbers {x y : Nat} (h : Numbers [x, y] cs) :
    ∃ before after, splitOnce (· == ',') cs = some (before, after) ∧ Padded x before ∧
      Padded y after := by
  cases h with
  | @more _ _ first back front rest numeral back_blank front_blank numbers =>
    cases numbers with
    | more _ _ _ numbers => cases numbers
    | last numeral' =>
      refine ⟨first ++ back, front ++ rest, ?_,
        ⟨first, numeral, [], back, blank_nil, back_blank, rfl⟩,
        ⟨rest, numeral', front, [], front_blank, blank_nil, by simp⟩⟩
      rw [← List.append_assoc]
      refine splitOnce_append ?_ (by decide)
      intro c hc
      rw [beq_eq_false_iff_ne]
      rintro rfl
      rcases List.mem_append.mp hc with hc | hc
      · exact numeral.not_mem (by decide) (by decide) hc
      · exact back_blank.not_mem (by decide) hc

lemma groups_blank_append (h : Blank gap) : Listing.groups (gap ++ cs) = Listing.groups cs := by
  rw [Listing.groups, Listing.groups, trimStart_append h]

lemma groups_cons (closed : ']' ∉ inner) :
    Listing.groups ('[' :: (inner ++ ']' :: rest)) =
      (Listing.groups rest).map (trim inner :: ·) := by
  have hsplit : splitOnce (· == ']') (inner ++ ']' :: rest) = some (inner, rest) := by
    refine splitOnce_append (fun c hc => ?_) (by decide)
    rw [beq_eq_false_iff_ne]
    rintro rfl
    exact closed hc
  have hstart : trimStart ('[' :: (inner ++ ']' :: rest)) = '[' :: (inner ++ ']' :: rest) :=
    trimStart_eq_self fun c hc => by rw [← Option.some.inj hc]; decide
  rw [Listing.groups, hstart, Listing.groupsFrom]
  split
  · rename_i hnone
    cases hnone.symm.trans hsplit
  · rename_i hsome
    obtain ⟨rfl, rfl⟩ := Prod.mk.inj (Option.some.inj (hsome.symm.trans hsplit))
    rw [Listing.groups]
    cases Listing.groupsFrom (trimStart _) <;> rfl

lemma groups_of_groups (h : Groups contents text) (trimmed : ∀ c ∈ contents, trim c = c) :
    Listing.groups text = .ok contents := by
  induction h with
  | none => rw [Listing.groups, trimStart, List.dropWhile_nil, Listing.groupsFrom]
  | @more content inner gap rest contents gap_blank spaced closed _ ih =>
    obtain ⟨hcontent, hcontents⟩ := List.forall_mem_cons.mp trimmed
    rw [groups_blank_append gap_blank, groups_cons closed, ih hcontents, spaced.trim_eq, hcontent]
    rfl

/-- White space before groups belongs to the first of them, or stands at the end if there is
none. -/
lemma Groups.exists_after (h : Groups contents text) (gap_blank : Blank gap)
    (back_blank : Blank back) : ∃ text' back', Groups contents text' ∧ Blank back' ∧
      gap ++ (text ++ back) = text' ++ back' := by
  cases h with
  | none => exact ⟨[], gap ++ back, .none, gap_blank.append back_blank, rfl⟩
  | more gap_blank' spaced closed groups =>
    exact ⟨_, back, .more (gap_blank.append gap_blank') spaced closed groups, back_blank, by simp⟩

lemma exists_groupsFrom (h : Listing.groupsFrom cs = .ok contents) :
    ∃ text back, Groups contents text ∧ Blank back ∧ cs = text ++ back := by
  fun_induction Listing.groupsFrom cs generalizing contents with
  | case1 =>
    obtain rfl := Except.ok.inj h
    exact ⟨[], [], .none, blank_nil, rfl⟩
  | case2 => cases h
  | case3 body group rest hsplit ih =>
    obtain ⟨groups, hgroups, h⟩ := bind_eq_ok.mp h
    obtain rfl := pure_eq_ok.mp h
    obtain ⟨text, back, hgroups, hback, heq⟩ := ih hgroups
    obtain ⟨gap, hgap, hrest⟩ := exists_trimStart rest
    obtain ⟨c, rfl, hc, hclosed⟩ := splitOnce_eq_some_iff.mp hsplit
    obtain rfl := eq_of_beq hc
    obtain ⟨text', back', hgroups', hback', heq'⟩ := hgroups.exists_after hgap hback
    refine ⟨_, back', .more blank_nil (spaced_trim group) ?_ hgroups', hback', ?_⟩
    · exact fun hmem => by simpa using hclosed ']' hmem
    · rw [hrest, heq, heq']
      simp
  | case4 => cases h

lemma exists_groups (h : Listing.groups cs = .ok contents) :
    ∃ text back, Groups contents text ∧ Blank back ∧ cs = text ++ back := by
  obtain ⟨text, back, hgroups, hback, heq⟩ := exists_groupsFrom h
  obtain ⟨gap, hgap, hcs⟩ := exists_trimStart cs
  rw [hcs, heq]
  exact hgroups.exists_after hgap hback

/-- More white space may be counted to the space just inside the brackets. -/
lemma Groups.shrink {inners : List (List Char)} (h : Groups contents text)
    (spaced : List.Forall₂ Spaced inners contents) : Groups inners text := by
  induction h generalizing inners with
  | none =>
    obtain rfl := List.forall₂_nil_right_iff.mp spaced
    exact .none
  | more gap_blank spaced' closed groups ih =>
    obtain ⟨inner, inners, hinner, hinners, rfl⟩ := List.forall₂_cons_right_iff.mp spaced
    exact .more gap_blank (hinner.trans spaced') closed (ih hinners)

lemma Groups.exists_concat (h : Groups contents text) (some_group : contents ≠ []) :
    ∃ front, text = front ++ [']'] := by
  induction h with
  | none => exact absurd rfl some_group
  | @more content inner gap rest contents _ _ _ groups ih =>
    by_cases hcontents : contents = []
    · subst hcontents
      cases groups
      exact ⟨gap ++ '[' :: inner, by simp⟩
    · obtain ⟨front, rfl⟩ := ih hcontents
      exact ⟨gap ++ '[' :: (inner ++ ']' :: front), by simp⟩

def letters : Listing.Keyword → List Char
  | .color => ['c', 'o', 'l', 'o', 'r']
  | .cut => ['c', 'u', 't']
  | .merge => ['m', 'e', 'r', 'g', 'e']
  | .swap => ['s', 'w', 'a', 'p']

lemma keyword_iff {k : Listing.Keyword} :
    Listing.Keyword.read? cs = some k ↔ cs.map Char.toLower = letters k := by
  constructor
  · intro h
    unfold Listing.Keyword.read? at h
    split at h <;> rename_i heq <;> cases h <;>
      simpa [letters] using congrArg String.toList heq
  · intro h
    rw [Listing.Keyword.read?, h]
    cases k <;> rfl

lemma toLower_of_blank {c : Char} (h : isBlank c = true) : c.toLower = c := by
  unfold Char.toLower
  split
  · rename_i hletter
    have hbounds : 65 ≤ c.toNat ∧ c.toNat ≤ 90 := by
      simpa [UInt32.le_iff_toNat_le] using hletter
    simp only [isBlank, Bool.or_eq_true, Bool.and_eq_true, decide_eq_true_eq, beq_iff_eq] at h
    omega
  · rfl

lemma not_blank_of_toLower {c : Char} (h : c.toLower ∈ i.word) : isBlank c = false := by
  rw [Bool.eq_false_iff]
  intro hblank
  have hlower := i.not_blank_of_mem_word h
  rw [toLower_of_blank hblank, hblank] at hlower
  cases hlower

lemma Arguments.ne_nil (h : Arguments i contents) : contents ≠ [] := by
  cases h <;> exact List.cons_ne_nil _ _

lemma Arguments.trim_eq (h : Arguments i contents) : ∀ c ∈ contents, trim c = c := by
  cases h with
  | color named numbers => simp [named.trim_eq, numbers.trim_eq]
  | lineCut named lettered numbered => simp [named.trim_eq, lettered.trim_eq, numbered.trim_eq]
  | pointCut named numbers => simp [named.trim_eq, numbers.trim_eq]
  | merge named named' => simp [named.trim_eq, named'.trim_eq]
  | swap named named' => simp [named.trim_eq, named'.trim_eq]

lemma instruction_of_arguments
    (word : (Listing.splitKeyword line).1.map Char.toLower = i.word)
    (groups : Listing.groups (Listing.splitKeyword line).2 = .ok contents)
    (h : Arguments i contents) : Listing.instruction line = .ok i := by
  rw [Listing.instruction]
  simp only [groups, bind, Except.bind]
  cases h with
  | color named numbers =>
    have hword : Listing.Keyword.read? (Listing.splitKeyword line).1 = some .color :=
      keyword_iff.mpr word
    simp only [hword, block_eq_ok_iff.mpr named, paint_of_numbers numbers]
    rfl
  | @lineCut id axis position name letter numeral named lettered numbered position_le =>
    have hword : Listing.Keyword.read? (Listing.splitKeyword line).1 = some .cut :=
      keyword_iff.mpr word
    have hposition : Listing.number .offset maxCoordinate numeral = .ok position :=
      number_eq_ok_iff.mpr ⟨⟨numeral, numbered, spaced_self numeral⟩, position_le⟩
    simp only [hword, block_eq_ok_iff.mpr named, axis_eq_ok_iff.mpr lettered, hposition]
    rfl
  | @pointCut id x y name point named numbers x_le y_le =>
    have hword : Listing.Keyword.read? (Listing.splitKeyword line).1 = some .cut :=
      keyword_iff.mpr word
    obtain ⟨before, after, hsplit, hx, hy⟩ := point_of_numbers numbers
    have hbefore : Listing.number .pointX maxCoordinate before = .ok x :=
      number_eq_ok_iff.mpr ⟨hx, x_le⟩
    have hafter : Listing.number .pointY maxCoordinate after = .ok y :=
      number_eq_ok_iff.mpr ⟨hy, y_le⟩
    simp only [hword, block_eq_ok_iff.mpr named, hsplit, hbefore, hafter]
    rfl
  | merge named named' =>
    have hword : Listing.Keyword.read? (Listing.splitKeyword line).1 = some .merge :=
      keyword_iff.mpr word
    simp only [hword, block_eq_ok_iff.mpr named, block_eq_ok_iff.mpr named']
    rfl
  | swap named named' =>
    have hword : Listing.Keyword.read? (Listing.splitKeyword line).1 = some .swap :=
      keyword_iff.mpr word
    simp only [hword, block_eq_ok_iff.mpr named, block_eq_ok_iff.mpr named']
    rfl

/-- What is read as an instruction is its keyword and groups that belong to it, but for white space
just inside the brackets. -/
lemma arguments_of_instruction (h : Listing.instruction line = .ok i) :
    (Listing.splitKeyword line).1.map Char.toLower = i.word ∧
      ∃ contents inners, Listing.groups (Listing.splitKeyword line).2 = .ok contents ∧
        List.Forall₂ Spaced inners contents ∧ Arguments i inners := by
  simp only [Listing.instruction, bind_eq_ok] at h
  obtain ⟨contents, hgroups, h⟩ := h
  -- One case for each keyword and number of groups, as the reader tells them apart.
  split at h
  · rename_i name channels hword
    simp only [bind_eq_ok, pure_eq_ok] at h
    obtain ⟨id, hid, color, hcolor, rfl⟩ := h
    obtain ⟨inner, numbers, spaced⟩ := numbers_of_paint hcolor
    exact ⟨keyword_iff.mp hword, _, [name, inner], hgroups,
      .cons (spaced_self name) (.cons spaced .nil), .color (block_eq_ok_iff.mp hid) numbers⟩
  · rename_i name letter position hword
    simp only [bind_eq_ok, pure_eq_ok] at h
    obtain ⟨axis, haxis, id, hid, n, hn, rfl⟩ := h
    obtain ⟨⟨numeral, numbered, spaced⟩, hle⟩ := number_eq_ok_iff.mp hn
    exact ⟨keyword_iff.mp hword, _, [name, letter, numeral], hgroups,
      .cons (spaced_self name) (.cons (spaced_self letter) (.cons spaced .nil)),
      .lineCut (block_eq_ok_iff.mp hid) (axis_eq_ok_iff.mp haxis) numbered hle⟩
  · rename_i name point hword
    split at h
    · exact absurd h throw_ne_ok
    · rename_i before after hsplit
      simp only [bind_eq_ok, pure_eq_ok] at h
      obtain ⟨id, hid, x, hx, y, hy, rfl⟩ := h
      obtain ⟨hx, x_le⟩ := number_eq_ok_iff.mp hx
      obtain ⟨hy, y_le⟩ := number_eq_ok_iff.mp hy
      obtain ⟨inner, numbers, spaced⟩ := numbers_of_point hsplit hx hy
      exact ⟨keyword_iff.mp hword, _, [name, inner], hgroups,
        .cons (spaced_self name) (.cons spaced .nil),
        .pointCut (block_eq_ok_iff.mp hid) numbers x_le y_le⟩
  · rename_i name name' hword
    simp only [bind_eq_ok, pure_eq_ok] at h
    obtain ⟨a, ha, b, hb, rfl⟩ := h
    exact ⟨keyword_iff.mp hword, _, [name, name'], hgroups,
      .cons (spaced_self name) (.cons (spaced_self name') .nil),
      .merge (block_eq_ok_iff.mp ha) (block_eq_ok_iff.mp hb)⟩
  · rename_i name name' hword
    simp only [bind_eq_ok, pure_eq_ok] at h
    obtain ⟨a, ha, b, hb, rfl⟩ := h
    exact ⟨keyword_iff.mp hword, _, [name, name'], hgroups,
      .cons (spaced_self name) (.cons (spaced_self name') .nil),
      .swap (block_eq_ok_iff.mp ha) (block_eq_ok_iff.mp hb)⟩
  · exact absurd h throw_ne_ok
  · exact absurd h throw_ne_ok

lemma exists_sentence (h : Listing.instruction line = .ok i) :
    ∃ inner, Spaced inner line ∧ Sentence i inner := by
  obtain ⟨hword, contents, inners, hgroups, hspaced, arguments⟩ := arguments_of_instruction h
  obtain ⟨text, back, groups, hback, hrest⟩ := exists_groups hgroups
  have hinners : Groups inners text := groups.shrink hspaced
  unfold Listing.splitKeyword at hword hrest
  cases hsplit : splitOnce isBlank line with
  | none =>
    rw [hsplit] at hrest
    obtain ⟨front, rfl⟩ := hinners.exists_concat arguments.ne_nil
    simp at hrest
  | some parts =>
    obtain ⟨word, rest⟩ := parts
    rw [hsplit] at hword hrest
    obtain ⟨c, rfl, hc, _⟩ := splitOnce_eq_some_iff.mp hsplit
    change rest = text ++ back at hrest
    refine ⟨word ++ ([c] ++ text), ⟨[], back, blank_nil, hback, by simp [hrest]⟩, ?_⟩
    exact ⟨word, [c], text, inners, hword, List.cons_ne_nil c [], by simpa [Blank] using hc,
      hinners, arguments, rfl⟩

lemma instruction_of_sentence (h : Sentence i line) : Listing.instruction line = .ok i := by
  obtain ⟨word, gap, text, contents, hword, hgap, gap_blank, groups, arguments, rfl⟩ := h
  obtain ⟨c, gap, rfl⟩ := List.exists_cons_of_ne_nil hgap
  have hsplit : Listing.splitKeyword (word ++ (c :: gap ++ text)) = (word, gap ++ text) := by
    have hblank : ∀ b ∈ word, isBlank b = false :=
      fun b hb => not_blank_of_toLower (hword ▸ List.mem_map_of_mem hb)
    have honce : splitOnce isBlank (word ++ (c :: gap ++ text)) = some (word, gap ++ text) :=
      splitOnce_append hblank (gap_blank c List.mem_cons_self)
    rw [Listing.splitKeyword, honce, Option.getD_some]
  refine instruction_of_arguments (by rw [hsplit]; exact hword) ?_ arguments
  rw [hsplit, groups_blank_append fun b hb => gap_blank b (List.mem_cons_of_mem c hb)]
  exact groups_of_groups groups arguments.trim_eq

lemma Sentence.trim_eq (h : Sentence i line) : trim line = line := by
  obtain ⟨word, gap, text, contents, hword, _, _, groups, arguments, rfl⟩ := h
  obtain ⟨front, rfl⟩ := groups.exists_concat arguments.ne_nil
  have hne : word ≠ [] := by
    rintro rfl
    exact i.word_ne_nil hword.symm
  rw [← List.append_assoc gap]
  refine trim_append hne (List.cons_ne_nil _ _) ?_ (List.forall_mem_singleton.mpr (by decide))
  exact fun c hc => not_blank_of_toLower (hword ▸ List.mem_map_of_mem hc)

lemma Sentence.not_skipped (h : Sentence i line) : Listing.isSkipped line = false := by
  obtain ⟨word, gap, text, contents, hword, _, _, _, _, rfl⟩ := h
  cases word with
  | nil => exact absurd hword.symm i.word_ne_nil
  | cons c word =>
    have hletter : c ≠ '#' := by
      rintro rfl
      cases i <;> cases hword
    simpa [Listing.isSkipped] using hletter

lemma tells_iff : Tells i line ↔
    Listing.isSkipped (trim line) = false ∧ Listing.instruction (trim line) = .ok i := by
  constructor
  · rintro ⟨inner, hspaced, hsentence⟩
    rw [hspaced.trim_eq, hsentence.trim_eq]
    exact ⟨hsentence.not_skipped, instruction_of_sentence hsentence⟩
  · rintro ⟨_, hinstruction⟩
    obtain ⟨inner, hspaced, hsentence⟩ := exists_sentence hinstruction
    exact ⟨inner, hspaced.trans (spaced_trim line), hsentence⟩

lemma silent_iff : Silent line ↔ Listing.isSkipped (trim line) = true := by
  constructor
  · rintro (hblank | ⟨front, comment, hfront, rfl⟩)
    · rw [blank_iff_trim.mp hblank]
      rfl
    · have hspaced : Spaced ('#' :: comment) (front ++ '#' :: comment) :=
        ⟨front, [], hfront, blank_nil, by simp⟩
      obtain ⟨rest, hrest⟩ := @exists_trim_cons '#' comment (by decide)
      rw [hspaced.trim_eq, hrest]
      rfl
  · intro hskipped
    cases htrim : trim line with
    | nil => exact Or.inl (blank_iff_trim.mpr htrim)
    | cons c rest =>
      rw [htrim] at hskipped
      obtain rfl := eq_of_beq hskipped
      obtain ⟨front, back, hfront, _, heq⟩ := spaced_trim line
      exact Or.inr ⟨front, rest ++ back, hfront, by rw [heq, htrim]; rfl⟩

lemma fits_iff : Fits line ↔ Listing.isSkipped (trim line) = true ∨
    ∃ i, Listing.instruction (trim line) = .ok i := by
  unfold Fits
  rw [silent_iff]
  constructor
  · rintro (hskipped | ⟨i, htells⟩)
    · exact Or.inl hskipped
    · exact Or.inr ⟨i, (tells_iff.mp htells).2⟩
  · rintro (hskipped | ⟨i, hinstruction⟩)
    · exact Or.inl hskipped
    · by_cases hskipped : Listing.isSkipped (trim line) = true
      · exact Or.inl hskipped
      · exact Or.inr ⟨i, tells_iff.mpr ⟨Bool.eq_false_iff.mpr hskipped, hinstruction⟩⟩

variable {lines : List (List Char)} {program : List Instruction} {first n : Nat}

lemma instructions_cons_of_silent (h : Silent line) :
    Listing.instructions first (line :: lines) = Listing.instructions (first + 1) lines := by
  rw [Listing.instructions, if_pos (silent_iff.mp h)]

lemma instructions_cons_of_tells (h : Tells i line) :
    Listing.instructions first (line :: lines) =
      (Listing.instructions (first + 1) lines).map (i :: ·) := by
  obtain ⟨hskipped, hinstruction⟩ := tells_iff.mp h
  simp only [Listing.instructions, hskipped, hinstruction]
  cases Listing.instructions (first + 1) lines <;> rfl

lemma instructions_cons_of_not_fits (h : ¬ Fits line) : ∃ reason,
    Listing.instructions first (line :: lines) = .error ⟨first, reason⟩ := by
  rw [fits_iff, not_or] at h
  obtain ⟨hskipped, hinstruction⟩ := h
  cases hread : Listing.instruction (trim line) with
  | ok i => exact absurd ⟨i, hread⟩ hinstruction
  | error reason =>
    refine ⟨reason, ?_⟩
    rw [Listing.instructions, if_neg hskipped, hread]

lemma not_tells_of_silent (h : Silent line) : ¬ Tells i line := by
  intro htells
  have hskipped := (tells_iff.mp htells).1
  rw [silent_iff.mp h] at hskipped
  cases hskipped

lemma Tells.unique {i' : Instruction} (h : Tells i line) (h' : Tells i' line) : i = i' :=
  Except.ok.inj ((tells_iff.mp h).2.symm.trans (tells_iff.mp h').2)

lemma instructions_eq_ok_iff :
    Listing.instructions first lines = .ok program ↔ Written lines program := by
  induction lines generalizing first program with
  | nil =>
    constructor
    · intro h
      obtain rfl := Except.ok.inj h
      exact .none
    · rintro ⟨⟩
      rfl
  | cons line lines ih =>
    by_cases hfits : Fits line
    · rcases hfits with hsilent | ⟨i, htells⟩
      · rw [instructions_cons_of_silent hsilent, ih]
        refine ⟨.silent hsilent, fun h => ?_⟩
        cases h with
        | silent _ rest => exact rest
        | tells htells _ => exact absurd htells (not_tells_of_silent hsilent)
      · rw [instructions_cons_of_tells htells, map_eq_ok]
        constructor
        · rintro ⟨rest, hrest, rfl⟩
          exact .tells htells (ih.mp hrest)
        · intro h
          cases h with
          | silent hsilent _ => exact absurd htells (not_tells_of_silent hsilent)
          | tells htells' rest => exact ⟨_, ih.mpr rest, by rw [htells.unique htells']⟩
    · obtain ⟨reason, hreason⟩ := @instructions_cons_of_not_fits line lines first hfits
      refine iff_of_false (fun h => by cases hreason.symm.trans h) fun h => ?_
      cases h with
      | silent hsilent _ => exact hfits (Or.inl hsilent)
      | tells htells _ => exact hfits (Or.inr ⟨_, htells⟩)

lemma exists_written_iff : (∃ program, Written lines program) ↔ ∀ line ∈ lines, Fits line := by
  induction lines with
  | nil => exact iff_of_true ⟨[], .none⟩ (by simp)
  | cons line lines ih =>
    rw [List.forall_mem_cons, ← ih]
    constructor
    · rintro ⟨program, h⟩
      cases h with
      | silent hsilent rest => exact ⟨Or.inl hsilent, _, rest⟩
      | tells htells rest => exact ⟨Or.inr ⟨_, htells⟩, _, rest⟩
    · rintro ⟨hsilent | ⟨i, htells⟩, program, rest⟩
      · exact ⟨program, .silent hsilent rest⟩
      · exact ⟨i :: program, .tells htells rest⟩

lemma instructions_eq_error_iff :
    (∃ reason, Listing.instructions first lines = .error ⟨n, reason⟩) ↔
      ∃ before line later, lines = before ++ line :: later ∧ n = first + before.length ∧
        (∀ line ∈ before, Fits line) ∧ ¬ Fits line := by
  induction lines generalizing first with
  | nil =>
    refine iff_of_false (fun ⟨reason, h⟩ => by cases h) ?_
    rintro ⟨before, line, later, heq, _⟩
    simp at heq
  | cons line lines ih =>
    by_cases hfits : Fits line
    -- A line that fits is passed over, whether it tells an instruction or is silent.
    · have honward : (∃ reason, Listing.instructions first (line :: lines) = .error ⟨n, reason⟩) ↔
          ∃ reason, Listing.instructions (first + 1) lines = .error ⟨n, reason⟩ := by
        rcases hfits with hsilent | ⟨i, htells⟩
        · rw [instructions_cons_of_silent hsilent]
        · simp only [instructions_cons_of_tells htells, map_eq_error]
      rw [honward, ih]
      constructor
      · rintro ⟨before, bad, later, rfl, rfl, hbefore, hbad⟩
        refine ⟨line :: before, bad, later, rfl, ?_, ?_, hbad⟩
        · rw [List.length_cons]
          omega
        · exact List.forall_mem_cons.mpr ⟨hfits, hbefore⟩
      · rintro ⟨_ | ⟨line', before⟩, bad, later, heq, rfl, hbefore, hbad⟩
        · obtain ⟨rfl, rfl⟩ := List.cons.inj heq
          exact absurd hfits hbad
        · obtain ⟨rfl, rfl⟩ := List.cons.inj heq
          refine ⟨before, bad, later, rfl, ?_, (List.forall_mem_cons.mp hbefore).2, hbad⟩
          rw [List.length_cons]
          omega
    · obtain ⟨reason, hreason⟩ := @instructions_cons_of_not_fits line lines first hfits
      rw [hreason]
      constructor
      · rintro ⟨_, h⟩
        obtain ⟨rfl, _⟩ := ListingError.mk.inj (Except.error.inj h)
        exact ⟨[], line, lines, rfl, rfl, by simp, hfits⟩
      · rintro ⟨_ | ⟨line', before⟩, bad, later, heq, rfl, hbefore, _⟩
        · exact ⟨reason, rfl⟩
        · obtain ⟨rfl, _⟩ := List.cons.inj heq
          exact absurd (hbefore line List.mem_cons_self) hfits

lemma split_iff : Split cs lines ↔ lines = Text.lines cs := by
  constructor
  · intro h
    induction h with
    | none => rfl
    | last some_text one_line => exact (lines_of_not_mem some_text one_line).symm
    | feed one_line no_return _ ih => rw [ih, lines_append_feed one_line no_return]
    | returnFeed one_line _ ih => rw [ih, lines_append_return one_line]
  · rintro rfl
    fun_induction Text.lines cs with
    | case1 => exact .none
    | case2 rest ih => exact .feed List.not_mem_nil (by simp) ih
    | case3 rest ih => exact .returnFeed List.not_mem_nil ih
    | case4 c rest hfeed hreturn hlines ih =>
      rw [hlines] at ih
      cases ih
      exact .last (List.cons_ne_nil _ _) (by simpa using Ne.symm hfeed)
    | case5 c rest hfeed hreturn line more hlines ih =>
      rw [hlines] at ih
      have hmem : ∀ line : List Char, '\n' ∉ line → '\n' ∉ c :: line :=
        fun line hline => by simpa using ⟨Ne.symm hfeed, hline⟩
      cases ih with
      | last _ one_line => exact .last (List.cons_ne_nil _ _) (hmem _ one_line)
      | @feed _ rest _ one_line no_return split =>
        refine .feed (hmem _ one_line) ?_ split
        cases line with
        | nil => exact fun h => hreturn rest (Option.some.inj h) rfl
        | cons d line => simpa using no_return
      | returnFeed one_line split => exact .returnFeed (hmem _ one_line) split

/-- A text is read exactly if each of its lines is blank, a comment or a sentence, and what is read
are the instructions that the lines tell, in their order. Otherwise the error is at the first line
that is none of these, counted from one among all lines. -/
theorem readProgram_accepts_grammar (text : String) :
    ∃ lines, (∀ lines', Split text.toList lines' ↔ lines' = lines) ∧
      ((∃ program, readProgram text = .ok program) ↔ ∀ line ∈ lines, Fits line) ∧
      (∀ program, readProgram text = .ok program ↔ Written lines program) ∧
      ∀ n, (∃ reason, readProgram text = .error ⟨n, reason⟩) ↔
        ∃ before line later, lines = before ++ line :: later ∧ n = before.length + 1 ∧
          (∀ line ∈ before, Fits line) ∧ ¬ Fits line := by
  have hread : ∀ program, readProgram text = .ok program ↔
      Written (Text.lines text.toList) program := fun program => instructions_eq_ok_iff
  refine ⟨Text.lines text.toList, fun lines' => split_iff, ?_, hread, fun n => ?_⟩
  · rw [← exists_written_iff]
    exact exists_congr hread
  · simp only [Nat.add_comm _ 1]
    exact instructions_eq_error_iff

end BlockPainting.Grammar
