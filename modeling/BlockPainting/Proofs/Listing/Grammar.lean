import BlockPainting.Listing
import BlockPainting.Proofs.Listing.Lines
import BlockPainting.Proofs.Success
import Mathlib.Data.List.TakeWhile

/-!
# The grammar of program text

Program text is described here without a reader. A line says an instruction with a keyword and
groups in brackets, or it says nothing. White space may stand around a line, before each group, just
inside the brackets and around commas, and nowhere else except after the keyword, where it has to.
-/

namespace BlockPainting.Grammar

open Success Text

def Blank (cs : List Char) : Prop :=
  ∀ c ∈ cs, isBlank c = true

/-- The inner text, with white space around it or without. -/
def Spaced (inner cs : List Char) : Prop :=
  ∃ front back, Blank front ∧ Blank back ∧ cs = front ++ (inner ++ back)

/-- A number in decimal digits, with any zeros and at most one plus sign before them. -/
def Numeral (n : Nat) (cs : List Char) : Prop :=
  ∃ sign zeros, (sign = [] ∨ sign = ['+']) ∧
    cs = sign ++ (List.replicate zeros '0' ++ Nat.toDigits 10 n)

def Name (id : BlockId) (cs : List Char) : Prop :=
  id.Readable ∧ ∃ pieces, List.Forall₂ Numeral (id.root :: id.path) pieces ∧
    cs = ['.'].intercalate pieces

inductive Numbers : List Nat → List Char → Prop
  | last {n : Nat} {cs : List Char} (numeral : Numeral n cs) : Numbers [n] cs
  | more {n : Nat} {ns : List Nat} {first back front rest : List Char} (numeral : Numeral n first)
      (back_blank : Blank back) (front_blank : Blank front) (numbers : Numbers ns rest) :
      Numbers (n :: ns) (first ++ (back ++ ',' :: (front ++ rest)))

/-- The letter of an axis, small or capital. -/
inductive Letter : Axis → List Char → Prop
  | x : Letter .x ['x']
  | capitalX : Letter .x ['X']
  | y : Letter .y ['y']
  | capitalY : Letter .y ['Y']

inductive Arguments : Instruction → List (List Char) → Prop
  | color {id : BlockId} {c : Color} {name channels : List Char} (named : Name id name)
      (numbers : Numbers [c.red.toNat, c.green.toNat, c.blue.toNat, c.alpha.toNat] channels) :
      Arguments (.color id c) [name, channels]
  | lineCut {id : BlockId} {axis : Axis} {position : Nat} {name letter numeral : List Char}
      (named : Name id name) (lettered : Letter axis letter) (numbered : Numeral position numeral)
      (position_le : position ≤ maxCoordinate) :
      Arguments (.lineCut id axis position) [name, letter, numeral]
  | pointCut {id : BlockId} {x y : Nat} {name point : List Char} (named : Name id name)
      (numbers : Numbers [x, y] point) (x_le : x ≤ maxCoordinate) (y_le : y ≤ maxCoordinate) :
      Arguments (.pointCut id x y) [name, point]
  | merge {a b : BlockId} {name name' : List Char} (named : Name a name) (named' : Name b name') :
      Arguments (.merge a b) [name, name']
  | swap {a b : BlockId} {name name' : List Char} (named : Name a name) (named' : Name b name') :
      Arguments (.swap a b) [name, name']

/-- Groups in brackets, in which no bracket closes before the end. -/
inductive Groups : List (List Char) → List Char → Prop
  | none : Groups [] []
  | more {content inner gap rest : List Char} {contents : List (List Char)} (gap_blank : Blank gap)
      (spaced : Spaced content inner) (closed : ']' ∉ inner) (groups : Groups contents rest) :
      Groups (content :: contents) (gap ++ '[' :: (inner ++ ']' :: rest))

/-- A keyword in any case, white space, and the groups of the instruction. -/
def Sentence (i : Instruction) (cs : List Char) : Prop :=
  ∃ word gap text contents, word.map Char.toLower = i.word ∧ gap ≠ [] ∧ Blank gap ∧
    Groups contents text ∧ Arguments i contents ∧ cs = word ++ (gap ++ text)

/-- A line that says nothing: it is blank or a comment. -/
def Silent (line : List Char) : Prop :=
  Blank line ∨ ∃ front comment, Blank front ∧ line = front ++ '#' :: comment

def Tells (i : Instruction) (line : List Char) : Prop :=
  ∃ inner, Spaced inner line ∧ Sentence i inner

def Fits (line : List Char) : Prop :=
  Silent line ∨ ∃ i, Tells i line

/-- The lines of a text. Each is ended by a line feed, the last one perhaps by the end of the text,
and a carriage return before the line feed belongs to neither line. -/
inductive Split : List Char → List (List Char) → Prop
  | none : Split [] []
  | last {line : List Char} (some_text : line ≠ []) (one_line : '\n' ∉ line) : Split line [line]
  | feed {line rest : List Char} {more : List (List Char)} (one_line : '\n' ∉ line)
      (no_return : line.getLast? ≠ some '\r') (split : Split rest more) :
      Split (line ++ '\n' :: rest) (line :: more)
  | returnFeed {line rest : List Char} {more : List (List Char)} (one_line : '\n' ∉ line)
      (split : Split rest more) : Split (line ++ '\r' :: '\n' :: rest) (line :: more)

inductive Written : List (List Char) → List Instruction → Prop
  | none : Written [] []
  | silent {line : List Char} {lines : List (List Char)} {program : List Instruction}
      (silent : Silent line) (rest : Written lines program) : Written (line :: lines) program
  | tells {line : List Char} {lines : List (List Char)} {i : Instruction}
      {program : List Instruction} (tells : Tells i line) (rest : Written lines program) :
      Written (line :: lines) (i :: program)

variable {c : Char} {cs inner outer front back piece : List Char} {n limit : Nat} {ns : List Nat}

lemma Blank.append (hfront : Blank front) (hback : Blank back) : Blank (front ++ back) :=
  List.forall_mem_append.mpr ⟨hfront, hback⟩

lemma blank_nil : Blank [] := by
  simp [Blank]

lemma trimStart_append (h : Blank front) : trimStart (front ++ cs) = trimStart cs :=
  List.dropWhile_append_of_pos h

lemma trimStart_of_blank (h : Blank cs) : trimStart cs = [] :=
  List.dropWhile_eq_nil_iff.mpr h

lemma exists_trimStart (cs : List Char) : ∃ front, Blank front ∧ cs = front ++ trimStart cs :=
  ⟨cs.takeWhile isBlank, fun _ hc => List.mem_takeWhile_imp hc,
    (List.takeWhile_append_dropWhile).symm⟩

lemma spaced_self (cs : List Char) : Spaced cs cs :=
  ⟨[], [], blank_nil, blank_nil, by simp⟩

lemma Spaced.trans (h : Spaced inner cs) (h' : Spaced cs outer) : Spaced inner outer := by
  obtain ⟨front, back, hfront, hback, rfl⟩ := h
  obtain ⟨front', back', hfront', hback', rfl⟩ := h'
  exact ⟨front' ++ front, back ++ back', hfront'.append hfront, hback.append hback', by simp⟩

lemma spaced_trim (cs : List Char) : Spaced (trim cs) cs := by
  obtain ⟨front, hfront, hcs⟩ := exists_trimStart cs
  obtain ⟨back, hback, hrest⟩ := exists_trimStart (trimStart cs).reverse
  refine ⟨front, back.reverse, hfront, fun c hc => hback c (List.mem_reverse.mp hc), ?_⟩
  rw [trim, ← List.reverse_append, ← hrest, List.reverse_reverse, ← hcs]

lemma Spaced.trim_eq (h : Spaced inner cs) : trim cs = trim inner := by
  obtain ⟨front, back, hfront, hback, rfl⟩ := h
  have hreverse : Blank back.reverse := fun c hc => hback c (List.mem_reverse.mp hc)
  rw [trim, trim, trimStart_append hfront]
  by_cases hinner : Blank inner
  · rw [trimStart_of_blank (hinner.append hback), trimStart_of_blank hinner]
  · have hstart : trimStart (inner ++ back) = trimStart inner ++ back := by
      have hne : trimStart inner ≠ [] := fun h => hinner (List.dropWhile_eq_nil_iff.mp h)
      rw [trimStart, List.dropWhile_append, ← trimStart, if_neg (by simpa using hne)]
    rw [hstart, List.reverse_append, trimStart_append hreverse]

lemma blank_iff_trim : Blank cs ↔ trim cs = [] := by
  constructor
  · intro h
    rw [trim, trimStart_of_blank h]
    rfl
  · intro h
    obtain ⟨front, back, hfront, hback, heq⟩ := spaced_trim cs
    rw [heq, h]
    exact hfront.append (blank_nil.append hback)

lemma not_blank_plus : isBlank '+' = false := by
  decide

lemma Numeral.mem (h : Numeral n cs) (hc : c ∈ cs) : isDigit c = true ∨ c = '+' := by
  obtain ⟨sign, zeros, hsign, rfl⟩ := h
  rcases List.mem_append.mp hc with hc | hc
  · rcases hsign with rfl | rfl
    · cases hc
    · exact Or.inr (List.mem_singleton.mp hc)
  · rcases List.mem_append.mp hc with hc | hc
    · rw [(List.mem_replicate.mp hc).2]
      exact Or.inl (by decide)
    · exact Or.inl (isDigit_of_mem_toDigits hc)

lemma Numeral.not_mem (h : Numeral n cs) (hdigit : isDigit c = false) (hplus : c ≠ '+') :
    c ∉ cs := by
  intro hc
  rcases h.mem hc with h | h
  · rw [h] at hdigit
    cases hdigit
  · exact hplus h

lemma Numeral.not_blank (h : Numeral n cs) (hc : c ∈ cs) : isBlank c = false := by
  rcases h.mem hc with h | rfl
  · exact isBlank_of_isDigit h
  · exact not_blank_plus

lemma Numeral.ne_nil (h : Numeral n cs) : cs ≠ [] := by
  obtain ⟨sign, zeros, _, rfl⟩ := h
  simp [Nat.toDigits_ne_nil]

def Digits (n : Nat) (cs : List Char) : Prop :=
  ∃ zeros, cs = List.replicate zeros '0' ++ Nat.toDigits 10 n

lemma Digits.ne_nil (h : Digits n cs) : cs ≠ [] := by
  obtain ⟨zeros, rfl⟩ := h
  simp [Nat.toDigits_ne_nil]

lemma Digits.isDigit (h : Digits n cs) (hc : c ∈ cs) : isDigit c = true := by
  obtain ⟨zeros, rfl⟩ := h
  rcases List.mem_append.mp hc with hc | hc
  · rw [(List.mem_replicate.mp hc).2]
    decide
  · exact isDigit_of_mem_toDigits hc

lemma Digits.value_eq (h : Digits n cs) : Nat.ofDigitChars 10 cs 0 = n := by
  obtain ⟨zeros, rfl⟩ := h
  rw [Nat.ofDigitChars_append, Nat.ofDigitChars_replicate_zero, Nat.mul_zero,
    Nat.ofDigitChars_ten_toDigits]

lemma readDigits_eq_some_iff : readDigits limit cs = some n ↔ Digits n cs ∧ n ≤ limit := by
  unfold readDigits
  constructor
  · intro h
    split at h
    · rename_i hcs
      obtain ⟨hle, h⟩ := Option.ite_none_right_eq_some.mp h
      obtain rfl := Option.some.inj h
      exact ⟨exists_zeros hcs.1 (List.all_eq_true.mp hcs.2), hle⟩
    · cases h
  · rintro ⟨digits, hle⟩
    have hall : cs.all Text.isDigit = true := List.all_eq_true.mpr fun c hc => digits.isDigit hc
    rw [if_pos ⟨digits.ne_nil, hall⟩, digits.value_eq, if_pos hle]

lemma readNumeral_eq_some_iff :
    readNumeral limit cs = some n ↔ Numeral n cs ∧ n ≤ limit := by
  constructor
  · intro h
    unfold readNumeral at h
    split at h
    · obtain ⟨⟨zeros, rfl⟩, hle⟩ := readDigits_eq_some_iff.mp h
      exact ⟨⟨['+'], zeros, Or.inr rfl, rfl⟩, hle⟩
    · obtain ⟨⟨zeros, rfl⟩, hle⟩ := readDigits_eq_some_iff.mp h
      exact ⟨⟨[], zeros, Or.inl rfl, rfl⟩, hle⟩
  · rintro ⟨⟨sign, zeros, rfl | rfl, rfl⟩, hle⟩
    · have digits : Digits n (List.replicate zeros '0' ++ Nat.toDigits 10 n) := ⟨zeros, rfl⟩
      rw [List.nil_append]
      generalize List.replicate zeros '0' ++ Nat.toDigits 10 n = cs at digits
      -- The digits do not begin with a plus sign.
      unfold readNumeral
      split
      · cases digits.isDigit List.mem_cons_self
      · exact readDigits_eq_some_iff.mpr ⟨digits, hle⟩
    · exact readDigits_eq_some_iff.mpr ⟨⟨zeros, rfl⟩, hle⟩

/-- A number with white space around it, as it is read. -/
def Padded (n : Nat) (cs : List Char) : Prop :=
  ∃ numeral, Numeral n numeral ∧ Spaced numeral cs

lemma Numeral.trim_eq (h : Numeral n cs) : trim cs = cs :=
  trim_of_not_blank fun _ hc => h.not_blank hc

lemma number_eq_ok_iff {quantity : Quantity} :
    Listing.number quantity limit cs = .ok n ↔ Padded n cs ∧ n ≤ limit := by
  have hread : Listing.number quantity limit cs = .ok n ↔ readNumeral limit (trim cs) = some n := by
    unfold Listing.number
    split <;> simp [*]
  rw [hread, readNumeral_eq_some_iff]
  refine and_congr_left fun _ => ⟨fun h => ⟨trim cs, h, spaced_trim cs⟩, ?_⟩
  rintro ⟨numeral, hnumeral, hspaced⟩
  rwa [hspaced.trim_eq, hnumeral.trim_eq]

lemma mapM_eq_some_iff {α β : Type} {f : α → Option β} {as : List α} {bs : List β} :
    as.mapM f = some bs ↔ List.Forall₂ (fun b a => f a = some b) bs as := by
  induction as generalizing bs with
  | nil => simp [eq_comm]
  | cons a as ih =>
    simp only [List.mapM_cons, Option.bind_eq_bind, Option.bind_eq_some_iff, Option.pure_def,
      Option.some.injEq, ih, List.forall₂_cons_right_iff]
    constructor
    · rintro ⟨b, hb, bs, hbs, rfl⟩
      exact ⟨b, bs, hb, hbs, rfl⟩
    · rintro ⟨b, bs, hb, hbs, rfl⟩
      exact ⟨b, hb, bs, hbs, rfl⟩

/-- Between points every numeral is a piece by itself. -/
lemma point_not_mem {pieces : List (List Char)} (h : List.Forall₂ Numeral ns pieces) :
    ∀ piece ∈ pieces, '.' ∉ piece := by
  intro piece hpiece
  obtain ⟨n, _, numeral⟩ := exists_of_mem_right h hpiece
  exact numeral.not_mem (by decide) (by decide)

lemma read?_eq_some_iff {id : BlockId} : BlockId.read? cs = some id ↔ Name id cs := by
  constructor
  · intro h
    obtain ⟨root, path, hfields⟩ := exists_fields '.' cs
    simp only [BlockId.read?, hfields, Option.bind_eq_bind, Option.bind_eq_some_iff,
      Option.pure_def, Option.some.injEq] at h
    obtain ⟨n, hroot, indices, hpath, rfl⟩ := h
    have hnumbers : List.Forall₂ (fun index piece => Numeral index piece ∧ index ≤ 3)
        indices path :=
      (mapM_eq_some_iff.mp hpath).imp fun _ _ h => readNumeral_eq_some_iff.mp h
    obtain ⟨hroot, root_le⟩ := readNumeral_eq_some_iff.mp hroot
    refine ⟨⟨root_le, fun index hindex => ?_⟩, root :: path, .cons hroot ?_, ?_⟩
    · obtain ⟨_, _, h⟩ := exists_of_mem_left hnumbers hindex
      exact Nat.lt_succ_of_le h.2
    · exact hnumbers.imp fun _ _ h => h.1
    · rw [← hfields, intercalate_fields]
  · rintro ⟨readable, pieces, hpieces, rfl⟩
    obtain ⟨root, path, hroot, hpath, rfl⟩ := List.forall₂_cons_left_iff.mp hpieces
    have hread : path.mapM BlockId.readIndex = some id.path := by
      refine mapM_eq_some_iff.mpr (List.Forall₂.imp ?_
        ((List.forall₂_and_left _ _).mpr ⟨readable.2, hpath⟩))
      exact fun index piece h => readNumeral_eq_some_iff.mpr ⟨h.2, Nat.le_of_lt_succ h.1⟩
    simp [BlockId.read?, fields_intercalate (point_not_mem hpieces),
      readNumeral_eq_some_iff.mpr ⟨hroot, readable.1⟩, hread]

lemma block_eq_ok_iff {id : BlockId} : Listing.block cs = .ok id ↔ Name id cs := by
  rw [← read?_eq_some_iff, Listing.block]
  split <;> simp [*]

lemma Name.trim_eq {id : BlockId} (h : Name id cs) : trim cs = cs := by
  obtain ⟨_, pieces, hpieces, rfl⟩ := h
  refine trim_of_not_blank fun c hc => ?_
  rcases mem_intercalate hc with hc | ⟨piece, hpiece, hc⟩
  · rw [List.mem_singleton.mp hc]
    decide
  · obtain ⟨n, _, numeral⟩ := exists_of_mem_right hpieces hpiece
    exact numeral.not_blank hc

lemma axis_eq_ok_iff {axis : Axis} : Listing.axis cs = .ok axis ↔ Letter axis cs := by
  constructor
  · intro h
    unfold Listing.axis at h
    split at h <;> cases h
    · exact .x
    · exact .capitalX
    · exact .y
    · exact .capitalY
  · rintro (_ | _ | _ | _) <;> rfl

lemma Letter.trim_eq {axis : Axis} (h : Letter axis cs) : trim cs = cs := by
  cases h <;> rfl

lemma Blank.not_mem (h : Blank cs) (hc : isBlank c = false) : c ∉ cs := by
  intro hmem
  rw [h c hmem] at hc
  cases hc

lemma Numbers.ne_nil (h : Numbers ns cs) : cs ≠ [] := by
  cases h with
  | last numeral => exact numeral.ne_nil
  | more numeral => simp [numeral.ne_nil]

lemma Numbers.trim_eq (h : Numbers ns cs) : trim cs = cs := by
  refine trim_eq_self ?_ ?_
  · cases h with
    | last numeral => exact fun c hc => numeral.not_blank (List.mem_of_mem_head? hc)
    | more numeral =>
      rw [List.head?_append_of_ne_nil _ numeral.ne_nil]
      exact fun c hc => numeral.not_blank (List.mem_of_mem_head? hc)
  · induction h with
    | last numeral => exact fun c hc => numeral.not_blank (List.mem_of_mem_getLast? hc)
    | @more n ns first back front rest _ _ _ numbers ih =>
      have hsplit : first ++ (back ++ ',' :: (front ++ rest)) =
          (first ++ (back ++ ',' :: front)) ++ rest := by simp
      rw [hsplit, List.getLast?_append_of_ne_nil _ numbers.ne_nil]
      exact ih

lemma Numbers.fields (h : Numbers ns cs) (front_blank : Blank front) :
    List.Forall₂ Padded ns (fields ',' (front ++ cs)) := by
  induction h generalizing front with
  | @last n cs numeral =>
    have hcomma : ',' ∉ front ++ cs := by
      rw [List.mem_append, not_or]
      exact ⟨front_blank.not_mem (by decide), numeral.not_mem (by decide) (by decide)⟩
    rw [fields_of_not_mem hcomma]
    exact List.Forall₂.cons ⟨cs, numeral, front, [], front_blank, blank_nil, by simp⟩ .nil
  | @more n ns first back front' rest numeral back_blank front_blank' _ ih =>
    have hcomma : ',' ∉ front ++ (first ++ back) := by
      rw [List.mem_append, List.mem_append, not_or, not_or]
      exact ⟨front_blank.not_mem (by decide), numeral.not_mem (by decide) (by decide),
        back_blank.not_mem (by decide)⟩
    have hsplit : front ++ (first ++ (back ++ ',' :: (front' ++ rest))) =
        (front ++ (first ++ back)) ++ ',' :: (front' ++ rest) := by simp
    rw [hsplit, fields_append hcomma]
    exact List.Forall₂.cons ⟨first, numeral, front, back, front_blank, back_blank, rfl⟩
      (ih front_blank')

lemma exists_numbers {first : List Char} {pieces : List (List Char)}
    (h : List.Forall₂ Padded ns (first :: pieces)) :
    ∃ inner, Numbers ns inner ∧ Spaced inner ([','].intercalate (first :: pieces)) := by
  induction pieces generalizing ns first with
  | nil =>
    obtain ⟨n, _, ⟨numeral, hnumeral, hspaced⟩, hrest, rfl⟩ := List.forall₂_cons_right_iff.mp h
    obtain rfl := List.forall₂_nil_right_iff.mp hrest
    rw [List.intercalate_singleton]
    exact ⟨numeral, .last hnumeral, hspaced⟩
  | cons second pieces ih =>
    obtain ⟨n, ns, ⟨numeral, hnumeral, front, back, hfront, hback, rfl⟩, hrest, rfl⟩ :=
      List.forall₂_cons_right_iff.mp h
    obtain ⟨inner, hinner, front', back', hfront', hback', heq⟩ := ih hrest
    refine ⟨_, .more hnumeral hback hfront' hinner, front, back', hfront, hback', ?_⟩
    rw [List.intercalate_cons_cons, heq]
    simp

lemma paint_of_numbers {color : Color} (h : Numbers
    [color.red.toNat, color.green.toNat, color.blue.toNat, color.alpha.toNat] cs) :
    Listing.paint cs = .ok color := by
  have hbytes : ∀ n ∈ [color.red.toNat, color.green.toNat, color.blue.toNat, color.alpha.toNat],
      n ≤ 255 := by
    have hbyte : ∀ n : UInt8, n.toNat ≤ 255 := fun n => Nat.le_of_lt_succ n.toNat_lt
    simp [hbyte]
  have hread : (fields ',' cs).mapM (Listing.number .channel 255) =
      .ok [color.red.toNat, color.green.toNat, color.blue.toNat, color.alpha.toNat] := by
    refine mapM_eq_ok.mpr (List.Forall₂.flip (List.Forall₂.imp ?_
      ((List.forall₂_and_left _ _).mpr ⟨hbytes, h.fields blank_nil⟩)))
    exact fun n piece h => number_eq_ok_iff.mpr ⟨h.2, h.1⟩
  simp [Listing.paint, hread, bind, Except.bind, pure, Except.pure]

lemma numbers_of_paint {color : Color} (h : Listing.paint cs = .ok color) :
    ∃ inner, Numbers
      [color.red.toNat, color.green.toNat, color.blue.toNat, color.alpha.toNat] inner ∧
      Spaced inner cs := by
  obtain ⟨channels, hchannels, h⟩ := bind_eq_ok.mp h
  have hread := List.Forall₂.flip (mapM_eq_ok.mp hchannels)
  have hpadded : List.Forall₂ Padded channels (fields ',' cs) :=
    hread.imp fun _ _ h => (number_eq_ok_iff.mp h).1
  have hbytes : ∀ n ∈ channels, n ≤ 255 := by
    intro n hn
    obtain ⟨piece, _, h⟩ := exists_of_mem_left hread hn
    exact (number_eq_ok_iff.mp h).2
  split at h
  · obtain rfl := pure_eq_ok.mp h
    obtain ⟨first, pieces, hfields⟩ := exists_fields ',' cs
    rw [hfields] at hpadded
    obtain ⟨inner, hinner, hspaced⟩ := exists_numbers hpadded
    rw [← hfields, intercalate_fields] at hspaced
    refine ⟨inner, ?_, hspaced⟩
    have hvalue : ∀ n ≤ 255, n.toUInt8.toNat = n :=
      fun n hn => UInt8.toNat_ofNat_of_lt (Nat.lt_succ_of_le hn)
    simp only [List.forall_mem_cons] at hbytes
    rw [hvalue _ hbytes.1, hvalue _ hbytes.2.1, hvalue _ hbytes.2.2.1, hvalue _ hbytes.2.2.2.1]
    exact hinner
  · exact absurd h throw_ne_ok

end BlockPainting.Grammar
