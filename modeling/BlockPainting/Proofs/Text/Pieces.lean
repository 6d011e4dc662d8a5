import BlockPainting.Text.Reading
import Mathlib.Data.List.Basic
import Mathlib.Data.List.Induction
import Mathlib.Tactic.Lemma

/-!
# Taking apart what was put together

Texts are read by splitting them at separators, trimming the pieces and reading digits. Each of
these undoes the way a text is written, as long as no piece contains its separator. Lines are the
one place where something is lost: a carriage return before the line feed.
-/

namespace BlockPainting.Text

variable {p : Char → Bool} {c separator : Char} {cs before after field line rest : List Char}

lemma splitOnce_append (hbefore : ∀ c ∈ before, p c = false) (hc : p c = true) :
    splitOnce p (before ++ c :: after) = some (before, after) := by
  induction before with
  | nil => simp [splitOnce, hc]
  | cons d before ih =>
    rw [List.forall_mem_cons] at hbefore
    simp [splitOnce, hbefore.1, ih hbefore.2]

lemma splitOnce_eq_some_iff : splitOnce p cs = some (before, after) ↔
    ∃ c, cs = before ++ c :: after ∧ p c = true ∧ ∀ b ∈ before, p b = false := by
  constructor
  · intro h
    induction cs generalizing before with
    | nil => cases h
    | cons d cs ih =>
      unfold splitOnce at h
      by_cases hd : p d = true
      · rw [if_pos hd] at h
        obtain ⟨rfl, rfl⟩ := Prod.mk.inj (Option.some.inj h)
        exact ⟨d, rfl, hd, by simp⟩
      · rw [if_neg hd] at h
        obtain ⟨⟨before', after'⟩, hrest, heq⟩ := Option.map_eq_some_iff.mp h
        obtain ⟨rfl, rfl⟩ := Prod.mk.inj heq
        obtain ⟨c, rfl, hc, hbefore⟩ := ih hrest
        exact ⟨c, rfl, hc, List.forall_mem_cons.mpr ⟨Bool.eq_false_iff.mpr hd, hbefore⟩⟩
  · rintro ⟨c, rfl, hc, hbefore⟩
    exact splitOnce_append hbefore hc

lemma fields_of_not_mem (h : separator ∉ field) : fields separator field = [field] := by
  induction field with
  | nil => rfl
  | cons c field ih =>
    rw [List.mem_cons, not_or] at h
    simp [fields, Ne.symm h.1, ih h.2]

lemma fields_append (h : separator ∉ field) :
    fields separator (field ++ separator :: rest) = field :: fields separator rest := by
  induction field with
  | nil => simp [fields]
  | cons c field ih =>
    rw [List.mem_cons, not_or] at h
    simp [fields, Ne.symm h.1, ih h.2]

lemma exists_fields (separator : Char) (cs : List Char) :
    ∃ first more, fields separator cs = first :: more := by
  cases cs with
  | nil => exact ⟨[], [], rfl⟩
  | cons c cs =>
    unfold fields
    split
    · exact ⟨_, _, rfl⟩
    · split
      · exact ⟨_, _, rfl⟩
      · exact ⟨_, _, rfl⟩

lemma fields_intercalate {first : List Char} {more : List (List Char)}
    (h : ∀ field ∈ first :: more, separator ∉ field) :
    fields separator ([separator].intercalate (first :: more)) = first :: more := by
  induction more generalizing first with
  | nil =>
    rw [List.intercalate_singleton]
    exact fields_of_not_mem (h first List.mem_cons_self)
  | cons second more ih =>
    rw [List.forall_mem_cons] at h
    rw [List.intercalate_cons_cons, List.append_assoc, List.singleton_append, fields_append h.1,
      ih h.2]

lemma intercalate_fields (separator : Char) (cs : List Char) :
    [separator].intercalate (fields separator cs) = cs := by
  induction cs with
  | nil => rfl
  | cons c cs ih =>
    unfold fields
    split
    · rename_i heq
      obtain ⟨first, more, hfields⟩ := exists_fields separator cs
      rw [hfields] at ih ⊢
      rw [List.intercalate_cons_cons, ih, heq, List.nil_append, List.singleton_append]
    · obtain ⟨first, more, hfields⟩ := exists_fields separator cs
      rw [hfields] at ih ⊢
      cases more with
      | nil => simpa using ih
      | cons second more => simpa [List.intercalate_cons_cons] using ih

lemma mem_intercalate {between : List Char} {pieces : List (List Char)}
    (h : c ∈ between.intercalate pieces) : c ∈ between ∨ ∃ piece ∈ pieces, c ∈ piece := by
  induction pieces with
  | nil => cases h
  | cons first pieces ih =>
    cases pieces with
    | nil =>
      rw [List.intercalate_singleton] at h
      exact Or.inr ⟨first, List.mem_singleton_self _, h⟩
    | cons second pieces =>
      rw [List.intercalate_cons_cons, List.mem_append, List.mem_append] at h
      rcases h with (h | h) | h
      · exact Or.inr ⟨first, List.mem_cons_self, h⟩
      · exact Or.inl h
      · exact (ih h).imp_right fun ⟨piece, hpiece, hc⟩ =>
          ⟨piece, List.mem_cons_of_mem _ hpiece, hc⟩

lemma trimStart_eq_self (h : ∀ c ∈ cs.head?, isBlank c = false) : trimStart cs = cs := by
  cases cs with
  | nil => rfl
  | cons c cs => simp [trimStart, h c rfl]

lemma trim_eq_self (hhead : ∀ c ∈ cs.head?, isBlank c = false)
    (hlast : ∀ c ∈ cs.getLast?, isBlank c = false) : trim cs = cs := by
  rw [trim, trimStart_eq_self hhead, trimStart_eq_self, List.reverse_reverse]
  rwa [List.head?_reverse]

lemma trim_of_not_blank (h : ∀ c ∈ cs, isBlank c = false) : trim cs = cs :=
  trim_eq_self (fun c hc => h c (List.mem_of_mem_head? hc))
    fun c hc => h c (List.mem_of_mem_getLast? hc)

lemma trim_append {first middle last : List Char} (hfirst : first ≠ []) (hlast : last ≠ [])
    (h : ∀ c ∈ first, isBlank c = false) (h' : ∀ c ∈ last, isBlank c = false) :
    trim (first ++ (middle ++ last)) = first ++ (middle ++ last) := by
  refine trim_eq_self ?_ ?_
  · rw [List.head?_append_of_ne_nil _ hfirst]
    exact fun c hc => h c (List.mem_of_mem_head? hc)
  · rw [← List.append_assoc, List.getLast?_append_of_ne_nil _ hlast]
    exact fun c hc => h' c (List.mem_of_mem_getLast? hc)

lemma exists_trim_cons (h : isBlank c = false) : ∃ rest, trim (c :: cs) = c :: rest := by
  have hstart : trimStart (c :: cs) = c :: cs := by simp [trimStart, h]
  rw [trim, hstart, trimStart, List.reverse_cons, List.dropWhile_append]
  split <;> simp [h]

lemma isDigit_of_mem_toDigits {n : Nat} (h : c ∈ Nat.toDigits 10 n) : isDigit c = true := by
  have hdigit := Nat.isDigit_of_mem_toDigits (by decide) (by decide) h
  simp only [Char.isDigit, Bool.and_eq_true, decide_eq_true_eq] at hdigit
  simp only [isDigit, Bool.and_eq_true, decide_eq_true_eq]
  exact hdigit

lemma isBlank_of_isDigit (h : isDigit c = true) : isBlank c = false := by
  have hbounds : 48 ≤ c.toNat ∧ c.toNat ≤ 57 := by
    simpa [isDigit, Char.le_def, UInt32.le_iff_toNat_le] using h
  simp only [isBlank, Bool.or_eq_false_iff, Bool.and_eq_false_imp, decide_eq_false_iff_not,
    beq_eq_false_iff_ne, decide_eq_true_eq]
  omega

lemma toList_toString (n : Nat) : (toString n).toList = Nat.toDigits 10 n := by
  rw [Nat.toString_eq_repr, Nat.toList_repr]

lemma exists_digit (h : isDigit c = true) : ∃ digit, digit < 10 ∧ c = digit.digitChar := by
  have hbounds : 48 ≤ c.toNat ∧ c.toNat ≤ 57 := by
    simpa [isDigit, Char.le_def, UInt32.le_iff_toNat_le] using h
  refine ⟨c.toNat - 48, by omega, Char.toNat_inj.mp ?_⟩
  rw [Nat.toNat_digitChar_of_lt_ten (by omega)]
  omega

lemma exists_zeros (hne : cs ≠ []) (hdigits : ∀ c ∈ cs, isDigit c = true) :
    ∃ zeros, cs = List.replicate zeros '0' ++ Nat.toDigits 10 (Nat.ofDigitChars 10 cs 0) := by
  induction cs using List.reverseRecOn with
  | nil => exact absurd rfl hne
  | append_singleton cs c ih =>
    rw [List.forall_mem_append, List.forall_mem_singleton] at hdigits
    obtain ⟨digit, hdigit, hlast⟩ := exists_digit hdigits.2
    have hvalue : Nat.ofDigitChars 10 (cs ++ [c]) 0 = 10 * Nat.ofDigitChars 10 cs 0 + digit := by
      rw [Nat.ofDigitChars_append, hlast, Nat.ofDigitChars_cons_digitChar_of_lt_ten hdigit,
        Nat.ofDigitChars_nil]
    have hsingle : Nat.toDigits 10 digit = [c] := by
      rw [Nat.toDigits_of_lt_base hdigit, hlast]
    rw [hvalue]
    by_cases hcs : cs = []
    · exact ⟨0, by simp [hcs, hsingle]⟩
    · obtain ⟨zeros, hzeros⟩ := ih hcs hdigits.1
      rcases Nat.eq_zero_or_pos (Nat.ofDigitChars 10 cs 0) with hzero | hpos
      · rw [hzero, Nat.toDigits_zero] at hzeros
        refine ⟨zeros + 1, ?_⟩
        rw [hzero, Nat.mul_zero, Nat.zero_add, hsingle, List.replicate_succ', ← hzeros]
      · refine ⟨zeros, ?_⟩
        rw [← Nat.toDigits_append_toDigits (by decide) hpos hdigit, hsingle,
          ← List.append_assoc, ← hzeros]

lemma lines_cons (hc : c ≠ '\n') (hcs : c = '\r' → cs.head? ≠ some '\n') :
    lines (c :: cs) =
      match lines cs with
      | [] => [[c]]
      | line :: more => (c :: line) :: more := by
  have hjoined : ∀ rest, c = '\r' → cs = '\n' :: rest → False := by
    rintro rest rfl rfl
    exact hcs rfl rfl
  exact lines.eq_4 c cs hc hjoined

lemma lines_append_feed (h : '\n' ∉ line) (hlast : line.getLast? ≠ some '\r') :
    lines (line ++ '\n' :: rest) = line :: lines rest := by
  induction line with
  | nil => simp [lines]
  | cons c line ih =>
    rw [List.mem_cons, not_or] at h
    cases line with
    | nil =>
      rw [List.singleton_append, lines_cons (Ne.symm h.1)]
      · simp [lines]
      · rintro rfl
        exact absurd rfl hlast
    | cons d line =>
      rw [List.getLast?_cons_cons] at hlast
      rw [List.mem_cons, not_or] at h
      rw [List.cons_append, lines_cons (Ne.symm h.1), ih (by simpa using h.2) hlast]
      exact fun _ heq => h.2.1 (Option.some.inj heq).symm

lemma lines_append_return (h : '\n' ∉ line) :
    lines (line ++ '\r' :: '\n' :: rest) = line :: lines rest := by
  induction line with
  | nil => simp [lines]
  | cons c line ih =>
    rw [List.mem_cons, not_or] at h
    rw [List.cons_append, lines_cons (Ne.symm h.1), ih h.2]
    intro _ heq
    cases line with
    | nil => cases heq
    | cons d line => exact h.2 (List.mem_cons.mpr (Or.inl (Option.some.inj heq).symm))

lemma lines_of_not_mem (hne : line ≠ []) (h : '\n' ∉ line) : lines line = [line] := by
  induction line with
  | nil => exact absurd rfl hne
  | cons c line ih =>
    rw [List.mem_cons, not_or] at h
    rw [lines_cons (Ne.symm h.1)]
    · cases line with
      | nil => rfl
      | cons d line => rw [ih (List.cons_ne_nil d line) h.2]
    · intro _ heq
      exact h.2 (List.mem_of_mem_head? heq)

/-- A line is read as it was written, but for a carriage return at its end. -/
lemma lines_append (rest : List Char) (h : '\n' ∉ line) :
    ∃ read, lines (line ++ '\n' :: rest) = read :: lines rest ∧
      (line = read ∨ line = read ++ ['\r']) := by
  by_cases hlast : line.getLast? = some '\r'
  · obtain ⟨read, rfl⟩ := List.getLast?_eq_some_iff.mp hlast
    rw [List.mem_append, not_or] at h
    refine ⟨read, ?_, Or.inr rfl⟩
    rw [List.append_assoc, List.singleton_append, lines_append_return h.1]
  · exact ⟨line, lines_append_feed h hlast, Or.inl rfl⟩

lemma lines_append_of_not_mem (h : '\n' ∉ line) (hreturn : '\r' ∉ line) :
    lines (line ++ '\n' :: rest) = line :: lines rest :=
  lines_append_feed h fun hlast => hreturn (List.mem_of_mem_getLast? hlast)

lemma not_mem_of_mem_lines (h : line ∈ lines cs) : '\n' ∉ line := by
  fun_induction lines cs generalizing line with
  | case1 => cases h
  | case2 rest ih =>
    rcases List.mem_cons.mp h with rfl | h
    · exact List.not_mem_nil
    · exact ih h
  | case3 rest ih =>
    rcases List.mem_cons.mp h with rfl | h
    · exact List.not_mem_nil
    · exact ih h
  | case4 c rest hfeed hreturn hlines ih =>
    rw [List.mem_singleton.mp h, List.mem_singleton]
    exact fun heq => hfeed heq.symm
  | case5 c rest hfeed hreturn first more hlines ih =>
    rcases List.mem_cons.mp h with rfl | h
    · rw [List.mem_cons, not_or]
      exact ⟨fun heq => hfeed heq.symm, ih (hlines ▸ List.mem_cons_self)⟩
    · exact ih (hlines ▸ List.mem_cons_of_mem _ h)

end BlockPainting.Text
