import BlockPainting.Proofs.Listing.Grammar

/-!
# The texts of block ids

Many texts name one id, since its numbers may begin with a plus sign and with zeros. One of the
texts is plain, with neither, and it is the one that is written.
-/

namespace BlockPainting.Grammar

open Success Text

/-- One or more digits that write the number, behind a plus sign or without one. -/
def Figures (n : Nat) (cs : List Char) : Prop :=
  ∃ digits, digits ≠ [] ∧ (∀ c ∈ digits, '0' ≤ c ∧ c ≤ '9') ∧
    Nat.ofDigitChars 10 digits 0 = n ∧ (cs = digits ∨ cs = '+' :: digits)

/-- A number up to the largest of 32 bits, and numbers below four, each behind a point. -/
def Named (cs : List Char) : Prop :=
  ∃ root path, cs = ['.'].intercalate (root :: path) ∧ (∃ n ≤ maxRoot, Figures n root) ∧
    ∀ piece ∈ path, ∃ n < 4, Figures n piece

/-- The text from its first character that is not zero, or its last character. -/
def withoutZeros : List Char → List Char
  | '0' :: c :: cs => withoutZeros (c :: cs)
  | cs => cs

/-- The text without a plus sign and zeros at the front. -/
def bare : List Char → List Char
  | '+' :: digits => withoutZeros digits
  | digits => withoutZeros digits

def plain (cs : List Char) : List Char :=
  ['.'].intercalate ((fields '.' cs).map bare)

variable {n : Nat} {cs : List Char} {id : BlockId}

lemma figures_iff_numeral : Figures n cs ↔ Numeral n cs := by
  constructor
  · rintro ⟨digits, hne, hdigits, rfl, hcs⟩
    have hall : ∀ c ∈ digits, Text.isDigit c = true := fun c hc => by
      simpa [Text.isDigit] using hdigits c hc
    obtain ⟨zeros, hzeros⟩ := exists_zeros hne hall
    rcases hcs with rfl | rfl
    · exact ⟨[], zeros, Or.inl rfl, hzeros⟩
    · exact ⟨['+'], zeros, Or.inr rfl, congrArg ('+' :: ·) hzeros⟩
  · rintro ⟨sign, zeros, hsign, rfl⟩
    have digits : Digits n (List.replicate zeros '0' ++ Nat.toDigits 10 n) := ⟨zeros, rfl⟩
    refine ⟨_, digits.ne_nil, fun c hc => ?_, digits.value_eq, ?_⟩
    · simpa [Text.isDigit] using digits.isDigit hc
    · exact hsign.imp (fun h => by rw [h, List.nil_append]) fun h => by rw [h]; rfl

lemma exists_name_iff_named : (∃ id, Name id cs) ↔ Named cs := by
  constructor
  · rintro ⟨⟨root, path⟩, readable, pieces, hpieces, rfl⟩
    obtain ⟨first, rest, hroot, hpath, rfl⟩ := List.forall₂_cons_left_iff.mp hpieces
    refine ⟨first, rest, rfl, ⟨root, readable.1, figures_iff_numeral.mpr hroot⟩,
      fun piece hpiece => ?_⟩
    obtain ⟨index, hindex, numeral⟩ := exists_of_mem_right hpath hpiece
    exact ⟨index, readable.2 index hindex, figures_iff_numeral.mpr numeral⟩
  · rintro ⟨first, rest, rfl, ⟨root, root_le, hroot⟩, hrest⟩
    obtain ⟨path, hpath⟩ := exists_forall₂ hrest
    have hread := List.Forall₂.flip hpath
    refine ⟨⟨root, path⟩, ⟨root_le, fun index hindex => ?_⟩, first :: rest,
      .cons (figures_iff_numeral.mp hroot) (hread.imp fun _ _ h => figures_iff_numeral.mp h.2), rfl⟩
    obtain ⟨_, _, index_lt, _⟩ := exists_of_mem_left hread hindex
    exact index_lt

lemma parse_eq_ok_iff {s : String} : BlockId.parse s = .ok id ↔ Name id s.toList := by
  rw [← read?_eq_some_iff, BlockId.parse]
  split <;> simp [*]

lemma parse_of_not_named {s : String} (h : ¬ Named s.toList) : BlockId.parse s = .error ⟨s⟩ := by
  unfold BlockId.parse
  split
  · rename_i id hid
    exact absurd (exists_name_iff_named.mp ⟨id, read?_eq_some_iff.mp hid⟩) h
  · rfl

lemma numeral_toDigits (n : Nat) : Numeral n (Nat.toDigits 10 n) :=
  ⟨[], 0, Or.inl rfl, rfl⟩

lemma name_text (h : id.Readable) : Name id id.text.toList := by
  refine ⟨h, _, ?_, BlockId.toList_text id⟩
  exact List.forall₂_map_right_iff.mpr (List.forall₂_same.mpr fun n _ => numeral_toDigits n)

lemma parse_text (h : id.Readable) : BlockId.parse id.text = .ok id :=
  parse_eq_ok_iff.mpr (name_text h)

lemma withoutZeros_append (zeros : Nat) (h : cs ≠ []) :
    withoutZeros (List.replicate zeros '0' ++ cs) = withoutZeros cs := by
  induction zeros with
  | zero => rfl
  | succ zeros ih =>
    obtain ⟨c, rest, hrest⟩ : ∃ c rest, List.replicate zeros '0' ++ cs = c :: rest :=
      List.exists_cons_of_ne_nil (by simp [h])
    rw [List.replicate_succ, List.cons_append, hrest, withoutZeros, ← hrest, ih]

lemma exists_withoutZeros (h : cs ≠ []) :
    withoutZeros cs ≠ [] ∧ ∃ zeros, cs = List.replicate zeros '0' ++ withoutZeros cs := by
  fun_induction withoutZeros cs with
  | case1 c cs ih =>
    obtain ⟨hne, zeros, heq⟩ := ih (List.cons_ne_nil c cs)
    refine ⟨hne, zeros + 1, ?_⟩
    rw [List.replicate_succ, List.cons_append, ← heq]
  | case2 cs => exact ⟨h, 0, rfl⟩

lemma withoutZeros_toDigits (n : Nat) : withoutZeros (Nat.toDigits 10 n) = Nat.toDigits 10 n := by
  obtain ⟨hne, zeros, heq⟩ := exists_withoutZeros (Nat.toDigits_ne_nil (n := n) (b := 10))
  have hdigits : ∀ c ∈ withoutZeros (Nat.toDigits 10 n), Text.isDigit c = true := by
    intro c hc
    apply isDigit_of_mem_toDigits
    rw [heq]
    exact List.mem_append_right _ hc
  have hvalue : Nat.ofDigitChars 10 (withoutZeros (Nat.toDigits 10 n)) 0 = n := by
    have h := Nat.ofDigitChars_ten_toDigits (n := n)
    rwa [heq, Nat.ofDigitChars_append, Nat.ofDigitChars_replicate_zero, Nat.mul_zero] at h
  -- What is left still ends in all the digits of the number, so nothing was dropped.
  obtain ⟨zeros', heq'⟩ := exists_zeros hne hdigits
  rw [hvalue] at heq'
  have hlength := congrArg List.length heq
  have hlength' := congrArg List.length heq'
  rw [List.length_append, List.length_replicate] at hlength hlength'
  have hzero : zeros = 0 := by omega
  rw [hzero] at heq
  exact heq.symm

lemma bare_of_not_mem (h : '+' ∉ cs) : bare cs = withoutZeros cs := by
  unfold bare
  split
  · exact absurd List.mem_cons_self h
  · rfl

lemma Numeral.bare_eq (h : Numeral n cs) : bare cs = Nat.toDigits 10 n := by
  obtain ⟨sign, zeros, hsign, rfl⟩ := h
  have hwithout : withoutZeros (List.replicate zeros '0' ++ Nat.toDigits 10 n) =
      Nat.toDigits 10 n := by
    rw [withoutZeros_append zeros Nat.toDigits_ne_nil, withoutZeros_toDigits]
  rcases hsign with rfl | rfl
  · have digits : Digits n (List.replicate zeros '0' ++ Nat.toDigits 10 n) := ⟨zeros, rfl⟩
    have hplus : '+' ∉ List.replicate zeros '0' ++ Nat.toDigits 10 n :=
      fun hmem => absurd (digits.isDigit hmem) (by decide)
    rw [List.nil_append, bare_of_not_mem hplus, hwithout]
  · exact hwithout

lemma Name.plain_eq (h : Name id cs) : plain cs = id.text.toList := by
  obtain ⟨_, pieces, hpieces, rfl⟩ := h
  have hbare : pieces.map bare = (id.root :: id.path).map (Nat.toDigits 10) := by
    rw [← List.forall₂_eq_eq_eq, List.forall₂_map_left_iff, List.forall₂_map_right_iff]
    exact (List.Forall₂.flip hpieces).imp fun _ _ => Numeral.bare_eq
  obtain ⟨first, rest, _, _, rfl⟩ := List.forall₂_cons_left_iff.mp hpieces
  rw [plain, fields_intercalate (point_not_mem hpieces), hbare, BlockId.toList_text]

lemma text_inj {id' : BlockId} (h : id.Readable) (h' : id'.Readable) (heq : id.text = id'.text) :
    id = id' := by
  have hparse := parse_text h
  rw [heq, parse_text h'] at hparse
  exact (Except.ok.inj hparse).symm

end BlockPainting.Grammar

namespace BlockPainting.BlockId

open Grammar

/-- Reading accepts the texts that name an id and no others. It gives back every id that is
written, and what it reads is written as the plain form of the text, so that two texts name one id
exactly if their plain forms are equal. -/
theorem parse_accepts_names :
    (∀ s, (∃ id, parse s = .ok id) ↔ Named s.toList) ∧
      (∀ s, ¬ Named s.toList → parse s = .error ⟨s⟩) ∧
      (∀ id : BlockId, id.Readable → parse id.text = .ok id) ∧
      (∀ s id, parse s = .ok id → id.text.toList = plain s.toList) ∧
      ∀ s t id id', parse s = .ok id → parse t = .ok id' →
        (id = id' ↔ plain s.toList = plain t.toList) := by
  have haccepts : ∀ s, (∃ id, parse s = .ok id) ↔ Named s.toList := fun s => by
    rw [← exists_name_iff_named]
    exact exists_congr fun id => parse_eq_ok_iff
  have hplain : ∀ s id, parse s = .ok id → id.text.toList = plain s.toList :=
    fun s id h => (parse_eq_ok_iff.mp h).plain_eq.symm
  refine ⟨haccepts, fun s => parse_of_not_named, fun id => parse_text, hplain, ?_⟩
  intro s t id id' h h'
  rw [← hplain s id h, ← hplain t id' h', String.toList_inj]
  constructor
  · exact fun heq => congrArg text heq
  · exact text_inj (parse_eq_ok_iff.mp h).1 (parse_eq_ok_iff.mp h').1

theorem parse_accepts_names_of_signs :
    parse "+003.+0.2" = .ok ⟨3, [0, 2]⟩ ∧ parse "3.00.02" = .ok ⟨3, [0, 2]⟩ ∧
      plain "+003.+0.2".toList = plain "3.00.02".toList ∧
      (⟨3, [0, 2]⟩ : BlockId).text.toList = plain "+003.+0.2".toList ∧
      parse (⟨3, [0, 2]⟩ : BlockId).text = .ok ⟨3, [0, 2]⟩ ∧
      ¬ Named "3..2".toList ∧ parse "3..2" = .error ⟨"3..2"⟩ := by
  obtain ⟨haccepts, hrefuses, htext, hplain, hsame⟩ := parse_accepts_names
  have hsigned : parse "+003.+0.2" = .ok ⟨3, [0, 2]⟩ := by rfl
  have hzeros : parse "3.00.02" = .ok ⟨3, [0, 2]⟩ := by rfl
  have hreadable : (⟨3, [0, 2]⟩ : BlockId).Readable := ⟨by decide, by decide⟩
  have hnone : read? "3..2".toList = none := by rfl
  have hnamed : ¬ Named "3..2".toList := by
    intro h
    obtain ⟨id, hid⟩ := (haccepts "3..2").mpr h
    rw [parse, hnone] at hid
    cases hid
  exact ⟨hsigned, hzeros, (hsame _ _ _ _ hsigned hzeros).mp rfl, hplain _ _ hsigned,
    htext _ hreadable, hnamed, hrefuses _ hnamed⟩

end BlockPainting.BlockId
