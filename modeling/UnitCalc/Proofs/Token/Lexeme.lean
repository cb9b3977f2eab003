import Mathlib.Data.List.Chain
import UnitCalc.Proofs.Binary64.Range
import UnitCalc.Token.Canonical

/-!
# Open lexemes and canonical tokens

`Lexeme.Spells l cs` says that the characters `cs` have led to the open lexeme `l`, whose value is
that of these characters as a literal. A lexeme keeps being spelled while it is extended, and
closing it gives a canonical token of that text. The other canonical tokens are single characters,
which continue no lexeme.
-/

namespace UnitCalc

variable {c : Char} {cs : List Char} {l l' : Lexeme} {t u : Token} {ts us : List Token}

/-! ## Character classes -/

theorem Text.isBlank_eq_false (hlow : 0x20 < c.toNat) (hhigh : c.toNat < 0x7F) :
    isBlank c = false := by
  simp only [isBlank, Bool.or_eq_false_iff, Bool.and_eq_false_iff, decide_eq_false_iff_not,
    beq_eq_false_iff_ne]
  omega

theorem toNat_of_isDigit (h : c.isDigit = true) : 0x30 ≤ c.toNat ∧ c.toNat ≤ 0x39 := by
  obtain ⟨hlow, hhigh⟩ := Bool.and_eq_true_iff.mp h
  exact ⟨of_decide_eq_true hlow, of_decide_eq_true hhigh⟩

theorem toNat_of_isNameChar (h : isNameChar c = true) : 0x41 ≤ c.toNat ∧ c.toNat ≤ 0x7A := by
  rcases Bool.or_eq_true_iff.mp h with h | h
  · obtain ⟨hlow, hhigh⟩ : 0x41 ≤ c.toNat ∧ c.toNat ≤ 0x5A := of_decide_eq_true h
    exact ⟨hlow, hhigh.trans (by decide)⟩
  · obtain ⟨hlow, hhigh⟩ := Bool.and_eq_true_iff.mp h
    have hlow : 0x61 ≤ c.toNat := of_decide_eq_true hlow
    exact ⟨le_trans (by decide) hlow, of_decide_eq_true hhigh⟩

theorem isNameChar_of_isDigit (h : c.isDigit = true) : isNameChar c = false := by
  by_contra hn
  have hd := toNat_of_isDigit h
  have ha := toNat_of_isNameChar (Bool.not_eq_false _ ▸ hn)
  omega

theorem isDigit_of_isNameChar (h : isNameChar c = true) : c.isDigit = false := by
  by_contra hd
  rw [isNameChar_of_isDigit (Bool.not_eq_false _ ▸ hd)] at h
  cases h

theorem ne_point_of_isNameChar (h : isNameChar c = true) : c ≠ '.' := by
  rintro rfl
  cases h

theorem ne_point_of_isDigit (h : c.isDigit = true) : c ≠ '.' := by
  rintro rfl
  cases h

/-! ## Literals -/

namespace Literal

theorem whole_singleton (c : Char) : whole [c] = digit c := by
  simp [whole, Nat.ofDigitChars, digit]

theorem whole_concat (cs : List Char) (c : Char) : whole (cs ++ [c]) = whole cs * 10 + digit c := by
  simp [whole, Nat.ofDigitChars, digit, Nat.mul_comm]

theorem placeValue?_eq (place : Nat) : placeValue? place =
    if place ≤ 308 then some (.one false / .ofRatio (10 ^ place) 1) else none := by
  unfold placeValue?
  rw [Binary64.ofInt?_natCast]
  by_cases h : place ≤ 308
  · rw [if_pos h, if_pos (Binary64.ten_pow_lt_iff.mpr h)]
    rfl
  · rw [if_neg h, if_neg (h ∘ Binary64.ten_pow_lt_iff.mp)]
    rfl

theorem decimal_concat (wholeDigits fraction : List Char) (c : Char) :
    decimal wholeDigits (fraction ++ [c]) = addDigit (decimal wholeDigits fraction)
      (.one false / .ofRatio (10 ^ (fraction.length + 1)) 1) c := by
  rw [decimal, List.zipIdx_append, List.foldl_append, ← decimal, Nat.add_comm]
  rfl

end Literal

/-! ## Open lexemes -/

/-- The characters that lead to an open lexeme. -/
inductive Lexeme.Spells : Lexeme → List Char → Prop where
  | name {cs : List Char} : cs ≠ [] → (∀ c ∈ cs, isNameChar c = true) →
      Spells (.name cs.reverse) cs
  | whole {cs : List Char} :
      Token.IsDigits cs → Spells (.whole (Literal.whole cs) cs.reverse) cs
  | decimal {whole fraction : List Char} :
      Token.IsDigits whole → (∀ c ∈ fraction, c.isDigit = true) →
      Literal.whole whole < Binary64.overflowThreshold → fraction.length ≤ 308 →
      Spells (.decimal (Literal.decimal whole fraction) (fraction.length + 1)
        (whole ++ '.' :: fraction).reverse) (whole ++ '.' :: fraction)

namespace Token

theorem isDigits_singleton (hc : c.isDigit = true) : IsDigits [c] :=
  ⟨List.cons_ne_nil _ _, List.forall_mem_singleton.mpr hc⟩

theorem IsDigits.concat (h : IsDigits cs) (hc : c.isDigit = true) : IsDigits (cs ++ [c]) :=
  ⟨by simp, List.forall_mem_append.mpr ⟨h.2, List.forall_mem_singleton.mpr hc⟩⟩

/-- The characters of a token. -/
def chars (t : Token) : List Char := t.text.toList

end Token

namespace Lexeme

open Token (IsCanonical)

theorem Spells.ne_nil (h : l.Spells cs) : cs ≠ [] := by
  cases h with
  | name hne => exact hne
  | whole hd => exact hd.1
  | decimal => simp

theorem Spells.isCanonical_close (h : l.Spells cs) : IsCanonical l.close := by
  cases h with
  | name hne hall =>
    rw [close, List.reverse_reverse]
    exact .name hne hall
  | whole hd =>
    rw [close, List.reverse_reverse]
    exact .integer hd
  | decimal hw hf hlt hlen =>
    rw [close, List.reverse_reverse]
    exact .decimal hw hf hlt hlen

theorem Spells.chars_close (h : l.Spells cs) : l.close.chars = cs := by
  have hne : String.ofList cs ≠ "" := fun he ↦ h.ne_nil (by simpa using he)
  cases h <;> simp [close, Token.chars, Token.text, hne]

/-- The first character tells names from numbers. -/
theorem Spells.isName_close (h : l.Spells cs) : l.close.isName = cs.head?.any isNameChar := by
  cases h with
  | @name cs hne hall =>
    cases cs with
    | nil => exact absurd rfl hne
    | cons c cs => exact (hall c (by simp)).symm
  | @whole cs hd =>
    cases cs with
    | nil => exact absurd rfl hd.1
    | cons c cs => exact (isNameChar_of_isDigit (hd.2 c (by simp))).symm
  | @decimal whole fraction hd =>
    cases whole with
    | nil => exact absurd rfl hd.1
    | cons c cs => exact (isNameChar_of_isDigit (hd.2 c (by simp))).symm

theorem Spells.isNumber_close (h : l.Spells cs) :
    l.close.isNumber = cs.head?.any Char.isDigit := by
  cases h with
  | @name cs hne hall =>
    cases cs with
    | nil => exact absurd rfl hne
    | cons c cs => exact (isDigit_of_isNameChar (hall c (by simp))).symm
  | @whole cs hd =>
    cases cs with
    | nil => exact absurd rfl hd.1
    | cons c cs => exact (hd.2 c (by simp)).symm
  | @decimal whole fraction hd =>
    cases whole with
    | nil => exact absurd rfl hd.1
    | cons c cs => exact (hd.2 c (by simp)).symm

/-! ### Extending a lexeme -/

/-- Whether a character continues a lexeme. -/
def accepts (c : Char) : Lexeme → Bool
  | name _ => isNameChar c
  | whole .. => c.isDigit || c == '.'
  | decimal .. => c.isDigit

/-- The characters of a number and the next one that ask for a number out of range: a point after a
whole part that is too large, or a digit too far behind the point. -/
def Overflows (cs : List Char) (c : Char) : Prop :=
  (Token.IsDigits cs ∧ Binary64.overflowThreshold ≤ Literal.whole cs ∧ c = '.') ∨
    ∃ whole fraction, Token.IsDigits whole ∧ cs = whole ++ '.' :: fraction ∧
      fraction.length = 308 ∧ c.isDigit = true

theorem accepts_of_isName (h : l.close.isName = true) : l.accepts c = isNameChar c := by
  cases l with
  | name => rfl
  | whole | decimal => cases h

theorem accepts_of_isNumber (h : l.close.isNumber = true) (hc : c ≠ '.') :
    l.accepts c = c.isDigit := by
  cases l with
  | name => cases h
  | whole => simp [accepts, hc]
  | decimal => rfl

theorem extend?_of_not_accepts (h : l.accepts c = false) : l.extend? c = .ok none := by
  cases l with
  | name letters =>
    rw [accepts] at h
    simp [extend?, h]
  | whole value digits =>
    rw [accepts, Bool.or_eq_false_iff, beq_eq_false_iff_ne] at h
    simp [extend?, h.1, h.2]
  | decimal value place spelling =>
    rw [accepts] at h
    simp [extend?, h]

/-- The whole part of a number with a point. -/
theorem takeWhile_isDigit {whole fraction : List Char} (h : Token.IsDigits whole) :
    (whole ++ '.' :: fraction).takeWhile Char.isDigit = whole := by
  rw [List.takeWhile_append_of_pos h.2]
  simp

theorem not_isDigits_point (whole fraction : List Char) :
    ¬Token.IsDigits (whole ++ '.' :: fraction) := by
  intro h
  have := h.2 '.' (by simp)
  cases this

/-- A digit after the point either overflows or is added at its place. -/
theorem overflows_decimal_iff {whole fraction : List Char} (hw : Token.IsDigits whole)
    (hc : c.isDigit = true) : Overflows (whole ++ '.' :: fraction) c ↔ fraction.length = 308 := by
  constructor
  · rintro (⟨hd, -⟩ | ⟨whole', fraction', hw', heq, hlen, -⟩)
    · exact absurd hd (not_isDigits_point whole fraction)
    · have hwhole : whole = whole' := by
        calc whole
          _ = (whole ++ '.' :: fraction).takeWhile Char.isDigit := (takeWhile_isDigit hw).symm
          _ = whole' := by rw [heq, takeWhile_isDigit hw']
      rw [hwhole] at heq
      rw [List.cons.inj (List.append_cancel_left heq) |>.2, hlen]
  · intro hlen
    exact .inr ⟨whole, fraction, hw, rfl, hlen, hc⟩

/-- A character after digits overflows only if it is a point after too many of them. -/
theorem overflows_whole_iff (hd : Token.IsDigits cs) :
    Overflows cs c ↔ Binary64.overflowThreshold ≤ Literal.whole cs ∧ c = '.' := by
  constructor
  · rintro (⟨-, hlt, hc⟩ | ⟨whole, fraction, -, rfl, -⟩)
    · exact ⟨hlt, hc⟩
    · exact absurd hd (not_isDigits_point whole fraction)
  · rintro ⟨hlt, hc⟩
    exact .inl ⟨hd, hlt, hc⟩

theorem not_overflows_name (hc : isNameChar c = true) : ¬Overflows cs c := by
  rintro (⟨-, -, rfl⟩ | ⟨-, -, -, -, -, hd⟩)
  · cases hc
  · rw [isDigit_of_isNameChar hc] at hd
    cases hd

/-- A point is read only after a whole part that is finite as a binary64 number. -/
theorem extend?_point (cs : List Char) : (whole (Literal.whole cs) cs.reverse).extend? '.' =
    if Literal.whole cs < Binary64.overflowThreshold then
      .ok (some (.decimal (Literal.decimal cs []) 1 ('.' :: cs.reverse)))
    else .error .integerTooLarge := by
  have hof := Binary64.ofInt?_natCast (Literal.whole cs)
  have hpoint : ('.' : Char).isDigit = false := rfl
  by_cases hlt : Literal.whole cs < Binary64.overflowThreshold
  · rw [if_pos hlt] at hof ⊢
    simp only [extend?, hof, hpoint, if_neg Bool.false_ne_true, if_true]
    rw [Literal.decimal, List.zipIdx_nil, List.foldl_nil]
  · rw [if_neg hlt] at hof ⊢
    simp only [extend?, hof, hpoint, if_neg Bool.false_ne_true, if_true]

/-- A digit after the point is read only at a place whose power of ten is finite. -/
theorem extend?_digit (ds fraction spelling : List Char) (hc : c.isDigit = true) :
    (decimal (Literal.decimal ds fraction) (fraction.length + 1) spelling).extend? c =
      if fraction.length < 308 then
        .ok (some (.decimal (Literal.decimal ds (fraction ++ [c])) ((fraction ++ [c]).length + 1)
          (c :: spelling)))
      else .error .integerTooLarge := by
  have hvalue := Literal.placeValue?_eq (fraction.length + 1)
  rw [Literal.decimal_concat, List.length_append]
  by_cases hplace : fraction.length < 308
  · rw [if_pos (Nat.succ_le_of_lt hplace)] at hvalue
    rw [if_pos hplace]
    simp only [extend?, hc, hvalue]
    rfl
  · rw [if_neg (hplace ∘ Nat.lt_of_succ_le)] at hvalue
    rw [if_neg hplace]
    simp only [extend?, hc, hvalue]
    rfl

/-- A character that continues a lexeme extends it, unless it asks for a number out of range. -/
theorem Spells.extend (h : l.Spells cs) (ha : l.accepts c = true) :
    (∃ l', l.extend? c = .ok (some l') ∧ l'.Spells (cs ++ [c]) ∧ ¬Overflows cs c) ∨
      (l.extend? c = .error .integerTooLarge ∧ Overflows cs c) := by
  cases h with
  | name hne hall =>
    rw [accepts] at ha
    refine .inl ⟨.name (c :: cs.reverse), by simp [extend?, ha], ?_, not_overflows_name ha⟩
    rw [← List.reverse_concat]
    exact .name (by simp) (List.forall_mem_append.mpr ⟨hall, List.forall_mem_singleton.mpr ha⟩)
  | whole hd =>
    rw [accepts, Bool.or_eq_true, beq_iff_eq] at ha
    rw [overflows_whole_iff hd]
    rcases ha with hc | rfl
    · refine .inl ⟨.whole (Literal.whole cs * 10 + Literal.digit c) (c :: cs.reverse),
        by simp [extend?, hc], ?_, ?_⟩
      · rw [← List.reverse_concat, ← Literal.whole_concat]
        exact .whole (hd.concat hc)
      · exact fun ho ↦ ne_point_of_isDigit hc ho.2
    · rw [extend?_point]
      by_cases hlt : Literal.whole cs < Binary64.overflowThreshold
      · rw [if_pos hlt]
        refine .inl ⟨_, rfl, ?_, fun ho ↦ absurd hlt (Nat.not_lt.mpr ho.1)⟩
        rw [← List.reverse_concat]
        exact @Spells.decimal cs [] hd (by simp) hlt (Nat.zero_le _)
      · rw [if_neg hlt]
        exact .inr ⟨rfl, Nat.not_lt.mp hlt, rfl⟩
  | @decimal whole fraction hw hf hlt hlen =>
    rw [accepts] at ha
    rw [extend?_digit _ _ _ ha, overflows_decimal_iff hw ha]
    by_cases hplace : fraction.length < 308
    · rw [if_pos hplace]
      refine .inl ⟨_, rfl, ?_, Nat.ne_of_lt hplace⟩
      rw [← List.reverse_concat, List.append_assoc, List.cons_append]
      refine .decimal hw ?_ hlt ?_
      · exact List.forall_mem_append.mpr ⟨hf, List.forall_mem_singleton.mpr ha⟩
      · rw [List.length_append]
        exact hplace
    · rw [if_neg hplace]
      exact .inr ⟨rfl, Nat.le_antisymm hlen (Nat.not_lt.mp hplace)⟩

/-- A lexeme of several characters comes from the lexeme of all but the last of them. -/
theorem Spells.exists_extend (h : l.Spells (cs ++ [c])) (hne : cs ≠ []) :
    ∃ l' : Lexeme, l'.Spells cs ∧ l'.extend? c = .ok (some l) := by
  generalize hds : cs ++ [c] = ds at h
  cases h with
  | name _ hall =>
    subst hds
    have hc : isNameChar c = true := hall c (by simp)
    refine ⟨_, .name hne fun d hd ↦ hall d (List.mem_append_left _ hd), ?_⟩
    rw [extend?, if_pos hc, List.reverse_concat]
  | whole hd =>
    subst hds
    have hc : c.isDigit = true := hd.2 c (by simp)
    refine ⟨_, .whole ⟨hne, fun d hmem ↦ hd.2 d (List.mem_append_left _ hmem)⟩, ?_⟩
    rw [extend?, if_pos hc, List.reverse_concat, Literal.whole_concat]
  | @decimal whole fraction hw hf hlt hlen =>
    -- the last character is the point if no digit follows it
    rcases List.eq_nil_or_concat fraction with rfl | ⟨fraction, d, rfl⟩
    · obtain ⟨rfl, hc⟩ := List.append_inj' hds rfl
      cases hc
      refine ⟨_, .whole hw, ?_⟩
      rw [extend?_point, if_pos hlt, List.reverse_concat]
      rfl
    · rw [List.concat_eq_append] at hf hlen hds ⊢
      rw [← List.cons_append, ← List.append_assoc] at hds
      obtain ⟨rfl, hc⟩ := List.append_inj' hds rfl
      cases hc
      have hplace : fraction.length < 308 := by
        rw [List.length_append] at hlen
        exact hlen
      have hf' := List.forall_mem_append.mp hf
      refine ⟨_, .decimal hw hf'.1 hlt hplace.le, ?_⟩
      rw [extend?_digit _ _ _ (hf'.2 c (by simp)), if_pos hplace, ← List.reverse_concat,
        List.append_assoc, List.cons_append]

end Lexeme

end UnitCalc
