import UnitCalc.Proofs.Decimal.Magnitude
import UnitCalc.Proofs.Token.Lexeme

/-!
# Written decimals

`Decimal.write` lays the significant digits of a decimal out, and `Decimal.read?` reads them back:
not always with the same coefficient and exponent, but with the same magnitude. `Reads` says how the
characters of an unsigned number are divided, so that reading is followed once for all layouts.

A notation that keeps the point of whole numbers differs from one that does not in a final `.0`
alone.
-/

namespace UnitCalc

open Token (IsDigits)

variable {cs ds w f t mark : List Char} {c k n : Nat} {e x : Int} {ch : Char} {d : Decimal}
  {s : Bool} {l u : Int}

namespace Decimal

/-! ## Layouts -/

/-- The characters of a number after its sign. -/
def signed (negative : Bool) (cs : List Char) : List Char := if negative then '-' :: cs else cs

/-- The characters of a decimal in a notation, without its sign. -/
def body (style : Notation) (d : Decimal) : List Char :=
  if style.leastPositional ≤ d.leadingExponent ∧ d.leadingExponent < style.firstScientific then
    positional style.keepsPoint d.digits d.leadingExponent
  else scientific d.digits d.leadingExponent

theorem write_eq (style : Notation) (d : Decimal) :
    d.write style = String.ofList (signed d.negative (d.body style)) := rfl

theorem signed_append (s : Bool) (cs ds : List Char) :
    signed s (cs ++ ds) = signed s cs ++ ds := by
  unfold signed
  split <;> rfl

theorem isDigits_digits (d : Decimal) : IsDigits d.digits := by
  refine ⟨digits_ne_nil, fun c hc ↦ ?_⟩
  by_cases hd : d.coefficient = 0
  · rw [digits_of_coefficient_eq_zero hd, List.mem_singleton] at hc
    rw [hc]
    rfl
  · obtain ⟨k, hk⟩ := exists_toDigits_eq hd
    refine Nat.isDigit_of_mem_toDigits (b := 10) (n := d.coefficient) (by decide) (by decide) ?_
    rw [hk]
    exact List.mem_append_left _ hc

theorem positional_of_neg (hx : x < 0) (keepsPoint : Bool) (ds : List Char) :
    positional keepsPoint ds x = ['0', '.'] ++ List.replicate (-x - 1).toNat '0' ++ ds := by
  rw [positional, if_pos hx]

theorem positional_of_length_le (hx : 0 ≤ x) (hlen : ds.length ≤ x + 1) (keepsPoint : Bool) :
    positional keepsPoint ds x =
      ds ++ List.replicate ((x + 1).toNat - ds.length) '0'
        ++ (if keepsPoint then ['.', '0'] else []) := by
  rw [positional, if_neg (Int.not_lt.mpr hx), if_pos (by omega)]

theorem positional_of_lt_length (hx : 0 ≤ x) (hlen : x + 1 < ds.length) (keepsPoint : Bool) :
    positional keepsPoint ds x = ds.take (x + 1).toNat ++ '.' :: ds.drop (x + 1).toNat := by
  rw [positional, if_neg (Int.not_lt.mpr hx), if_neg (by omega)]

/-- The digits of an exponent, at least two. -/
def exponentDigits (x : Int) : List Char :=
  List.replicate (2 - (Nat.toDigits 10 x.natAbs).length) '0' ++ Nat.toDigits 10 x.natAbs

theorem scientific_eq (ds : List Char) (x : Int) :
    scientific ds x = ds.take 1 ++ (if ds.drop 1 = [] then [] else '.' :: ds.drop 1)
      ++ ['e', if x < 0 then '-' else '+'] ++ exponentDigits x := by
  rw [exponentDigits, ← List.append_assoc]
  rfl

theorem isDigits_exponentDigits (x : Int) : IsDigits (exponentDigits x) := by
  constructor
  · exact List.append_ne_nil_of_right_ne_nil _ Nat.toDigits_ne_nil
  · refine List.forall_mem_append.mpr ⟨fun c hc ↦ ?_, fun c hc ↦ ?_⟩
    · rw [List.eq_of_mem_replicate hc]
      rfl
    · exact Nat.isDigit_of_mem_toDigits (by decide) (by decide) hc

theorem two_le_length_exponentDigits (x : Int) : 2 ≤ (exponentDigits x).length := by
  rw [exponentDigits, List.length_append, List.length_replicate]
  omega

theorem ofDigitChars_exponentDigits (x : Int) :
    Nat.ofDigitChars 10 (exponentDigits x) 0 = x.natAbs := by
  rw [exponentDigits, Nat.ofDigitChars_append, Nat.ofDigitChars_replicate_zero, Nat.mul_zero,
    Nat.ofDigitChars_ten_toDigits]

/-! ## Without a final zero after the point -/

/-- A text without the point and the zero at its end, if it ends so. -/
def withoutPointZero (text : String) : String :=
  if ['.', '0'] <:+ text.toList then String.ofList (text.toList.rdrop 2) else text

theorem withoutPointZero_of_not_suffix (h : ¬['.', '0'] <:+ cs) :
    withoutPointZero (String.ofList cs) = String.ofList cs := by
  rw [withoutPointZero, String.toList_ofList, if_neg h]

theorem withoutPointZero_append (cs : List Char) :
    withoutPointZero (String.ofList (cs ++ ['.', '0'])) = String.ofList cs := by
  rw [withoutPointZero, String.toList_ofList, if_pos (List.suffix_append _ _)]
  exact congrArg String.ofList List.rdrop_append_length

theorem not_suffix_of_getLast? (hne : ds ≠ []) (h : ds.getLast? ≠ some '0') :
    ¬['.', '0'] <:+ cs ++ ds := by
  rintro ⟨l, hl⟩
  have hlast := congrArg List.getLast? hl
  rw [List.getLast?_append, List.getLast?_append, List.getLast?_eq_some_getLast hne] at hlast
  rw [List.getLast?_eq_some_getLast hne] at h
  exact h hlast.symm

theorem not_suffix_of_digits (hds : IsDigits ds) (hlen : 2 ≤ ds.length) :
    ¬['.', '0'] <:+ cs ++ ds := by
  intro h
  have hsuffix := List.suffix_of_suffix_length_le h (List.suffix_append cs ds) hlen
  have hpoint := hds.2 '.' (hsuffix.subset (List.mem_cons_self ..))
  cases hpoint

/-- The notations with and without a point in whole numbers differ in a final `.0`. -/
theorem withoutPointZero_write (l u : Int) (d : Decimal) :
    withoutPointZero (d.write ⟨l, u, true⟩) = d.write ⟨l, u, false⟩ := by
  have hne := digits_ne_nil (d := d)
  rw [write_eq, write_eq, body, body]
  dsimp only
  split
  · rcases lt_or_ge d.leadingExponent 0 with hx | hx
    · have hd : d.coefficient ≠ 0 := by
        intro h0
        rw [leadingExponent, if_pos h0] at hx
        exact absurd hx (lt_irrefl 0)
      -- the last significant digit ends the text
      rw [positional_of_neg hx, positional_of_neg hx, signed_append]
      exact withoutPointZero_of_not_suffix (not_suffix_of_getLast? hne (getLast?_digits hd))
    rcases le_or_gt (d.digits.length : Int) (d.leadingExponent + 1) with hlen | hlen
    · rw [positional_of_length_le hx hlen, positional_of_length_le hx hlen, if_pos rfl,
        if_neg Bool.false_ne_true, List.append_nil, signed_append, withoutPointZero_append]
    · have hd : d.coefficient ≠ 0 := by
        intro h0
        rw [digits_of_coefficient_eq_zero h0, leadingExponent, if_pos h0] at hlen
        exact absurd hlen (by decide)
      have hdrop : d.digits.drop (d.leadingExponent + 1).toNat ≠ [] := by
        rw [Ne, List.drop_eq_nil_iff]
        omega
      rw [positional_of_lt_length hx hlen, positional_of_lt_length hx hlen,
        List.append_cons, signed_append]
      refine withoutPointZero_of_not_suffix (not_suffix_of_getLast? hdrop ?_)
      rw [List.getLast?_drop, if_neg (by omega)]
      exact getLast?_digits hd
  · -- an exponent has two digits at least, so no point stands before its last one
    rw [scientific_eq, signed_append]
    exact withoutPointZero_of_not_suffix
      (not_suffix_of_digits (isDigits_exponentDigits _) (two_le_length_exponentDigits _))

/-- A decimal that is not written as a whole number has no point to keep. -/
theorem write_keepsPoint (h : ¬(0 ≤ d.leadingExponent ∧ d.leadingExponent < u ∧
    d.digits.length ≤ d.leadingExponent + 1)) :
    d.write ⟨l, u, true⟩ = d.write ⟨l, u, false⟩ := by
  rw [write_eq, write_eq, body, body]
  dsimp only
  split
  · next hx =>
    rcases lt_or_ge d.leadingExponent 0 with hneg | hpos
    · rw [positional_of_neg hneg, positional_of_neg hneg]
    · have hlen : d.leadingExponent + 1 < d.digits.length :=
        lt_of_not_ge fun hle ↦ h ⟨hpos, hx.2, hle⟩
      rw [positional_of_lt_length hpos hlen, positional_of_lt_length hpos hlen]
  · rfl

/-! ## Reading -/

/-- Digits behind a point, or neither. -/
inductive ReadsFraction : List Char → List Char → Prop where
  | none : ReadsFraction [] []
  | point {f : List Char} : (∀ c ∈ f, c.isDigit = true) → ReadsFraction ('.' :: f) f

/-- The mark of an exponent with a sign and digits, or nothing. -/
inductive ReadsExponent : List Char → Int → Prop where
  | none : ReadsExponent [] 0
  | mark (x : Int) : ReadsExponent (['e', if x < 0 then '-' else '+'] ++ exponentDigits x) x

/-- The characters of an unsigned number, with the coefficient and the exponent that are read. -/
inductive Reads : List Char → Nat → Int → Prop where
  | mk {w t f mark : List Char} {x : Int} : IsDigits w → ReadsFraction t f →
      ReadsExponent mark x →
      Reads (w ++ t ++ mark) (Nat.ofDigitChars 10 (w ++ f) 0) (x - f.length)

theorem readDigits?_of_isDigits (h : IsDigits cs) :
    Text.readDigits? cs = some (Nat.ofDigitChars 10 cs 0) := by
  rw [Text.readDigits?, if_pos ⟨h.1, List.all_eq_true.mpr h.2⟩]

theorem ReadsFraction.isDigit (h : ReadsFraction t f) : ∀ c ∈ f, c.isDigit = true := by
  cases h with
  | none => nofun
  | point hf => exact hf

theorem ne_of_isDigit (h : ch.isDigit = true) {c : Char} (hc : c.isDigit = false) : ch ≠ c := by
  rintro rfl
  rw [h] at hc
  cases hc

/-- The first character of an unsigned number is a digit. -/
theorem Reads.exists_cons (h : Reads cs c e) : ∃ ch rest, cs = ch :: rest ∧ ch.isDigit = true := by
  obtain ⟨hw, -, -⟩ := h
  obtain ⟨ch, w, rfl⟩ := List.exists_cons_of_ne_nil hw.1
  exact ⟨ch, _, rfl, hw.2 ch (List.mem_cons_self ..)⟩

theorem Reads.takeSign_signed (h : Reads cs c e) (s : Bool) :
    Text.takeSign (signed s cs) = (s, cs) := by
  obtain ⟨ch, rest, rfl, hch⟩ := h.exists_cons
  cases s with
  | true => rfl
  | false =>
    unfold signed Text.takeSign
    split
    · next h => exact absurd (List.cons.inj h).1 (ne_of_isDigit hch rfl)
    · next h => exact absurd (List.cons.inj h).1 (ne_of_isDigit hch rfl)
    · rfl

/-- What stands before the mark of the exponent is divided from it. -/
theorem takeWhile_mantissa (hw : IsDigits w) (hf : ReadsFraction t f) (hx : ReadsExponent mark x) :
    (w ++ t ++ mark).takeWhile (fun c ↦ c != 'e' && c != 'E') = w ++ t ∧
      (w ++ t ++ mark).dropWhile (fun c ↦ c != 'e' && c != 'E') = mark := by
  have hdigit : ∀ c : Char, c.isDigit = true → (c != 'e' && c != 'E') = true := fun c hc ↦ by
    rw [bne_iff_ne.mpr (ne_of_isDigit hc rfl), bne_iff_ne.mpr (ne_of_isDigit hc rfl)]
    rfl
  have hmantissa : ∀ c ∈ w ++ t, (c != 'e' && c != 'E') = true := by
    refine List.forall_mem_append.mpr ⟨fun c hc ↦ hdigit c (hw.2 c hc), ?_⟩
    cases hf with
    | none => nofun
    | point hf => exact List.forall_mem_cons.mpr ⟨rfl, fun c hc ↦ hdigit c (hf c hc)⟩
  rw [List.takeWhile_append_of_pos hmantissa, List.dropWhile_append_of_pos hmantissa]
  cases hx with
  | none => exact ⟨List.append_nil _, rfl⟩
  | mark x => exact ⟨List.append_nil _, rfl⟩

/-- The whole part and the fraction are divided by the point. -/
theorem takeWhile_whole (hw : IsDigits w) (hf : ReadsFraction t f) :
    (w ++ t).takeWhile (· != '.') = w ∧ ((w ++ t).dropWhile (· != '.')).drop 1 = f := by
  have hwhole : ∀ c ∈ w, (c != '.') = true :=
    fun c hc ↦ bne_iff_ne.mpr (ne_of_isDigit (hw.2 c hc) rfl)
  rw [List.takeWhile_append_of_pos hwhole, List.dropWhile_append_of_pos hwhole]
  cases hf with
  | none => exact ⟨List.append_nil _, rfl⟩
  | point hf => exact ⟨List.append_nil _, rfl⟩

/-- The exponent that is read from its mark on. -/
def readExponent? : List Char → Option Int
  | [] => some 0
  | _ :: mark => do
    let n ← Text.readDigits? (Text.takeSign mark).2
    some (if (Text.takeSign mark).1 then -(n : Int) else n)

theorem ReadsExponent.readExponent? (h : ReadsExponent mark x) :
    readExponent? mark = some x := by
  cases h with
  | none => rfl
  | mark x =>
    have hdigits := readDigits?_of_isDigits (isDigits_exponentDigits x)
    rw [ofDigitChars_exponentDigits] at hdigits
    rcases lt_or_ge x 0 with hneg | hpos
    · rw [if_pos hneg]
      change (Text.readDigits? (exponentDigits x) >>= fun n ↦ some (-(n : Int))) = some x
      rw [hdigits]
      exact congrArg some (by omega)
    · rw [if_neg (not_lt.mpr hpos)]
      change (Text.readDigits? (exponentDigits x) >>= fun n ↦ some (n : Int)) = some x
      rw [hdigits]
      exact congrArg some (by omega)

/-- What is read of a number. -/
theorem Reads.read?_signed (h : Reads cs c e) (s : Bool) :
    read? (signed s cs) = some ⟨s, c, e⟩ := by
  have hsign := h.takeSign_signed s
  obtain @⟨w, t, f, mark, x, hw, hf, hx⟩ := h
  obtain ⟨hmantissa, hmark⟩ := takeWhile_mantissa hw hf hx
  obtain ⟨hwhole, hfraction⟩ := takeWhile_whole hw hf
  have hdigits : IsDigits (w ++ f) := ⟨List.append_ne_nil_of_left_ne_nil hw.1 _,
    List.forall_mem_append.mpr ⟨hw.2, hf.isDigit⟩⟩
  have hexponent := hx.readExponent?
  unfold read?
  rw [hsign]
  dsimp only
  rw [hmantissa, hmark, hwhole, hfraction, readDigits?_of_isDigits hdigits]
  cases mark with
  | nil =>
    cases hexponent
    rfl
  | cons m mark =>
    obtain ⟨n, hn, hnx⟩ := Option.bind_eq_some_iff.mp hexponent
    dsimp only
    rw [hn]
    exact congrArg (fun x ↦ some (Decimal.mk s _ (x - f.length))) (Option.some.inj hnx)

/-! ## What layouts are read as -/

/-- The characters are read as a decimal of the magnitude `c * 10 ^ e`. -/
def ReadsAs (cs : List Char) (c : Nat) (e : Int) : Prop :=
  ∃ c' e', Reads cs c' e' ∧ magnitude c' e' = magnitude c e

theorem readsAs_of_eq (hw : IsDigits w) (hf : ReadsFraction t f) (hx : ReadsExponent mark x)
    (hcs : cs = w ++ t ++ mark) (hc : Nat.ofDigitChars 10 (w ++ f) 0 = 10 ^ k * c)
    (he : x - f.length = e - k) : ReadsAs cs c e := by
  refine ⟨_, _, hcs ▸ Reads.mk hw hf hx, ?_⟩
  rw [hc, he, magnitude_ten_pow_mul, add_sub_cancel]

theorem isDigit_of_mem_replicate (h : ch ∈ List.replicate n '0') : ch.isDigit = true := by
  rw [List.eq_of_mem_replicate h]
  rfl

theorem ofDigitChars_replicate_append (n : Nat) (ds : List Char) :
    Nat.ofDigitChars 10 (List.replicate n '0' ++ ds) 0 = Nat.ofDigitChars 10 ds 0 := by
  rw [Nat.ofDigitChars_append, Nat.ofDigitChars_replicate_zero, Nat.mul_zero]

theorem ofDigitChars_append_replicate (ds : List Char) (n : Nat) :
    Nat.ofDigitChars 10 (ds ++ List.replicate n '0') 0 = 10 ^ n * Nat.ofDigitChars 10 ds 0 := by
  rw [Nat.ofDigitChars_append, Nat.ofDigitChars_replicate_zero]

/-- A positional number is read with the magnitude of its digits. -/
theorem readsAs_positional (hds : IsDigits ds) (keepsPoint : Bool) (x : Int) :
    ReadsAs (positional keepsPoint ds x) (Nat.ofDigitChars 10 ds 0) (x + 1 - ds.length) := by
  rcases lt_or_ge x 0 with hx | hx
  · have hfraction : ∀ c ∈ List.replicate (-x - 1).toNat '0' ++ ds, c.isDigit = true :=
      List.forall_mem_append.mpr ⟨fun _ ↦ isDigit_of_mem_replicate, hds.2⟩
    refine readsAs_of_eq (k := 0) ⟨List.cons_ne_nil '0' [], by simp⟩ (.point hfraction) .none
      ?_ ?_ ?_
    · rw [positional_of_neg hx, List.append_nil, List.append_assoc]
      rfl
    · rw [← List.append_assoc, Nat.pow_zero, Nat.one_mul]
      exact ofDigitChars_replicate_append ((-x - 1).toNat + 1) ds
    · rw [List.length_append, List.length_replicate]
      omega
  rcases le_or_gt (ds.length : Int) (x + 1) with hlen | hlen
  · rw [positional_of_length_le hx hlen]
    obtain ⟨k, hk⟩ : ∃ k, (x + 1).toNat - ds.length = k := ⟨_, rfl⟩
    rw [hk]
    have hwhole : IsDigits (ds ++ List.replicate k '0') :=
      ⟨List.append_ne_nil_of_left_ne_nil hds.1 _,
        List.forall_mem_append.mpr ⟨hds.2, fun _ ↦ isDigit_of_mem_replicate⟩⟩
    cases keepsPoint with
    | false =>
      refine readsAs_of_eq (k := k) hwhole .none .none ?_ ?_ ?_
      · rw [if_neg Bool.false_ne_true, List.append_nil, List.append_nil]
      · rw [List.append_nil]
        exact ofDigitChars_append_replicate ds k
      · rw [List.length_nil]
        omega
    | true =>
      -- the zero behind the point is read as one digit more
      refine readsAs_of_eq (k := k + 1) hwhole (.point (f := ['0']) (by simp)) .none ?_ ?_ ?_
      · rw [if_pos rfl, List.append_nil]
      · rw [List.append_assoc, ← List.replicate_succ']
        exact ofDigitChars_append_replicate ds (k + 1)
      · rw [List.length_singleton]
        omega
  · rw [positional_of_lt_length hx hlen]
    have htake : ds.take (x + 1).toNat ≠ [] := by
      rw [Ne, List.take_eq_nil_iff]
      rintro (h | h)
      · omega
      · exact hds.1 h
    refine readsAs_of_eq (k := 0) ⟨htake, fun c hc ↦ hds.2 c (List.mem_of_mem_take hc)⟩
      (.point fun c hc ↦ hds.2 c (List.mem_of_mem_drop hc)) .none (List.append_nil _).symm ?_ ?_
    · rw [List.take_append_drop, Nat.pow_zero, Nat.one_mul]
    · rw [List.length_drop]
      omega

theorem readsAs_scientific (hds : IsDigits ds) (x : Int) :
    ReadsAs (scientific ds x) (Nat.ofDigitChars 10 ds 0) (x + 1 - ds.length) := by
  have hlen : 0 < ds.length := List.length_pos_iff.mpr hds.1
  have htake : ds.take 1 ≠ [] := by
    rw [Ne, List.take_eq_nil_iff]
    rintro (h | h)
    · cases h
    · exact hds.1 h
  have hfraction : ReadsFraction (if ds.drop 1 = [] then [] else '.' :: ds.drop 1) (ds.drop 1) := by
    split
    · next h =>
      rw [h]
      exact .none
    · exact .point fun c hc ↦ hds.2 c (List.mem_of_mem_drop hc)
  refine readsAs_of_eq (k := 0) ⟨htake, fun c hc ↦ hds.2 c (List.mem_of_mem_take hc)⟩
    hfraction (.mark x) ?_ ?_ ?_
  · rw [scientific_eq, List.append_assoc _ _ (exponentDigits x)]
  · rw [List.take_append_drop, Nat.pow_zero, Nat.one_mul]
  · rw [List.length_drop]
    omega

/-- The text of a decimal in any notation is read with its magnitude. -/
theorem readsAs_body (style : Notation) (d : Decimal) :
    ReadsAs (d.body style) d.coefficient d.exponent := by
  have hdigits :
      ReadsAs (d.body style) d.significand (d.leadingExponent + 1 - d.digits.length) := by
    unfold body
    split
    · exact readsAs_positional (isDigits_digits d) _ _
    · exact readsAs_scientific (isDigits_digits d) _
  obtain ⟨c, e, hreads, hmagnitude⟩ := hdigits
  refine ⟨c, e, hreads, hmagnitude.trans ?_⟩
  by_cases hd : d.coefficient = 0
  · have hzero : d.significand = 0 := by
      rw [significand, digits_of_coefficient_eq_zero hd]
      rfl
    rw [hd, hzero, magnitude_zero_left, magnitude_zero_left]
  · exact magnitude_significand hd

/-! ## Characters of numbers -/

/-- The characters that numbers are written with. -/
def IsNumberChar (c : Char) : Prop :=
  c.isDigit = true ∨ c = '.' ∨ c = 'e' ∨ c = '-' ∨ c = '+'

theorem Reads.isNumberChar (h : Reads cs c e) : ∀ ch ∈ cs, IsNumberChar ch := by
  obtain @⟨w, t, f, mark, x, hw, hf, hx⟩ := h
  rw [List.append_assoc]
  refine List.forall_mem_append.mpr ⟨fun ch hch ↦ .inl (hw.2 ch hch), ?_⟩
  refine List.forall_mem_append.mpr ⟨?_, ?_⟩
  · cases hf with
    | none => nofun
    | point hf => exact List.forall_mem_cons.mpr ⟨.inr (.inl rfl), fun ch hch ↦ .inl (hf ch hch)⟩
  · cases hx with
    | none => nofun
    | mark x =>
      refine List.forall_mem_cons.mpr ⟨.inr (.inr (.inl rfl)), List.forall_mem_cons.mpr ⟨?_, ?_⟩⟩
      · unfold IsNumberChar
        split <;> simp
      · exact fun ch hch ↦ .inl ((isDigits_exponentDigits x).2 ch hch)

theorem isNumberChar_signed (h : ∀ ch ∈ cs, IsNumberChar ch) (s : Bool) :
    ∀ ch ∈ signed s cs, IsNumberChar ch := by
  cases s with
  | false => exact h
  | true => exact List.forall_mem_cons.mpr ⟨.inr (.inr (.inr (.inl rfl))), h⟩

theorem IsNumberChar.toNat (h : IsNumberChar ch) :
    0x2B ≤ ch.toNat ∧ ch.toNat ≤ 0x65 ∧ ch ≠ '_' := by
  rcases h with h | rfl | rfl | rfl | rfl
  · have := toNat_of_isDigit h
    refine ⟨by omega, by omega, ne_of_isDigit h rfl⟩
  all_goals decide

theorem dropWhile_of_forall {p : Char → Bool} (h : ∀ ch ∈ cs, p ch = false) :
    cs.dropWhile p = cs := by
  match cs with
  | [] => rfl
  | ch :: cs => rw [List.dropWhile_cons_of_neg (by rw [h ch (List.mem_cons_self ..)]; decide)]

/-- The text of a number is taken as it is. -/
theorem numeral_of_isNumberChar (h : ∀ ch ∈ cs, IsNumberChar ch) :
    Text.dropUnderscores? false (Text.numeral (String.ofList cs)) = some cs := by
  -- nothing stands in the text that is replaced, trimmed or dropped
  have hascii : Text.toAscii cs = cs := by
    refine (List.map_congr_left fun ch hch ↦ ?_).trans (List.map_id cs)
    have hle := (h ch hch).toNat.2.1
    rw [if_pos (by omega)]
    rfl
  have hspace : ∀ ch ∈ cs, Text.isNumeralSpace ch = false := by
    intro ch hch
    have hle := (h ch hch).toNat.1
    have hne : ch ≠ ' ' := by
      rintro rfl
      exact absurd hle (by decide)
    have hlow : ¬ch.toNat ≤ 0x0D := by omega
    rw [Text.isNumeralSpace, beq_eq_false_iff_ne.mpr hne, decide_eq_false hlow, Bool.and_false]
    rfl
  have hunderscore : '_' ∉ cs := fun hmem ↦ (h '_' hmem).toNat.2.2 rfl
  rw [Text.numeral, String.toList_ofList, hascii, Text.trim, dropWhile_of_forall hspace,
    dropWhile_of_forall (by simpa using hspace), List.reverse_reverse,
    Text.dropUnderscores?_of_notMem hunderscore]

theorem toLower_of_isDigit (h : ch.isDigit = true) : ch.toLower = ch := by
  have hle : ch.toNat ≤ 0x39 := (toNat_of_isDigit h).2
  refine dif_neg fun hupper ↦ ?_
  have hge : 0x41 ≤ ch.toNat := hupper.1
  omega

/-- No name begins with a digit. -/
theorem Reads.readName?_signed (h : Reads cs c e) (s : Bool) :
    Binary64.readName? (signed s cs) = none := by
  have hsign := h.takeSign_signed s
  obtain ⟨ch, rest, rfl, hch⟩ := h.exists_cons
  have hne : ∀ (l : Char) (name : List Char), l.isDigit = false →
      String.ofList ((ch :: rest).map Char.toLower) ≠ String.ofList (l :: name) := by
    intro l name hl heq
    have hlist := String.ofList_injective heq
    rw [List.map_cons, toLower_of_isDigit hch] at hlist
    exact ne_of_isDigit hch hl (List.cons.inj hlist).1
  unfold Binary64.readName?
  rw [hsign]
  dsimp only
  split
  · next heq => exact absurd heq (hne 'i' ['n', 'f'] rfl)
  · next heq => exact absurd heq (hne 'i' ['n', 'f', 'i', 'n', 'i', 't', 'y'] rfl)
  · next heq => exact absurd heq (hne 'n' ['a', 'n'] rfl)
  · rfl

/-- What is read of the text of a number. -/
theorem Reads.read?_ofList (h : Reads cs c e) (s : Bool) :
    Binary64.read? (String.ofList (signed s cs)) = some (Decimal.rounded ⟨s, c, e⟩) := by
  unfold Binary64.read?
  rw [numeral_of_isNumberChar (isNumberChar_signed h.isNumberChar s)]
  change (Binary64.readName? _ <|> (Decimal.read? _).map Decimal.rounded) = _
  rw [h.readName?_signed s, h.read?_signed s]
  rfl

end Decimal

end UnitCalc
