import UnitCalc.Proofs.Binary64.Rounded
import UnitCalc.Proofs.Expr.Exponent
import UnitCalc.Proofs.Quantity.Rendering

/-!
# Formatted results

A formatted calculation fails where the calculation does, and otherwise only at a limit: the number
of significant digits is one that no text is written with, or an exponent is too long. Settings that
are no positive whole number count as unset, so they never matter; but the settings may ask for
`2 ^ 31` digits or more, and then no result is written at all. `calculateFormatted_settings` says
this exactly, and with the bound on exponents it is the only way in which a result of a text that
can be entered is lost.
-/

namespace UnitCalc

variable {n : Int} {x : Binary64} {q : Quantity} {precision : Option Int} {limit : Limit}
  {failure : Failure} {fault : Fault} {settings : Settings} {text s : String}

/-! ## Numbers of digits -/

/-- The limit for a number of significant digits that is too large. -/
def Limit.ofLargePrecision (n : Int) : Limit :=
  if n < 2 ^ 63 then precisionTooLarge else precisionOutOfRange

theorem Limit.ofPrecision?_eq_some_iff (hn : 0 < n) (hw : Text.isWritable n = true) :
    ofPrecision? n = some limit ↔ 2 ^ 31 ≤ n ∧ limit = ofLargePrecision n := by
  have hneg : ¬n < 0 := by omega
  rw [ofPrecision?, hw, ofLargePrecision]
  by_cases hlt : n < 2 ^ 31
  · rw [if_pos ⟨hn.le, hlt⟩]
    exact iff_of_false (by rintro ⟨⟩) fun h ↦ Int.not_le.mpr hlt h.1
  · rw [if_neg (fun h ↦ hlt h.2), if_neg (by decide), if_neg hneg,
      and_iff_right (Int.not_lt.mp hlt)]
    split <;> exact ⟨fun h ↦ (Option.some.inj h).symm, fun h ↦ h ▸ rfl⟩

/-- Digits make a number that has no more of them. -/
theorem Text.ofDigitChars_lt {cs : List Char} (hcs : ∀ c ∈ cs, c.isDigit = true) :
    Nat.ofDigitChars 10 cs 0 < 10 ^ cs.length := by
  induction cs using List.reverseRecOn with
  | nil => decide
  | append_singleton cs c ih =>
    obtain ⟨hcs, hc⟩ := List.forall_mem_append.mp hcs
    have hlt := ih hcs
    have hdigit := (toNat_of_isDigit (hc c (List.mem_singleton_self c))).2
    have hzero : '0'.toNat = 0x30 := rfl
    rw [Nat.ofDigitChars_append, Nat.ofDigitChars_cons, Nat.ofDigitChars_nil, List.length_append,
      List.length_singleton, Nat.pow_succ]
    omega

theorem Text.lt_of_readWhole? {cs : List Char} {m : Nat} (h : readWhole? cs = some m) :
    m < 10 ^ digitLimit := by
  obtain ⟨digits, -, h⟩ := Option.bind_eq_some_iff.mp h
  split at h
  case isFalse => cases h
  next hlen =>
  unfold readDigits? at h
  split at h
  case isFalse => cases h
  next hdigits =>
  cases h
  exact (ofDigitChars_lt (List.all_eq_true.mp hdigits.2)).trans_le
    (Nat.pow_le_pow_right (by decide) hlen)

/-- A whole number that is read may be written. -/
theorem Text.isWritable_of_readInteger? (h : readInteger? s = some n) : isWritable n = true := by
  simp only [readInteger?, Option.bind_eq_bind, Option.bind_eq_some_iff, Option.pure_def,
    Option.some.injEq] at h
  obtain ⟨-, ⟨m, hm, rfl⟩, rfl⟩ := h
  have habs : (if (takeSign (numeral s)).1 then -(m : Int) else m).natAbs = m := by
    split
    · exact Int.natAbs_neg _
    · rfl
  rw [isWritable, habs]
  exact decide_eq_true (lt_of_readWhole? hm)

/-- The number of significant digits that is set may be written. -/
theorem Settings.isWritable_precision (h : settings.precision = some n) :
    Text.isWritable n = true := by
  simp only [precision, Option.bind_eq_bind, Option.bind_eq_some_iff] at h
  obtain ⟨raw, -, m, hm, hn⟩ := h
  split at hn
  · cases hn
    exact Text.isWritable_of_readInteger? hm
  · cases hn

/-- The number of significant digits that is set, if one is, is a number that texts are written
with. -/
def Settings.IsUsable (settings : Settings) : Prop :=
  ∀ n, settings.precision = some n → n < 2 ^ 31

/-! ## Quantities -/

theorem Binary64.format_eq_error_iff : x.format precision = .error limit ↔
    ∃ n, precision = some n ∧ Limit.ofPrecision? n = some limit := by
  cases precision with
  | none => exact iff_of_false (by rintro ⟨⟩) (by rintro ⟨n, ⟨⟩, -⟩)
  | some n =>
    rw [format]
    cases h : Limit.ofPrecision? n with
    | none =>
      refine iff_of_false (by rintro ⟨⟩) ?_
      rintro ⟨m, ⟨⟩, hm⟩
      rw [h] at hm
      cases hm
    | some limit' =>
      constructor
      · rintro ⟨⟩
        exact ⟨n, rfl, h⟩
      · rintro ⟨m, ⟨⟩, hm⟩
        rw [h] at hm
        cases hm
        rfl

namespace Quantity

theorem format_eq_error_iff : q.format precision = .error limit ↔
    (∃ n, precision = some n ∧ Limit.ofPrecision? n = some limit) ∨
      (∀ n, precision = some n → Limit.ofPrecision? n = none) ∧ q.isWritable = false ∧
        limit = .tooManyDigits := by
  have hok : (∃ word, q.magnitude.format precision = .ok word) ↔
      ∀ n, precision = some n → Limit.ofPrecision? n = none := by
    cases hformat : q.magnitude.format precision with
    | ok word =>
      refine iff_of_true ⟨word, rfl⟩ fun n hn ↦ Option.eq_none_iff_forall_ne_some.mpr fun l hl ↦ ?_
      rw [Binary64.format_eq_error_iff.mpr ⟨n, hn, hl⟩] at hformat
      cases hformat
    | error limit' =>
      obtain ⟨n, hn, hl⟩ := Binary64.format_eq_error_iff.mp hformat
      refine iff_of_false nofun fun h ↦ ?_
      rw [h n hn] at hl
      cases hl
  have hwrite : ∀ word, (if q.isWritable then .ok (word ++ q.dimension.suffix)
      else .error .tooManyDigits : Except Limit String) = .error limit ↔
        q.isWritable = false ∧ limit = .tooManyDigits := by
    intro word
    cases q.isWritable with
    | true => exact iff_of_false nofun nofun
    | false => exact ⟨fun h ↦ ⟨rfl, (Except.error.inj h).symm⟩, fun h ↦ by rw [h.2]; rfl⟩
  rw [format_eq, bind_eq_error_iff, Binary64.format_eq_error_iff]
  simp only [hwrite]
  rw [← hok, exists_and_right]

theorem formatWith_none_eq (settings : Settings) (q : Quantity) :
    q.formatWith settings none = q.format settings.precision := rfl

/-- With the settings alone, a number of digits that is too large is met before a long exponent. -/
theorem formatWith_none_eq_error_iff : q.formatWith settings none = .error limit ↔
    (∃ n, settings.precision = some n ∧ 2 ^ 31 ≤ n ∧ limit = .ofLargePrecision n) ∨
      settings.IsUsable ∧ q.isWritable = false ∧ limit = .tooManyDigits := by
  have hlarge : (∃ n, settings.precision = some n ∧ Limit.ofPrecision? n = some limit) ↔
      ∃ n, settings.precision = some n ∧ 2 ^ 31 ≤ n ∧ limit = .ofLargePrecision n :=
    exists_congr fun n ↦ and_congr_right fun hn ↦
      Limit.ofPrecision?_eq_some_iff (Settings.precision_pos hn) (Settings.isWritable_precision hn)
  have hsmall : (∀ n, settings.precision = some n → Limit.ofPrecision? n = none) ↔
      settings.IsUsable := by
    refine forall_congr' fun n ↦ forall_congr' fun hn ↦ ?_
    rw [Limit.ofPrecision?_eq_none_iff, and_iff_right (Settings.precision_pos hn).le]
  rw [formatWith_none_eq, format_eq_error_iff, hlarge, hsmall]

end Quantity

/-! ## Formatted calculations -/

section

variable [Platform]

theorem calculateFormatted_eq_ok_iff : calculateFormatted settings precision text = .ok s ↔
    ∃ q, calculate text = .ok q ∧ q.formatWith settings precision = .ok s := by
  rw [calculateFormatted, bind_eq_ok_iff]
  refine exists_congr fun q ↦ and_congr_right fun _ ↦ ?_
  cases q.formatWith settings precision with
  | ok s' => exact ⟨fun h ↦ Except.ok.inj h ▸ rfl, fun h ↦ Except.ok.inj h ▸ rfl⟩
  | error limit => exact iff_of_false nofun nofun

theorem calculateFormatted_eq_failure_iff :
    calculateFormatted settings precision text = .error (.failure failure) ↔
      calculate text = .error (.failure failure) := by
  rw [calculateFormatted, bind_eq_error_iff]
  refine or_iff_left ?_
  rintro ⟨q, -, h⟩
  cases hformat : q.formatWith settings precision <;> rw [hformat] at h <;> cases h

theorem calculateFormatted_eq_limit_iff :
    calculateFormatted settings precision text = .error (.limit limit) ↔
      calculate text = .error (.limit limit) ∨
        ∃ q, calculate text = .ok q ∧ q.formatWith settings precision = .error limit := by
  rw [calculateFormatted, bind_eq_error_iff]
  refine or_congr_right (exists_congr fun q ↦ and_congr_right fun _ ↦ ?_)
  cases q.formatWith settings precision with
  | ok s => exact iff_of_false nofun nofun
  | error limit' => exact ⟨fun h ↦ by cases h; rfl, fun h ↦ by cases h; rfl⟩

/-- A result can be written exactly if no limit is met. -/
theorem exists_calculateFormatted_iff (h : calculate text = .ok q) :
    (∃ s, calculateFormatted settings none text = .ok s) ↔
      settings.IsUsable ∧ q.isWritable = true := by
  have hformat : (∃ s, calculateFormatted settings none text = .ok s) ↔
      ∀ limit, q.formatWith settings none ≠ .error limit := by
    simp only [calculateFormatted_eq_ok_iff, h, Except.ok.injEq, exists_eq_left']
    cases q.formatWith settings none with
    | ok s => exact iff_of_true ⟨s, rfl⟩ nofun
    | error limit => exact iff_of_false nofun fun hne ↦ hne limit rfl
  rw [hformat]
  constructor
  · intro hne
    have hsettings : settings.IsUsable := by
      intro n hn
      by_contra hlt
      exact hne _ (Quantity.formatWith_none_eq_error_iff.mpr
        (.inl ⟨n, hn, Int.not_lt.mp hlt, rfl⟩))
    refine ⟨hsettings, ?_⟩
    by_contra hq
    rw [Bool.not_eq_true] at hq
    exact hne _ (Quantity.formatWith_none_eq_error_iff.mpr (.inr ⟨hsettings, hq, rfl⟩))
  · rintro ⟨hsettings, hq⟩ limit herror
    rcases Quantity.formatWith_none_eq_error_iff.mp herror with ⟨n, hn, hle, -⟩ | ⟨-, hq', -⟩
    · exact Int.not_le.mpr (hsettings n hn) hle
    · rw [hq] at hq'
      cases hq'

/-- Where the settings ask for too many digits, every result is lost. -/
theorem calculateFormatted_of_le_precision (h : calculate text = .ok q)
    (hn : settings.precision = some n) (hle : 2 ^ 31 ≤ n) :
    calculateFormatted settings none text = .error (.limit (.ofLargePrecision n)) :=
  calculateFormatted_eq_limit_iff.mpr
    (.inr ⟨q, h, Quantity.formatWith_none_eq_error_iff.mpr (.inl ⟨n, hn, hle, rfl⟩)⟩)

end

open Rounded in
theorem calculateFormatted_two_pow_31 :
    let settings : Settings := { precisionText := some "2147483648" }
    calculate "1" = .ok (.ofNumber (.one false)) ∧
      calculateFormatted settings none "1" = .error (.limit .precisionTooLarge) := by
  intro settings
  have h : calculate "1" = .ok (.ofNumber (.one false)) := by decide +kernel
  have hprecision : settings.precision = some 2147483648 := by decide +kernel
  exact ⟨h, calculateFormatted_of_le_precision h hprecision (by decide)⟩

/-- A setting that is no positive whole number does not count. -/
theorem Settings.precision_eq_none {raw : String} (hraw : settings.precisionText = some raw)
    (hn : ∀ n, Text.readInteger? raw = some n → n ≤ 0) : settings.precision = none := by
  rw [Settings.precision, hraw]
  cases h : Text.readInteger? raw with
  | none => simp [h]
  | some n => simp [h, Int.not_lt.mpr (hn n h)]

/-- A result of a calculation is written unless the settings ask for `2 ^ 31` digits or more, or an
exponent is too long. The first is a limit whatever the result is, and the second needs a text of
more than `10 ^ 3991` characters. A setting that is no positive whole number counts as unset. -/
theorem calculateFormatted_settings [Platform] (h : calculate text = .ok q) (settings : Settings) :
    ((∃ s, calculateFormatted settings none text = .ok s) ↔
      settings.IsUsable ∧ q.isWritable = true) ∧
    (∀ fault, calculateFormatted settings none text = .error fault ↔
      (∃ n, settings.precision = some n ∧ 2 ^ 31 ≤ n ∧ fault = .limit (.ofLargePrecision n)) ∨
        settings.IsUsable ∧ q.isWritable = false ∧ fault = .limit .tooManyDigits) ∧
    (text.length ≤ 10 ^ (Text.digitLimit - 309) → q.isWritable = true) ∧
    ∀ raw, settings.precisionText = some raw →
      (∀ n, Text.readInteger? raw = some n → n ≤ 0) →
        calculateFormatted settings none text =
          calculateFormatted { settings with precisionText := none } none text := by
  refine ⟨exists_calculateFormatted_iff h, fun fault ↦ ?_, isWritable_of_calculate h,
    fun raw hraw hn ↦ ?_⟩
  · cases fault with
    | failure failure =>
      rw [calculateFormatted_eq_failure_iff, h]
      refine iff_of_false nofun ?_
      rintro (⟨n, -, -, ⟨⟩⟩ | ⟨-, -, ⟨⟩⟩)
    | limit limit =>
      rw [calculateFormatted_eq_limit_iff, h]
      simp only [reduceCtorEq, false_or, Except.ok.injEq, exists_eq_left',
        Quantity.formatWith_none_eq_error_iff, Fault.limit.injEq]
  · simp only [calculateFormatted, Quantity.formatWith_none_eq, Settings.precision_eq_none hraw hn]
    rfl

open Rounded in
/-- A result that is written with an unreadable setting is lost with one that is too large. -/
theorem calculateFormatted_settings_acceleration :
    let q : Quantity := ⟨.ofRatio 5 2, { meter := 1, second := -2 }⟩
    let large : Settings := { precisionText := some " +2_147_483_648 " }
    let unreadable : Settings := { precisionText := some "many" }
    calculate "10 N / 4 kg" = .ok q ∧
      (¬∃ s, calculateFormatted large none "10 N / 4 kg" = .ok s) ∧
      (∃ s, calculateFormatted unreadable none "10 N / 4 kg" = .ok s) ∧
      calculateFormatted unreadable none "10 N / 4 kg" =
        calculateFormatted {} none "10 N / 4 kg" := by
  intro q large unreadable
  have h : calculate "10 N / 4 kg" = .ok q := by decide +kernel
  have hlarge : large.precision = some 2147483648 := by decide +kernel
  have hunreadable : unreadable.precision = none := by decide +kernel
  have hlength : "10 N / 4 kg".length ≤ 10 ^ (Text.digitLimit - 309) :=
    (by decide : "10 N / 4 kg".length ≤ 10 ^ 2).trans (Nat.pow_le_pow_right (by decide) (by decide))
  obtain ⟨hexists, -, -, -⟩ := calculateFormatted_settings h large
  obtain ⟨hexists', -, hwritable, hunset⟩ := calculateFormatted_settings h unreadable
  refine ⟨h, ?_, ?_, hunset "many" rfl ?_⟩
  · rw [hexists]
    rintro ⟨husable, -⟩
    exact absurd (husable _ hlarge) (by decide)
  · refine hexists'.mpr ⟨fun n hn ↦ ?_, hwritable hlength⟩
    rw [hunreadable] at hn
    cases hn
  · intro n hn
    have hread : Text.readInteger? "many" = none := by decide +kernel
    rw [hread] at hn
    cases hn

end UnitCalc
