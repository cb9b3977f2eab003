import UnitCalc.Proofs.Decimal.Plain
import UnitCalc.Proofs.Quantity.Printed

/-!
# Printed quantities are decoded

A printed quantity is its magnitude, followed by a space and its dimension unless it has none. No
magnitude has a space in it, so the words behind the first one are the factors, and a factor is
divided where its letters end: `readFactors` recovers the symbols and exponents from the text of any
quantity, whatever its precision is. Hence equal texts have equal dimensions. Plain texts are read
back as well, so with them equal texts have equal magnitudes.
-/

namespace UnitCalc

variable {cs ds : List Char} {n : Int} {b : BaseUnit} {d d' : Dimension} {x : Binary64}
  {precision : Option Int} {text : String} {q r : Quantity}

/-! ## Magnitudes have no spaces -/

theorem notMem_toDigits {c : Char} (hc : c.isDigit = false) (n : Nat) : c ∉ Nat.toDigits 10 n := by
  intro hmem
  rw [Nat.isDigit_of_mem_toDigits (by decide) (by decide) hmem] at hc
  cases hc

theorem notMem_space_toString (n : Int) : ' ' ∉ (toString n).toList := by
  rcases lt_or_ge n 0 with hn | hn
  · rw [Text.toList_toString_of_neg hn]
    exact List.not_mem_cons_of_ne_of_not_mem (by decide) (notMem_toDigits rfl _)
  · rw [Text.toList_toString_of_nonneg hn]
    exact notMem_toDigits rfl _

theorem Decimal.notMem_space_write (style : Notation) (d : Decimal) :
    ' ' ∉ (d.write style).toList := by
  obtain ⟨c, e, hreads, -⟩ := readsAs_body style d
  rw [write_eq, String.toList_ofList]
  intro hmem
  have hle := (isNumberChar_signed hreads.isNumberChar d.negative ' ' hmem).toNat.1
  exact absurd hle (by decide)

namespace Binary64

theorem notMem_space_shortestText (x : Binary64) : ' ' ∉ x.shortestText.toList := by
  cases x with
  | nan => decide
  | infinite s => cases s <;> decide
  | finite s a => exact Decimal.notMem_space_write _ _

theorem notMem_space_significantText (n : Nat) (x : Binary64) :
    ' ' ∉ (x.significantText n).toList := by
  cases x with
  | nan =>
    rw [significantText]
    decide
  | infinite s =>
    rw [significantText]
    cases s <;> decide
  | finite s a => exact Decimal.notMem_space_write _ _

theorem notMem_space_plainText (x : Binary64) : ' ' ∉ x.plainText.toList := by
  unfold plainText
  split
  · exact notMem_space_toString _
  · exact notMem_space_shortestText x

/-- However a magnitude is printed, there is no space in it. -/
theorem notMem_space_format (h : x.format precision = .ok text) : ' ' ∉ text.toList := by
  cases precision with
  | none =>
    cases h
    exact notMem_space_plainText x
  | some n =>
    cases hlimit : Limit.ofPrecision? n with
    | some limit =>
      rw [format, hlimit] at h
      cases h
    | none =>
      rw [format, hlimit] at h
      cases h
      exact notMem_space_significantText _ x

end Binary64

/-! ## Factors -/

/-- The whole number of a sign and digits. -/
def readExponent : List Char → Int
  | '-' :: ds => -(Nat.ofDigitChars 10 ds 0 : Int)
  | ds => Nat.ofDigitChars 10 ds 0

/-- The symbol and the exponent of a factor, divided where its letters end. -/
def readFactor (word : List Char) : String × Int :=
  (String.ofList (word.takeWhile Char.isAlpha), readExponent (word.dropWhile Char.isAlpha))

/-- The symbols and exponents of the words behind the first one. -/
def readFactors (text : String) : List (String × Int) :=
  ((text.toList.splitOn ' ').drop 1).map readFactor

/-- The base unit of a given symbol. -/
def BaseUnit.ofSymbol? (symbol : String) : Option BaseUnit := all.find? (·.symbol == symbol)

theorem BaseUnit.ofSymbol?_symbol (b : BaseUnit) : ofSymbol? b.symbol = some b := by
  cases b <;> decide

theorem readExponent_toString (n : Int) : readExponent (toString n).toList = n := by
  rcases lt_or_ge n 0 with hn | hn
  · rw [Text.toList_toString_of_neg hn, readExponent, Nat.ofDigitChars_ten_toDigits]
    omega
  · rw [Text.toList_toString_of_nonneg hn]
    unfold readExponent
    split
    · next ds hds =>
      have hminus : '-' ∉ Nat.toDigits 10 n.natAbs := notMem_toDigits rfl _
      rw [hds] at hminus
      exact absurd (List.mem_cons_self ..) hminus
    · rw [Nat.ofDigitChars_ten_toDigits]
      omega

/-- There are no letters in an exponent. -/
theorem isAlpha_of_mem_toString {c : Char} (h : c ∈ (toString n).toList) : c.isAlpha = false := by
  have hdigits : ∀ c ∈ Nat.toDigits 10 n.natAbs, c.isAlpha = false := fun c hc ↦
    isNameChar_of_isDigit (Nat.isDigit_of_mem_toDigits (by decide) (by decide) hc)
  rcases lt_or_ge n 0 with hn | hn
  · rw [Text.toList_toString_of_neg hn] at h
    exact List.forall_mem_cons.mpr ⟨by decide, hdigits⟩ c h
  · rw [Text.toList_toString_of_nonneg hn] at h
    exact hdigits c h

/-- A factor is divided into its symbol and its exponent. -/
theorem readFactor_symbol (b : BaseUnit) (n : Int) :
    readFactor (b.symbol ++ toString n).toList = (b.symbol, n) := by
  have halpha : ∀ c ∈ b.symbol.toList, c.isAlpha = true :=
    List.all_eq_true.mp (by cases b <;> decide)
  have hdrop := Decimal.dropWhile_of_forall fun c hc ↦ isAlpha_of_mem_toString (n := n) (c := c) hc
  have htake : (toString n).toList.takeWhile Char.isAlpha = [] := by
    have happend := List.takeWhile_append_dropWhile (p := Char.isAlpha) (l := (toString n).toList)
    rwa [hdrop, List.append_left_eq_self] at happend
  rw [readFactor, String.toList_append, List.takeWhile_append_of_pos halpha,
    List.dropWhile_append_of_pos halpha, htake, hdrop, List.append_nil, String.ofList_toList,
    readExponent_toString]

theorem notMem_space_factor (b : BaseUnit) (n : Int) :
    ' ' ∉ (b.symbol ++ toString n).toList := by
  rw [String.toList_append, List.mem_append, not_or]
  exact ⟨by cases b <;> decide, notMem_space_toString n⟩

/-- The factors are recovered from the words behind a first one. -/
theorem readFactors_intercalate {word : String} (hword : ' ' ∉ word.toList) (d : Dimension) :
    readFactors (" ".intercalate (word :: d.factors)) =
      d.entries.map fun entry ↦ (entry.1.symbol, entry.2) := by
  -- with no space in any of them, the words are the pieces between the spaces
  have hspace : ∀ l ∈ (word :: d.factors).map String.toList, ' ' ∉ l := by
    rw [List.map_cons, Dimension.factors, List.map_map]
    refine List.forall_mem_cons.mpr ⟨hword, fun l hl ↦ ?_⟩
    obtain ⟨entry, -, rfl⟩ := List.mem_map.mp hl
    exact notMem_space_factor entry.1 entry.2
  rw [readFactors, String.toList_intercalate, show " ".toList = [' '] from rfl,
    List.splitOn_intercalate ' ' hspace (List.cons_ne_nil _ _), List.map_cons, List.drop_one,
    List.tail_cons, Dimension.factors, List.map_map, List.map_map]
  exact List.map_congr_left fun entry _ ↦ readFactor_symbol entry.1 entry.2

/-! ## Dimensions -/

namespace Dimension

/-- What stands behind the magnitude of a quantity. -/
def suffix (d : Dimension) : String := if d.isDimensionless then "" else " " ++ d.text

/-- A dimension is determined by its entries. -/
theorem eq_of_entries_eq (h : d.entries = d'.entries) : d = d' := by
  have hmem : ∀ b n, (n = d.exponent b ∧ n ≠ 0) ↔ n = d'.exponent b ∧ n ≠ 0 := fun b n ↦ by
    rw [← mem_entries_iff, ← mem_entries_iff, h]
  ext b
  by_cases hb : d.exponent b = 0
  · rw [hb]
    by_contra hne
    exact ((hmem b (d'.exponent b)).mpr ⟨rfl, Ne.symm hne⟩).1.trans hb |> Ne.symm hne
  · exact ((hmem b (d.exponent b)).mp ⟨rfl, hb⟩).1

theorem entries_eq_nil_iff : d.entries = [] ↔ d = dimensionless :=
  ⟨fun h ↦ eq_of_entries_eq (h.trans rfl), fun h ↦ h ▸ rfl⟩

/-- The words of a quantity are the magnitude and the suffix. -/
theorem intercalate_factors (word : String) (d : Dimension) :
    " ".intercalate (word :: d.factors) = word ++ d.suffix := by
  unfold suffix
  split
  · next h =>
    rw [factors, entries_eq_nil_iff.mpr (isDimensionless_iff.mp h), String.append_empty]
    rfl
  · next h =>
    have hne : d.factors ≠ [] := by
      rw [factors, Ne, List.map_eq_nil_iff, entries_eq_nil_iff, ← isDimensionless_iff]
      exact h
    obtain ⟨factor, factors, hfactors⟩ := List.exists_cons_of_ne_nil hne
    rw [text_eq, if_neg h, hfactors, ← String.toList_inj]
    simp only [String.toList_intercalate, List.map_cons, List.intercalate_cons_cons,
      String.toList_append, List.append_assoc]

/-- The names come from the entries. -/
theorem named_eq (d : Dimension) : d.named = d.entries.map fun entry ↦ (entry.1.name, entry.2) := by
  rw [named, toList, List.zip_map', entries, List.filter_map, List.filter_map, List.map_map]
  rfl

end Dimension

/-! ## Quantities -/

namespace Quantity

theorem format_eq (precision : Option Int) (q : Quantity) :
    q.format precision = q.magnitude.format precision >>= fun word ↦
      if q.isWritable then .ok (word ++ q.dimension.suffix) else .error .tooManyDigits := by
  rw [format]
  refine congrArg _ (funext fun word ↦ ?_)
  rw [parts_eq, Dimension.intercalate_factors]
  rfl

theorem text_eq (q : Quantity) : q.text = q.magnitude.shortestText ++ q.dimension.suffix := by
  unfold text Dimension.suffix
  by_cases h : q.dimension.isDimensionless = true
  · rw [if_pos h, if_pos (show q.isDimensionless = true from h), String.append_empty]
  · rw [if_neg h, if_neg (show ¬q.isDimensionless = true from h), String.append_assoc]

/-- What a printed quantity is made of. -/
theorem exists_format_magnitude (h : q.format precision = .ok text) :
    ∃ word, q.magnitude.format precision = .ok word ∧
      text = " ".intercalate (word :: q.dimension.factors) := by
  rw [format_eq, bind_eq_ok_iff] at h
  obtain ⟨word, hword, h⟩ := h
  refine ⟨word, hword, ?_⟩
  rw [Dimension.intercalate_factors]
  split at h
  · exact (Except.ok.inj h).symm
  · cases h

/-- The dimension of a printed quantity is read off its text. -/
theorem readFactors_of_format (h : q.format precision = .ok text) :
    readFactors text = q.dimension.entries.map fun entry ↦ (entry.1.symbol, entry.2) := by
  obtain ⟨word, hword, rfl⟩ := exists_format_magnitude h
  exact readFactors_intercalate (Binary64.notMem_space_format hword) q.dimension

end Quantity

/-- A symbol stands for one base unit. -/
theorem BaseUnit.symbol_injective : Function.Injective symbol := by
  intro b c h
  have hsome := ofSymbol?_symbol b
  rw [h, ofSymbol?_symbol] at hsome
  exact (Option.some.inj hsome).symm

/-- The symbols and exponents of the entries determine a dimension. -/
theorem Dimension.eq_of_map_symbol_eq
    (h : (d.entries.map fun entry ↦ (entry.1.symbol, entry.2)) =
      d'.entries.map fun entry ↦ (entry.1.symbol, entry.2)) : d = d' := by
  refine eq_of_entries_eq (List.map_injective_iff.mpr ?_ h)
  rintro ⟨b, n⟩ ⟨c, m⟩ hentry
  obtain ⟨hsymbol, hn⟩ := Prod.mk.inj hentry
  exact congrArg₂ Prod.mk (BaseUnit.symbol_injective hsymbol) hn

/-- The entries are read off the suffix. -/
theorem Dimension.readFactors_suffix (d : Dimension) :
    readFactors d.suffix = d.entries.map fun entry ↦ (entry.1.symbol, entry.2) := by
  have h := readFactors_intercalate (show ' ' ∉ "".toList from List.not_mem_nil) d
  rwa [intercalate_factors, String.empty_append] at h

/-- With the names of the base units instead of their symbols, the entries are the named ones. -/
theorem Dimension.map_ofSymbol?_entries (d : Dimension) :
    (d.entries.map fun entry ↦ (entry.1.symbol, entry.2)).map
        (fun factor ↦ ((BaseUnit.ofSymbol? factor.1).map BaseUnit.name, factor.2)) =
      d.named.map fun entry ↦ (some entry.1, entry.2) := by
  rw [named_eq, List.map_map, List.map_map]
  refine List.map_congr_left fun entry _ ↦ ?_
  exact congrArg (fun b ↦ (Option.map BaseUnit.name b, entry.2)) (BaseUnit.ofSymbol?_symbol _)

namespace Binary64

/-- Finite numbers are told apart by their plain texts. -/
theorem sameNumber_of_plainText_eq {x y : Binary64} (hx : x.isFinite = true)
    (hy : y.isFinite = true) (h : x.plainText = y.plainText) : x.sameNumber y = true := by
  -- both are the number that the text is read as
  obtain ⟨z, hread, hsame, -⟩ := exists_read?_plainText hx
  obtain ⟨z', hread', hsame', -⟩ := exists_read?_plainText hy
  rw [h, hread'] at hread
  cases hread
  obtain ⟨s, a, rfl⟩ := isFinite_iff_exists.mp hx
  cases z with
  | nan => cases hsame
  | infinite t => cases hsame
  | finite t b => exact sameNumber_of_finite hsame hsame'

end Binary64

namespace Quantity

/-- Quantities of one text have one dimension. -/
theorem dimension_eq_of_format_eq {precision' : Option Int} (hq : q.format precision = .ok text)
    (hr : r.format precision' = .ok text) : q.dimension = r.dimension :=
  Dimension.eq_of_map_symbol_eq ((readFactors_of_format hq).symm.trans (readFactors_of_format hr))

/-- Quantities of one text without a given precision have one magnitude. -/
theorem sameNumber_of_format_eq (hqfinite : q.magnitude.isFinite = true)
    (hrfinite : r.magnitude.isFinite = true) (hq : q.format none = .ok text)
    (hr : r.format none = .ok text) : q.magnitude.sameNumber r.magnitude = true := by
  have hd := dimension_eq_of_format_eq hq hr
  obtain ⟨word, hword, htext⟩ := exists_format_magnitude hq
  obtain ⟨word', hword', htext'⟩ := exists_format_magnitude hr
  refine Binary64.sameNumber_of_plainText_eq hqfinite hrfinite ?_
  rw [Except.ok.inj hword, Except.ok.inj hword']
  rw [htext, Dimension.intercalate_factors, Dimension.intercalate_factors, hd] at htext'
  exact String.append_left_inj _ |>.mp htext'

/-- Printed units are decoded. Quantities that are printed as the same text have the same dimension,
whatever the precisions are, and if no precision is given or set, finite ones have the same
magnitude but for the sign of zero. Every quantity is printed as its magnitude and then, unless all
exponents are zero, a space and its dimension, and so it is in messages. The symbols and exponents
behind the magnitude are the named exponents, in order. -/
theorem formatWith_decodes :
    (∀ (settings settings' : Settings) (precision precision' : Option Int) (q r : Quantity)
      (text : String), q.formatWith settings precision = .ok text →
        r.formatWith settings' precision' = .ok text → q.dimension = r.dimension) ∧
    (∀ (settings settings' : Settings) (q r : Quantity) (text : String),
      settings.precision = none → settings'.precision = none →
        q.magnitude.isFinite = true → r.magnitude.isFinite = true →
          q.formatWith settings none = .ok text → r.formatWith settings' none = .ok text →
            q.magnitude.sameNumber r.magnitude = true) ∧
    ∀ q : Quantity,
      (∀ settings precision, q.formatWith settings precision =
        q.magnitude.format (precision <|> settings.precision) >>= fun word ↦
          if q.dimension.isWritable then .ok (word ++ q.dimension.suffix)
          else .error .tooManyDigits) ∧
      q.text = q.magnitude.shortestText ++ q.dimension.suffix ∧
      (readFactors q.dimension.suffix).map
          (fun factor ↦ ((BaseUnit.ofSymbol? factor.1).map BaseUnit.name, factor.2)) =
        q.dimension.named.map fun entry ↦ (some entry.1, entry.2) := by
  refine ⟨fun _ _ _ _ q r text hq hr ↦ dimension_eq_of_format_eq hq hr,
    fun settings settings' q r text hnone hnone' hqfinite hrfinite hq hr ↦ ?_,
    fun q ↦ ⟨fun settings precision ↦ format_eq _ q, text_eq q, ?_⟩⟩
  · rw [formatWith, hnone] at hq
    rw [formatWith, hnone'] at hr
    exact sameNumber_of_format_eq hqfinite hrfinite hq hr
  · rw [Dimension.readFactors_suffix, Dimension.map_ofSymbol?_entries]

/-- Three digits do not tell `2` from `2.001`, and the two zeros are printed alike. -/
theorem formatWith_decodes_newton :
    let newton : Dimension := { meter := 1, second := -2, kilogram := 1 }
    let q : Quantity := ⟨.ofRatio 2 1, newton⟩
    let r : Quantity := ⟨.ofRatio 2001 1000, newton⟩
    let z (s : Bool) : Quantity := ⟨.zero s, { meter := 1, mole := -1 }⟩
    let settings : Settings := { precisionText := some "3" }
    (q.formatWith {} none = .ok "2 m1 s-2 kg1" ∧ r.formatWith settings none = .ok "2 m1 s-2 kg1" ∧
      q.dimension = r.dimension) ∧
    (({} : Settings).precision = none ∧ (z false).magnitude.isFinite = true ∧
      (z true).magnitude.isFinite = true ∧ (z false).formatWith {} none = .ok "0 m1 mol-1" ∧
      (z true).formatWith {} none = .ok "0 m1 mol-1" ∧
      (z false).magnitude.sameNumber (z true).magnitude = true) ∧
    readFactors "2 m1 s-2 kg1" = [("m", 1), ("s", -2), ("kg", 1)] ∧
    newton.named = [("meter", 1), ("second", -2), ("kilogram", 1)] := by
  intro newton q r z settings
  have hq : q.formatWith {} none = .ok "2 m1 s-2 kg1" := by decide +kernel
  have hr : r.formatWith settings none = .ok "2 m1 s-2 kg1" := by decide +kernel
  have hnone : ({} : Settings).precision = none := rfl
  have hzero : (z false).formatWith {} none = .ok "0 m1 mol-1" := by decide +kernel
  have hzero' : (z true).formatWith {} none = .ok "0 m1 mol-1" := by decide +kernel
  exact ⟨⟨hq, hr, formatWith_decodes.1 _ _ _ _ q r _ hq hr⟩,
    ⟨hnone, by decide, by decide, hzero, hzero', formatWith_decodes.2.1 _ _ (z false) (z true) _
      hnone hnone (by decide) (by decide) hzero hzero'⟩, by decide +kernel, by decide +kernel⟩

end Quantity

end UnitCalc
