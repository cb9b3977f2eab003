import UnitCalc.Formula
import UnitCalc.Proofs.Binary64.Finite
import UnitCalc.Proofs.Binary64.Rounded
import UnitCalc.Proofs.Expr.Layout
import UnitCalc.Proofs.Quantity.Finite
import UnitCalc.Proofs.Token.Legality

/-!
# Calculating formulas

The characters of a formula are spelled by tokens from which the grammar derives the tree of the
formula, so a text has the value of the only tree that any of its formulas can have
(`Reads.expr_eq`). The literals are in range because no character of the text overflows.

The operations on plain numbers are those of the stepwise arithmetic: a difference negates exactly,
and the inverse is the reciprocal of the platform wherever that is finite. So by induction on the
formula its tree evaluates to its value wherever the formula is regular.
-/

namespace UnitCalc

open Token (Spell IsCanonical)

variable {before cs ds : List Char} {f : Formula} {category : Category} {ts : List Token} {e : Expr}
  {text : String} {x y : Binary64} {op : Operation} {t : UnitTable}

/-! ## Operations on plain numbers -/

namespace Quantity

theorem add_ofNumber (h : (x + y).isInfinite = false) :
    (ofNumber x).add (ofNumber y) = .ok (ofNumber (x + y)) := by
  rw [add, ofNumber, ofNumber, if_pos rfl]
  exact bounded_eq_ok_iff.mpr ⟨h, rfl⟩

theorem mul_ofNumber (h : (x * y).isInfinite = false) :
    (ofNumber x).mul (ofNumber y) = .ok (ofNumber (x * y)) := by
  rw [mul]
  exact bounded_eq_ok_iff.mpr ⟨h, rfl⟩

section

variable [Platform]

/-- Where the power with exponent minus one is finite, it is the reciprocal. -/
theorem power_neg_one (hy : y.isFinite = true) (hzero : y.sameNumber (.zero false) = false)
    (h : (Arithmetic.reciprocal y).isFinite = true) :
    y.power (-1) = .ok (Arithmetic.reciprocal y) := by
  obtain ⟨s, a, rfl⟩ := Binary64.isFinite_iff_exists.mp hy
  have hone : Binary64.ofInt? (-1) = some (.one true) := by decide +kernel
  have hodd : (Binary64.one true).isOdd = true := by decide +kernel
  have ha : a.val ≠ 0 := by
    rintro ha
    simp [Binary64.sameNumber, Binary64.zero, ha, Fin.ext_iff] at hzero
  unfold Binary64.power
  rw [hone]
  refine (Binary64.realPower_finite ha (by decide)).trans ?_
  rw [← Binary64.one, hodd, Bool.and_true, Binary64.finitePower]
  have hreciprocal : Arithmetic.reciprocal (.finite s a) =
      if a.val = Binary64.oneRank then .one s
      else if s then -Platform.pow (.finite false a) (.one true)
      else Platform.pow (.finite false a) (.one true) := rfl
  rw [hreciprocal] at h ⊢
  split
  · rfl
  next hne =>
  rw [if_neg hne] at h
  -- an infinite power would make an infinite reciprocal
  cases hpow : Platform.pow (.finite false a) (.one true) with
  | infinite t =>
    rw [hpow] at h
    cases s <;> cases h
  | nan => rfl
  | finite t b => rfl

theorem inverse_ofNumber (hy : y.isFinite = true) (hzero : y.sameNumber (.zero false) = false)
    (h : (Arithmetic.reciprocal y).isFinite = true) :
    (ofNumber y).inverse = .ok (ofNumber (Arithmetic.reciprocal y)) :=
  pow_eq_ok_iff.mpr ⟨_, power_neg_one hy hzero h, rfl⟩

end

end Quantity

open Quantity in
/-- An operation on plain numbers is that of the stepwise arithmetic. -/
theorem Operation.run_ofNumber [Platform] (hx : x.isFinite = true) (hy : y.isFinite = true)
    (hzero : op = div → y.sameNumber (.zero false) = false)
    (h : (Arithmetic.stepwise.run op x y).isFinite = true) :
    op.run (.ofNumber x) (.ofNumber y) = .ok (.ofNumber (Arithmetic.stepwise.run op x y)) := by
  have hinfinite := (Binary64.isFinite_iff.mp h).1
  cases op with
  | add => exact add_ofNumber hinfinite
  | sub =>
    have hneg := neg_eq (q := ofNumber y) (Binary64.isFinite_iff.mp hy).1
    exact bind_eq_ok_iff.mpr ⟨_, hneg, add_ofNumber hinfinite⟩
  | mul => exact mul_ofNumber hinfinite
  | div =>
    have hinverse := inverse_ofNumber hy (hzero rfl) (Binary64.isFinite_of_mul hx h)
    exact bind_eq_ok_iff.mpr ⟨_, hinverse, mul_ofNumber hinfinite⟩

/-! ## Tokens of literals -/

namespace Token

variable {digits whole fraction : List Char}

theorem spell_integer (hd : IsDigits digits) :
    Spell [.integer (Literal.whole digits : Nat) (.ofList digits)] digits := by
  have hl := Lexeme.Spells.whole hd
  have hs := hl.isCanonical_close.spell
  rwa [hl.chars_close, Lexeme.close, List.reverse_reverse] at hs

theorem spell_decimal (hw : IsDigits whole) (hf : ∀ c ∈ fraction, c.isDigit = true)
    (hlt : Literal.whole whole < Binary64.overflowThreshold) (hlen : fraction.length ≤ 308) :
    Spell [.decimal (Literal.decimal whole fraction) (.ofList (whole ++ '.' :: fraction))]
      (whole ++ '.' :: fraction) := by
  have hl := Lexeme.Spells.decimal hw hf hlt hlen
  have hs := hl.isCanonical_close.spell
  rwa [hl.chars_close, Lexeme.close, List.reverse_reverse] at hs

end Token

namespace Formula

/-! ## Trees of formulas -/

/-- The tree of a formula. -/
def expr : Formula → Expr
  | integer digits => .integer (Literal.whole digits : Nat)
  | decimal whole fraction => .decimal (Literal.decimal whole fraction)
  | binary left op right => .binary left.expr op.text right.expr

/-- The literals with a point are in the range that can be read. -/
def InRange : Formula → Prop
  | integer _ => True
  | decimal whole fraction =>
    Literal.whole whole < Binary64.overflowThreshold ∧ fraction.length ≤ 308
  | binary left _ right => left.InRange ∧ right.InRange

theorem isRegular_binary_iff {a : Arithmetic} {l r : Formula} :
    (binary l op r).isRegular a = true ↔ l.isRegular a = true ∧ r.isRegular a = true ∧
      (op = .div → (r.value a).sameNumber (.zero false) = false) ∧
      (a.run op (l.value a) (r.value a)).isFinite = true := by
  simp only [isRegular, value, Bool.and_eq_true, Bool.not_eq_true', Bool.and_eq_false_imp,
    beq_iff_eq, and_assoc]

/-- The value of a regular formula is finite. -/
theorem isFinite_value {a : Arithmetic} (h : f.isRegular a = true) :
    (f.value a).isFinite = true := by
  cases f with
  | integer | decimal => exact h
  | binary => exact (isRegular_binary_iff.mp h).2.2.2

/-- A regular formula evaluates to its value, over every unit table. -/
theorem evaluate_expr [Platform] (h : f.isRegular .stepwise = true) :
    f.expr.evaluate t = .ok (.ofNumber (f.value .stepwise)) := by
  induction f with
  | integer digits =>
    have hlt : (Binary64.ofRatio (Literal.whole digits) 1).isFinite = true := h
    rw [Binary64.ofRatio, Binary64.ofQuanta, Binary64.isFinite_ofRank_iff,
      Binary64.nearestRank_unit_mul_lt_iff] at hlt
    rw [expr, Expr.evaluate_integer, Binary64.ofInt?_natCast, if_pos hlt]
    rfl
  | decimal whole fraction => rfl
  | binary l op r ihl ihr =>
    obtain ⟨hl, hr, hzero, hfinite⟩ := isRegular_binary_iff.mp h
    have hop : Operation.ofText? op.text = some op := by cases op <;> rfl
    rw [expr, Expr.evaluate_binary, hop]
    refine bind_eq_ok_iff.mpr ⟨_, ihl hl, bind_eq_ok_iff.mpr ⟨_, ihr hr, ?_⟩⟩
    exact Operation.run_ofNumber (isFinite_value hl) (isFinite_value hr) hzero hfinite

/-! ## Tokens of formulas -/

/-- A formula in range is spelled by tokens that derive its tree. -/
theorem Reads.exists_spell (h : Reads category cs f) (hf : f.InRange) :
    ∃ ts, Spell ts cs ∧ Derives category ts f.expr := by
  induction h with
  | integer hd => exact ⟨_, Token.spell_integer hd, .integer _ _⟩
  | decimal hw hfraction => exact ⟨_, Token.spell_decimal hw hfraction hf.1 hf.2, .decimal _ _⟩
  | parentheses _ ih =>
    obtain ⟨ts, hs, hd⟩ := ih hf
    exact ⟨_, hs.parentheses, .parentheses hd⟩
  | ofPrimary _ ih =>
    obtain ⟨ts, hs, hd⟩ := ih hf
    exact ⟨ts, hs, .ofPrimary hd⟩
  | ofOperand _ ih =>
    obtain ⟨ts, hs, hd⟩ := ih hf
    exact ⟨ts, hs, .ofOperand hd⟩
  | ofProduct _ ih =>
    obtain ⟨ts, hs, hd⟩ := ih hf
    exact ⟨ts, hs, .ofProduct hd⟩
  | @product _ _ l r op hop _ _ ihl ihr =>
    obtain ⟨ts, hs, hd⟩ := ihl hf.1
    obtain ⟨us, hs', hd'⟩ := ihr hf.2
    have hspell := hs.append_operator hs' op
    rw [Operation.token, hop] at hspell
    exact ⟨_, hspell, .product op.text hd hd'⟩
  | @sum _ _ l r op hop _ _ ihl ihr =>
    obtain ⟨ts, hs, hd⟩ := ihl hf.1
    obtain ⟨us, hs', hd'⟩ := ihr hf.2
    have hspell := hs.append_operator hs' op
    rw [Operation.token, hop] at hspell
    exact ⟨_, hspell, .sum op.text hd hd'⟩

theorem exists_isName_of_derivesUnit (h : DerivesUnit ts e) : ∃ t ∈ ts, t.isName = true := by
  cases h with
  | plain symbol => exact ⟨.name symbol, by simp, rfl⟩
  | power symbol => exact ⟨.name symbol, by simp, rfl⟩

theorem exists_operation_of_additive {operator : String} (h : IsCanonical (.additive operator)) :
    ∃ op : Operation, op.isAdditive = true ∧ op.text = operator := by
  cases h with
  | plus => exact ⟨.add, rfl, rfl⟩
  | minus => exact ⟨.sub, rfl, rfl⟩

theorem exists_operation_of_multiplicative {operator : String}
    (h : IsCanonical (.multiplicative operator)) :
    ∃ op : Operation, op.isAdditive = false ∧ op.text = operator := by
  cases h with
  | times => exact ⟨.mul, rfl, rfl⟩
  | _ => exact ⟨.div, rfl, rfl⟩

/-- Tokens without names that derive a tree spell a formula. -/
theorem exists_reads (h : Derives category ts e)
    (hts : ∀ t ∈ ts, IsCanonical t ∧ t.isName = false) :
    ∃ f, Reads category (ts.flatMap Token.chars) f := by
  have hunit {us : List Token} {u : Expr} (hu : DerivesUnit us u)
      (hus : ∀ t ∈ us, IsCanonical t ∧ t.isName = false) : False := by
    obtain ⟨t, ht, hname⟩ := exists_isName_of_derivesUnit hu
    exact Bool.false_ne_true ((hus t ht).2.symm.trans hname)
  induction h with
  | integer value spelling =>
    cases (hts _ (List.mem_singleton_self _)).1 with
    | integer hd =>
      rw [(Token.spell_integer hd).chars]
      exact ⟨_, .integer hd⟩
  | decimal value spelling =>
    cases (hts _ (List.mem_singleton_self _)).1 with
    | decimal hw hf hlt hlen =>
      rw [(Token.spell_decimal hw hf hlt hlen).chars]
      exact ⟨_, .decimal hw hf⟩
  | unit hu => exact (hunit hu hts).elim
  | parentheses _ ih =>
    obtain ⟨f, hf⟩ := ih fun t ht ↦ hts t (by simp [ht])
    rw [List.flatMap_append]
    exact ⟨f, .parentheses hf⟩
  | ofPrimary _ ih =>
    obtain ⟨f, hf⟩ := ih hts
    exact ⟨f, .ofPrimary hf⟩
  | suffixed _ hu => exact (hunit hu fun t ht ↦ hts t (List.mem_append_right _ ht)).elim
  | ofOperand _ ih =>
    obtain ⟨f, hf⟩ := ih hts
    exact ⟨f, .ofOperand hf⟩
  | product operator _ _ ihl ihr =>
    obtain ⟨hl, hr⟩ := List.forall_mem_append.mp hts
    obtain ⟨hop, hr⟩ := List.forall_mem_cons.mp hr
    obtain ⟨f, hf⟩ := ihl hl
    obtain ⟨g, hg⟩ := ihr hr
    rw [List.flatMap_append, List.flatMap_cons, ← List.append_assoc]
    obtain ⟨op, hadditive, rfl⟩ := exists_operation_of_multiplicative hop.1
    exact ⟨_, .product hadditive hf hg⟩
  | ofProduct _ ih =>
    obtain ⟨f, hf⟩ := ih hts
    exact ⟨f, .ofProduct hf⟩
  | sum operator _ _ ihl ihr =>
    obtain ⟨hl, hr⟩ := List.forall_mem_append.mp hts
    obtain ⟨hop, hr⟩ := List.forall_mem_cons.mp hr
    obtain ⟨f, hf⟩ := ihl hl
    obtain ⟨g, hg⟩ := ihr hr
    rw [List.flatMap_append, List.flatMap_cons, ← List.append_assoc]
    obtain ⟨op, hadditive, rfl⟩ := exists_operation_of_additive hop.1
    exact ⟨_, .sum hadditive hf hg⟩

/-! ## Literals in range -/

/-- No character that tokens spell overflows. -/
theorem not_isOverflowing_of_spell {c : Char} {es : List Char} (h : Spell ts (ds ++ c :: es)) :
    ¬Lexer.IsOverflowing ds c := by
  have hchars : Text.withoutBlanks (ds ++ c :: es) = ds ++ c :: es := by
    rw [← h.chars]
    exact Token.withoutBlanks_chars h.canonical
  have hlex : Token.lex (.ofList (ds ++ c :: es)) = .ok ts :=
    Token.lex_eq_ok_iff.mpr (by rwa [String.toList_ofList, hchars])
  have hrun := Token.exists_lex_eq_ok_iff.mp ⟨ts, hlex⟩
  rw [String.toList_ofList] at hrun
  have hoffends := Lexer.exists_run_eq_ok_iff.mp hrun ds c es rfl
  obtain ⟨hds, hc⟩ := List.forall_mem_append.mp (Text.withoutBlanks_eq_self_iff.mp hchars)
  rw [Lexer.Offends, Text.withoutBlanks_eq_self_iff.mpr hds] at hoffends
  intro ho
  exact hoffends ⟨hc c List.mem_cons_self, .inr ho⟩

/-- The operator of an operation is a single character that belongs to no literal. -/
theorem getLast?_operator (cs : List Char) (op : Operation) :
    ∀ c ∈ (cs ++ op.text.toList).getLast?, c.isDigit = false ∧ c ≠ '.' := by
  have hop : ∃ c, op.text.toList = [c] ∧ c.isDigit = false ∧ c ≠ '.' := by
    cases op <;> exact ⟨_, rfl, by decide⟩
  obtain ⟨c, hop, hc⟩ := hop
  rw [hop, List.getLast?_concat]
  rintro _ ⟨rfl⟩
  exact hc

/-- A formula among characters none of which overflows is in range. It has to start a literal: what
comes before it does not end in a digit or a point. -/
theorem Reads.inRange {chars after : List Char} (h : Reads category cs f)
    (hchars : ∀ ds c es, chars = ds ++ c :: es → ¬Lexer.IsOverflowing ds c)
    (heq : chars = before ++ cs ++ after)
    (hbefore : ∀ c ∈ before.getLast?, c.isDigit = false ∧ c ≠ '.') : f.InRange := by
  induction h generalizing before after with
  | integer => exact trivial
  | @decimal whole fraction hw hf =>
    constructor
    · by_contra hlt
      refine hchars (before ++ whole) '.' (fraction ++ after) (by simp [heq]) ?_
      rw [Lexer.isOverflowing_whole_iff hbefore hw, Lexeme.overflows_whole_iff hw]
      exact ⟨Nat.not_lt.mp hlt, rfl⟩
    · by_contra hlen
      have hlen : 308 < fraction.length := Nat.not_le.mp hlen
      have htake : ∀ c ∈ fraction.take 308, c.isDigit = true :=
        fun c hc ↦ hf c (List.mem_of_mem_take hc)
      have hcut : fraction ++ after =
          fraction.take 308 ++ fraction[308] :: (fraction.drop 309 ++ after) := by
        rw [← List.cons_append, ← List.append_assoc, List.getElem_cons_drop, List.take_append_drop]
      refine hchars (before ++ (whole ++ '.' :: fraction.take 308)) fraction[308]
        (fraction.drop 309 ++ after) ?_ ?_
      · simp only [heq, hcut, List.append_assoc, List.cons_append]
      · rw [Lexer.isOverflowing_decimal_iff hbefore hw htake,
          Lexeme.overflows_decimal_iff hw (hf _ (List.getElem_mem hlen))]
        exact List.length_take_of_le hlen.le
  | @parentheses cs f _ ih =>
    have hinner : chars = before ++ ['('] ++ cs ++ ')' :: after := by simp [heq]
    refine ih hinner ?_
    rw [List.getLast?_concat]
    rintro _ ⟨rfl⟩
    decide
  | ofPrimary _ ih | ofOperand _ ih | ofProduct _ ih => exact ih heq hbefore
  | @product left right _ _ op _ _ _ ihl ihr | @sum left right _ _ op _ _ _ ihl ihr =>
    have hleft : chars = before ++ left ++ (op.text.toList ++ right ++ after) := by simp [heq]
    have hright : chars = before ++ left ++ op.text.toList ++ right ++ after := by simp [heq]
    exact ⟨ihl hleft hbefore, ihr hright (getLast?_operator _ op)⟩

/-! ## Texts of formulas -/

/-- A text is read as the tree of its formula. -/
theorem Reads.expr_eq (h : Reads .sum (Text.withoutBlanks text.toList) f)
    (hread : Expr.read text = .ok e) : f.expr = e := by
  obtain ⟨ts, hs, hd⟩ := Expr.read_eq_ok_iff.mp hread
  have hrange : f.InRange := by
    have heq : Text.withoutBlanks text.toList = [] ++ Text.withoutBlanks text.toList ++ [] :=
      (List.append_nil _).symm
    refine h.inRange (fun ds c es hsplit ↦ ?_) heq nofun
    exact not_isOverflowing_of_spell (hsplit ▸ hs)
  have hf : Expr.read text = .ok f.expr := Expr.read_eq_ok_iff.mpr (h.exists_spell hrange)
  rw [hread] at hf
  cases hf
  rfl

theorem isNameChar_of_isFormulaChar {c : Char} (hc : isFormulaChar c = true) :
    isNameChar c = false := by
  have hsigns : ∀ c ∈ ['.', '+', '-', '*', '/', '(', ')'], (!isNameChar c) = true :=
    List.all_eq_true.mp (by decide)
  rcases Bool.or_eq_true_iff.mp hc with hc | hc
  · exact isNameChar_of_isDigit hc
  · simpa using hsigns c (List.contains_iff_mem.mp hc)

/-- Tokens that spell characters of formulas are no names. -/
theorem isName_eq_false {t : Token} (hcs : ∀ c ∈ cs, isFormulaChar c = true) (h : Spell ts cs)
    (ht : t ∈ ts) : t.isName = false := by
  cases h.canonical t ht with
  | @name letters hne hletters =>
    obtain ⟨c, hc⟩ := List.exists_mem_of_ne_nil letters hne
    have hmem : c ∈ cs := by
      rw [← h.chars]
      refine List.mem_flatMap.mpr ⟨_, ht, ?_⟩
      rwa [Token.chars, Token.text, String.toList_ofList]
    have := isNameChar_of_isFormulaChar (hcs c hmem)
    rw [hletters c hc] at this
    cases this
  | _ => rfl

/-- A text of numbers, operators, parentheses and blanks that is read at all is a formula, and its
value is that of the stepwise arithmetic, where all values on the way are finite and no divisor is
zero. -/
theorem stepwise_predicts [Platform] (htext : isFormulaText text = true)
    (hread : ∃ e, Expr.read text = .ok e) :
    (∃ f, Reads .sum (Text.withoutBlanks text.toList) f) ∧ Arithmetic.stepwise.Predicts text := by
  obtain ⟨e, he⟩ := hread
  constructor
  · obtain ⟨ts, hs, hd⟩ := Expr.read_eq_ok_iff.mp he
    have hts : ∀ t ∈ ts, IsCanonical t ∧ t.isName = false := fun t ht ↦
      ⟨hs.canonical t ht, isName_eq_false (List.all_eq_true.mp htext) hs ht⟩
    obtain ⟨f, hf⟩ := exists_reads hd hts
    exact ⟨f, hs.chars ▸ hf⟩
  · intro f hf hregular
    rw [calculate, UnitTable.calculate, he, ← hf.expr_eq he]
    exact evaluate_expr hregular

open Rounded in
theorem stepwise_predicts_quotient :
    let f : Formula :=
      .binary (.decimal ['0'] ['3']) .div (.binary (.integer ['1']) .add (.integer ['2']))
    (isFormulaText "0.3 / (1 + 2)" = true ∧ ∃ e, Expr.read "0.3 / (1 + 2)" = .ok e) ∧
      f.isRegular .stepwise = true ∧
      calculate "0.3 / (1 + 2)" = .ok (.ofNumber (f.value .stepwise)) := by
  intro f
  have htext : isFormulaText "0.3 / (1 + 2)" = true := by decide
  have hread : Expr.read "0.3 / (1 + 2)" = .ok f.expr := by decide +kernel
  have hregular : f.isRegular .stepwise = true := by decide +kernel
  have hformula : Reads .sum (Text.withoutBlanks "0.3 / (1 + 2)".toList) f := by
    have hblank : Text.withoutBlanks "0.3 / (1 + 2)".toList = ['0', '.', '3'] ++
        Operation.div.text.toList ++
          ('(' :: (['1'] ++ Operation.add.text.toList ++ ['2']) ++ [')']) := by decide
    have htenths : Reads .primary ['0', '.', '3'] (.decimal ['0'] ['3']) :=
      .decimal (Token.isDigits_singleton rfl) (List.forall_mem_singleton.mpr rfl)
    have hone : Reads .primary ['1'] (.integer ['1']) := .integer (Token.isDigits_singleton rfl)
    have htwo : Reads .primary ['2'] (.integer ['2']) := .integer (Token.isDigits_singleton rfl)
    rw [hblank]
    refine .ofProduct (.product rfl (.ofOperand (.ofPrimary htenths)) (.ofPrimary ?_))
    refine .parentheses (.sum rfl (.ofProduct (.ofOperand (.ofPrimary hone))) ?_)
    exact .ofOperand (.ofPrimary htwo)
  exact ⟨⟨htext, f.expr, hread⟩, hregular,
    (stepwise_predicts htext ⟨f.expr, hread⟩).2 f hformula hregular⟩

open Rounded in
/-- A literal and a quotient that are not the nearest numbers. -/
theorem not_nearest_predicts :
    ((isFormulaText "0.3" = true ∧ ∃ e, Expr.read "0.3" = .ok e) ∧
      ¬Arithmetic.nearest.Predicts "0.3") ∧
    (isFormulaText "5/3" = true ∧ ∃ e, Expr.read "5/3" = .ok e) ∧
      ¬Arithmetic.nearest.Predicts "5/3" := by
  let tenths : Formula := .decimal ['0'] ['3']
  let thirds : Formula := .binary (.integer ['5']) .div (.integer ['3'])
  have hread_tenths : Expr.read "0.3" = .ok tenths.expr := by decide +kernel
  have hread_thirds : Expr.read "5/3" = .ok thirds.expr := by decide +kernel
  have htenths : Reads .sum (Text.withoutBlanks "0.3".toList) tenths := by
    have hblank : Text.withoutBlanks "0.3".toList = ['0'] ++ '.' :: ['3'] := by decide
    rw [hblank]
    refine .ofProduct (.ofOperand (.ofPrimary (.decimal (Token.isDigits_singleton rfl) ?_)))
    exact List.forall_mem_singleton.mpr rfl
  have hthirds : Reads .sum (Text.withoutBlanks "5/3".toList) thirds := by
    have hblank : Text.withoutBlanks "5/3".toList =
        ['5'] ++ Operation.div.text.toList ++ ['3'] := by decide
    have hfive : Reads .primary ['5'] (.integer ['5']) := .integer (Token.isDigits_singleton rfl)
    have hthree : Reads .primary ['3'] (.integer ['3']) := .integer (Token.isDigits_singleton rfl)
    rw [hblank]
    exact .ofProduct (.product rfl (.ofOperand (.ofPrimary hfive)) (.ofPrimary hthree))
  refine ⟨⟨⟨by decide, _, hread_tenths⟩, fun h ↦ ?_⟩, ⟨by decide, _, hread_thirds⟩, fun h ↦ ?_⟩
  · have hvalue : calculate "0.3" ≠ .ok (.ofNumber (tenths.value .nearest)) := by decide +kernel
    exact hvalue (h tenths htenths (by decide +kernel))
  · have hvalue : calculate "5/3" ≠ .ok (.ofNumber (thirds.value .nearest)) := by decide +kernel
    exact hvalue (h thirds hthirds (by decide +kernel))

end Formula

end UnitCalc
