import UnitCalc.Proofs.Binary64.Rounded
import UnitCalc.Proofs.Calculator
import UnitCalc.Proofs.Expr.Descent
import UnitCalc.Proofs.Finite

/-!
# Expressions of texts

Expressions may hold operators that do not exist, leaves that are no expressions, negative numbers
and units that are no names. None of this comes from a text: `Expr.IsProper` says what a tree that
was read is like at every node. The tokens of a text are canonical, and each rule of the grammar
builds a proper tree from proper parts, so this is an induction on the derivation.

An evaluation ends in the error of one of the nodes, and a proper tree has no node for the errors
about operators and leaves.
-/

namespace UnitCalc

open Token (IsCanonical)

variable {text : String} {t : UnitTable} {ts : List Token} {e s : Expr} {f : Fault} {q : Quantity}
  {failure : Failure} {category : Category} {error : EvaluateError} {symbol : String} {c : Char}
  {digits fraction : List Char} {x y : Binary64} {place : Nat}

/-! ## Literals are not negative -/

namespace Binary64

/-- Not a negative number, nor the negative zero. -/
def IsUnsigned : Binary64 → Prop
  | nan => True
  | infinite s | finite s _ => s = false

theorem isUnsigned_ofQuanta (num den : Nat) : (ofQuanta false num den).IsUnsigned := by
  unfold ofQuanta ofRank
  split <;> rfl

theorem isUnsigned_ofRatio (num den : Nat) : (ofRatio num den).IsUnsigned :=
  isUnsigned_ofQuanta _ _

theorem IsUnsigned.add (hx : x.IsUnsigned) (hy : y.IsUnsigned) : (x + y).IsUnsigned := by
  match x, y, hx, hy with
  | nan, _, _, _ | infinite _, nan, _, _ | finite _ _, nan, _, _ => exact trivial
  | infinite false, infinite false, _, _ | infinite false, finite _ _, _, _
  | finite _ _, infinite false, _, _ => rfl
  | finite false a, finite false b, _, _ =>
    have hsign : ¬((quanta a : Int) + quanta b < 0) := by omega
    rw [add_finite]
    split
    · rfl
    · rw [signedQuanta, signedQuanta, if_neg Bool.false_ne_true, if_neg Bool.false_ne_true,
        decide_eq_false hsign]
      exact isUnsigned_ofQuanta _ _

theorem IsUnsigned.mul (hx : x.IsUnsigned) (hy : y.IsUnsigned) : (x * y).IsUnsigned := by
  match x, y, hx, hy with
  | nan, _, _, _ | infinite _, nan, _, _ | finite _ _, nan, _, _ => exact trivial
  | infinite false, infinite false, _, _ => rfl
  | infinite false, finite false b, _, _ =>
    change IsUnsigned (if b.val = 0 then nan else infinite (false ^^ false))
    split <;> trivial
  | finite false a, infinite false, _, _ =>
    change IsUnsigned (if a.val = 0 then nan else infinite (false ^^ false))
    split <;> trivial
  | finite false a, finite false b, _, _ =>
    rw [mul_finite]
    exact isUnsigned_ofQuanta _ _

theorem IsUnsigned.div (hx : x.IsUnsigned) (hy : y.IsUnsigned) : (x / y).IsUnsigned := by
  match x, y, hx, hy with
  | nan, _, _, _ | infinite _, nan, _, _ | finite _ _, nan, _, _ => exact trivial
  | infinite false, infinite false, _, _ => trivial
  | infinite false, finite false _, _, _ | finite false _, infinite false, _, _ => rfl
  | finite false a, finite false b, _, _ =>
    change IsUnsigned (if b.val = 0 then if a.val = 0 then nan else infinite (false ^^ false)
      else ofQuanta (false ^^ false) _ _)
    split
    · split <;> trivial
    · exact isUnsigned_ofQuanta _ _

end Binary64

/-- The value of a literal has no sign. -/
theorem Literal.isUnsigned_decimal (digits fraction : List Char) :
    (decimal digits fraction).IsUnsigned := by
  induction fraction using List.reverseRecOn with
  | nil =>
    rw [decimal, List.zipIdx_nil, List.foldl_nil]
    exact Binary64.isUnsigned_ofRatio _ _
  | append_singleton fraction c ih =>
    rw [decimal_concat, addDigit]
    have hone : (Binary64.one false).IsUnsigned := rfl
    exact ih.add ((Binary64.isUnsigned_ofRatio _ _).mul
      (hone.div (Binary64.isUnsigned_ofRatio _ _)))

/-! ## Proper expressions -/

/-- A nonempty string of letters. -/
def IsUnitName (symbol : String) : Prop := symbol ≠ "" ∧ ∀ c ∈ symbol.toList, c.isAlpha = true

namespace Expr

/-- A unit, with or without a power. -/
def IsUnit : Expr → Prop
  | unit _ | unitPower .. => True
  | _ => False

/-- At every node a number is finite and not negative, a name is made of letters, what follows a
value is a unit, and an operator is one of the four. No leaf is foreign. -/
def IsProper : Expr → Prop
  | integer value => 0 ≤ value
  | decimal value => value.isFinite = true ∧ value.IsUnsigned
  | unit symbol => IsUnitName symbol
  | unitPower symbol power => IsUnitName symbol ∧ 0 ≤ power
  | suffixed value suffix => value.IsProper ∧ suffix.IsProper ∧ suffix.IsUnit
  | binary left operator right =>
    left.IsProper ∧ right.IsProper ∧ operator ∈ ["+", "-", "*", "/"]
  | foreign _ => False

/-- The nodes of a proper tree are proper. -/
theorem IsProper.of_isSubtree (h : e.IsProper) (hs : IsSubtree s e) : s.IsProper := by
  induction hs with
  | refl => exact h
  | value _ ih | left _ ih => exact ih h.1
  | suffix _ ih | right _ ih => exact ih h.2.1

/-- The four operators stand for operations. -/
theorem IsProper.ofText?_ne_none {l r : Expr} {operator : String}
    (h : (binary l operator r).IsProper) : Operation.ofText? operator ≠ none := by
  have hmem : operator = "+" ∨ operator = "-" ∨ operator = "*" ∨ operator = "/" := by
    simpa using h.2.2
  rcases hmem with rfl | rfl | rfl | rfl <;> nofun

/-- A node of a proper tree is never at fault for its operator or for not being an expression. -/
theorem IsProper.ne_of_admits (h : e.IsProper) (ha : e.Admits t error) :
    (∀ operator, error ≠ .badOperator operator) ∧ ∀ value, error ≠ .notAnExpression value := by
  constructor
  · rintro operator rfl
    obtain ⟨l, r, hs, hnone⟩ := ha
    exact (h.of_isSubtree hs).ofText?_ne_none hnone
  · rintro value rfl
    exact h.of_isSubtree ha

end Expr

/-! ## What is read is proper -/

theorem Token.IsCanonical.isUnitName (h : IsCanonical (.name symbol)) : IsUnitName symbol := by
  obtain ⟨hne, hletters⟩ := h
  constructor
  · rwa [Ne, ← String.toList_eq_nil_iff, String.toList_ofList]
  · rwa [String.toList_ofList]

theorem Token.IsCanonical.integer_nonneg {value : Int} {spelling : String}
    (h : IsCanonical (.integer value spelling)) : 0 ≤ value := by
  obtain ⟨-⟩ := h
  exact Int.natCast_nonneg _

theorem Token.IsCanonical.decimal_isProper {spelling : String}
    (h : IsCanonical (.decimal x spelling)) : x.isFinite = true ∧ x.IsUnsigned := by
  obtain ⟨-⟩ := h
  next hdigits hfraction hlt hlen =>
  exact ⟨Literal.isFinite_decimal hlt hfraction hlen, Literal.isUnsigned_decimal _ _⟩

theorem DerivesUnit.isProper (h : DerivesUnit ts e) (hts : ∀ token ∈ ts, IsCanonical token) :
    e.IsProper ∧ e.IsUnit := by
  cases h with
  | plain symbol => exact ⟨(List.forall_mem_singleton.mp hts).isUnitName, trivial⟩
  | power symbol power spelling =>
    obtain ⟨hname, hpower⟩ := List.forall_mem_cons.mp hts
    exact ⟨⟨hname.isUnitName, (List.forall_mem_singleton.mp hpower).integer_nonneg⟩, trivial⟩

/-- The grammar derives proper trees from canonical tokens. -/
theorem Derives.isProper (h : Derives category ts e) (hts : ∀ token ∈ ts, IsCanonical token) :
    e.IsProper := by
  induction h with
  | integer value spelling => exact (List.forall_mem_singleton.mp hts).integer_nonneg
  | decimal value spelling => exact (List.forall_mem_singleton.mp hts).decimal_isProper
  | unit hu => exact (hu.isProper hts).1
  | parentheses _ ih =>
    refine ih fun token htoken ↦ hts token ?_
    exact List.mem_append_left _ (List.mem_cons_of_mem _ htoken)
  | ofPrimary _ ih | ofOperand _ ih | ofProduct _ ih => exact ih hts
  | suffixed _ hu ih =>
    obtain ⟨hl, hr⟩ := List.forall_mem_append.mp hts
    exact ⟨ih hl, hu.isProper hr⟩
  | product operator _ _ ihl ihr =>
    obtain ⟨hl, hr⟩ := List.forall_mem_append.mp hts
    obtain ⟨hop, hr⟩ := List.forall_mem_cons.mp hr
    refine ⟨ihl hl, ihr hr, ?_⟩
    cases hop <;> decide
  | sum operator _ _ ihl ihr =>
    obtain ⟨hl, hr⟩ := List.forall_mem_append.mp hts
    obtain ⟨hop, hr⟩ := List.forall_mem_cons.mp hr
    refine ⟨ihl hl, ihr hr, ?_⟩
    cases hop <;> decide

namespace Expr

/-- Every expression of a text is proper. -/
theorem isProper_of_read (h : read text = .ok e) : e.IsProper := by
  obtain ⟨ts, hspell, hd⟩ := read_eq_ok_iff.mp h
  exact hd.isProper hspell.canonical

end Expr

/-! ## What is reported -/

theorem Fault.stage_unknownUnit (symbol : String) :
    ∃ failure, unknownUnit symbol = .failure failure ∧ failure.stage = .evaluate ∧
      failure.cause? = some .unitError :=
  ⟨.evaluate (.unknownUnit symbol), rfl, rfl, rfl⟩

theorem UnitTable.lookup_of_get?_eq_none (h : t.get? symbol = none) :
    t.lookup symbol = .error (.unknownUnit symbol) :=
  lookup_eq_error_iff.mpr ⟨h, rfl⟩

/-- A unit that the table does not have is reported as an error of the evaluation. -/
theorem Expr.evaluate_of_get?_eq_none [Platform] (h : t.get? symbol = none) :
    (unit symbol).evaluate t = .error (.unknownUnit symbol) ∧
      ∀ power, (unitPower symbol power).evaluate t = .error (.unknownUnit symbol) := by
  refine ⟨UnitTable.lookup_of_get?_eq_none h, fun power ↦ ?_⟩
  rw [evaluate_unitPower, UnitTable.lookup_of_get?_eq_none h]
  rfl

/-- Every expression of a text is proper, so its evaluation over any table is never at fault for an
operator or for a leaf that is no expression. No failure of a calculation is that of a unit: a unit
that the table does not have is an error of the evaluation, caused by that of the unit. And reading
by descent never looks for a unit where no name stands, whatever the tokens are. -/
theorem read_isProper [Platform] :
    (∀ text e, Expr.read text = .ok e → e.IsProper ∧
      ∀ t f, e.evaluate t = .error f → ∃ error : EvaluateError, f = error.fault ∧
        (∀ operator, error ≠ .badOperator operator) ∧ (∀ value, error ≠ .notAnExpression value) ∧
        ∀ symbol, error = .unknownUnit symbol → e.Names symbol ∧ t.get? symbol = none) ∧
    (∀ (t : UnitTable) text failure,
      t.calculate text = .error (.failure failure) → failure.stage ≠ .unit) ∧
    (∀ (t : UnitTable) (e : Expr) symbol, e.Names symbol → t.get? symbol = none →
      (∀ q, e.evaluate t ≠ .ok q) ∧
      (Expr.unit symbol).evaluate t = .error (.unknownUnit symbol) ∧
      ∀ power, (Expr.unitPower symbol power).evaluate t = .error (.unknownUnit symbol)) ∧
    (∀ symbol, ∃ failure, Fault.unknownUnit symbol = .failure failure ∧
      failure.stage = .evaluate ∧ failure.cause? = some .unitError) ∧
    ∀ ts, Descent.ofTokens ts = (Expr.ofTokens ts).mapError .error ∧
      Descent.ofTokens ts ≠ .error .noName := by
  refine ⟨?_, fun t text failure ↦ stage_of_calculate, ?_, Fault.stage_unknownUnit,
    fun ts ↦ ⟨Descent.ofTokens_eq ts, Descent.ofTokens_ne_noName ts⟩⟩
  · intro text e hread
    have hproper := Expr.isProper_of_read hread
    refine ⟨hproper, fun t f hf ↦ ?_⟩
    obtain ⟨error, hadmits, hfault⟩ := Expr.admitsFault_of_evaluate hf
    obtain ⟨hoperator, hvalue⟩ := hproper.ne_of_admits hadmits
    refine ⟨error, hfault, hoperator, hvalue, ?_⟩
    rintro symbol rfl
    exact hadmits
  · intro t e symbol hnames hnone
    refine ⟨fun q hq ↦ ?_, Expr.evaluate_of_get?_eq_none hnone⟩
    have hsome := hnames.isSome_get? hq
    rw [hnone] at hsome
    cases hsome

open Rounded in
theorem read_isProper_unknown_unit :
    let e : Expr := .binary (.suffixed (.integer 3) (.unit "x")) "/" (.unitPower "s" 2)
    Expr.read "3 x / s2" = .ok e ∧ e.IsProper ∧ UnitTable.standard.get? "x" = none ∧
      ∀ q, e.evaluate UnitTable.standard ≠ .ok q := by
  intro e
  have hread : Expr.read "3 x / s2" = .ok e := by decide +kernel
  have hnone : UnitTable.standard.get? "x" = none := by decide +kernel
  have hnames : e.Names "x" := .inl (.left (.suffix .refl))
  exact ⟨hread, (read_isProper.1 _ _ hread).1, hnone,
    (read_isProper.2.2.1 _ _ _ hnames hnone).1⟩

end UnitCalc
