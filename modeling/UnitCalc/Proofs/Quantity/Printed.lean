import UnitCalc.Proofs.Expr.Layout
import UnitCalc.Quantity.Format

/-!
# What a printed quantity looks like to the reader

A printed quantity such as `2 m1 s-2 kg1` shows its exponents with their signs, but the grammar has
no negative powers: the minus sign belongs to a difference, and the digits after it start the next
term. `Printed.layout` is the tree that the text is read as, here `2 m1 s - 2 kg1`, and
`Printed.text_layout` is the proof that they are written alike.
-/

namespace UnitCalc

variable {b : BaseUnit} {n : Int} {v : Layout} {es : List (BaseUnit × Int)}

/-! ## The tree -/

/-- A base unit as it is written, with a power or without. -/
def BaseUnit.layout (b : BaseUnit) (power : Option Nat) : UnitLayout where
  letters := b.symbol.toList
  ne_nil := by cases b <;> decide
  isNameChar := List.all_eq_true.mp (by cases b <;> decide)
  power := power

namespace Printed

/-- The difference that ends with the term `v`. -/
def close (left : Option Layout) (v : Layout) : Layout :=
  match left with
  | some l => .binary l .sub v
  | none => v

/-- The tree of what has been read and of the factors that follow. The term being read is `v`, and
`left` is what it will be subtracted from, if anything. -/
def layout (left : Option Layout) (v : Layout) : List (BaseUnit × Int) → Layout
  | [] => close left v
  | (b, n) :: es =>
    if 0 ≤ n then layout left (.suffixed v (b.layout (some n.natAbs))) es
    else layout (some (close left (.suffixed v (b.layout none)))) (.integer n.natAbs) es

theorem layout_cons_of_nonneg (left : Option Layout) (v : Layout) (hn : 0 ≤ n) :
    layout left v ((b, n) :: es) =
      layout left (.suffixed v (b.layout (some n.natAbs))) es := by
  rw [layout, if_pos hn]

theorem layout_cons_of_neg (left : Option Layout) (v : Layout) (hn : n < 0) :
    layout left v ((b, n) :: es) =
      layout (some (close left (.suffixed v (b.layout none)))) (.integer n.natAbs) es := by
  rw [layout, if_neg (Int.not_le.mpr hn)]

/-! ## Its text -/

/-- The characters of a factor. -/
def factorChars (entry : BaseUnit × Int) : List Char :=
  entry.1.symbol.toList ++ (toString entry.2).toList

theorem isSum_eq_false (hv : v.needsBeforeUnit = false) : v.isSum = false := by
  cases v <;> first | rfl | cases hv

theorem text_suffixed (hv : v.needsBeforeUnit = false) (u : UnitLayout) :
    (Layout.suffixed v u).text = v.text ++ u.text := by
  rw [Layout.text, hv, enclosedIf, if_neg Bool.false_ne_true]

theorem text_close (left : Option Layout) (hv : v.isSum = false) :
    (close left v).text = (left.elim [] fun l ↦ l.text ++ ['-']) ++ v.text := by
  cases left with
  | none => rfl
  | some l =>
    have hl : l.needsLeftOf .sub = false := rfl
    have hr : v.needsRightOf .sub = false := by rw [Layout.needsRightOf, hv]; rfl
    rw [close, Layout.text, hl, hr]
    rfl

theorem text_close_suffixed (left : Option Layout) (hv : v.needsBeforeUnit = false)
    (u : UnitLayout) : (close left (.suffixed v u)).text = (close left v).text ++ u.text := by
  rw [text_close left rfl, text_close left (isSum_eq_false hv), text_suffixed hv, List.append_assoc]

/-- The tree is written as the factors are. -/
theorem text_layout (left : Option Layout) (hv : v.needsBeforeUnit = false) :
    (layout left v es).text = (close left v).text ++ es.flatMap factorChars := by
  induction es generalizing left v with
  | nil => exact (List.append_nil _).symm
  | cons entry es ih =>
    obtain ⟨b, n⟩ := entry
    rw [List.flatMap_cons, ← List.append_assoc, factorChars]
    rcases Int.lt_or_le n 0 with hn | hn
    · rw [layout_cons_of_neg left v hn, ih _ rfl, text_close _ rfl, Option.elim_some,
        text_close_suffixed left hv, Text.toList_toString_of_neg hn]
      simp [BaseUnit.layout, UnitLayout.text, Layout.text]
    · rw [layout_cons_of_nonneg left v hn, ih left rfl, text_close_suffixed left hv,
        Text.toList_toString_of_nonneg hn]
      rfl

end Printed

/-! ## The printed text -/

namespace Quantity

variable {q : Quantity} {settings : Settings}

/-- The words that a quantity with a whole magnitude is printed in. -/
def printedWords (q : Quantity) : List String :=
  toString q.magnitude.truncate :: q.dimension.factors

theorem formatWith_none (hs : settings.precision = none) (hi : q.magnitude.isIntegral = true)
    (hm : q.magnitude.truncate.natAbs < 10 ^ 16) (hw : q.isWritable = true) :
    q.formatWith settings none = .ok (" ".intercalate q.printedWords) := by
  have hd : q.dimension.isWritable = true := hw
  have hplain : q.magnitude.plainText = toString q.magnitude.truncate := by
    rw [Binary64.plainText, if_pos ⟨hi, hm⟩]
  have hformat : q.magnitude.format none = .ok (toString q.magnitude.truncate) :=
    congrArg Except.ok hplain
  rw [formatWith, hs, Option.orElse_eq_orElse, Option.orElse_none, format, hformat]
  simp only [bind, Except.bind, if_pos hd, parts_eq, printedWords]
  rfl

/-- The tree that the text of a quantity is read as. -/
def printedLayout (q : Quantity) : Layout :=
  Printed.layout none (.integer q.magnitude.truncate.natAbs) q.dimension.entries

theorem text_printedLayout (hm : 0 ≤ q.magnitude.truncate) :
    q.printedLayout.text = q.printedWords.flatMap String.toList := by
  rw [printedLayout, Printed.text_layout none rfl, printedWords, List.flatMap_cons,
    Text.toList_toString_of_nonneg hm, Dimension.factors, List.flatMap_map]
  refine congrArg _ (List.flatMap_congr fun entry _ ↦ ?_)
  exact (String.toList_append ..).symm

/-- The text of a quantity is read, but its negative exponents turn into differences. -/
theorem read_printed (hm : 0 ≤ q.magnitude.truncate) :
    Expr.read (" ".intercalate q.printedWords) = .ok q.printedLayout.expr := by
  refine Expr.read_of_text_eq _ ?_
  obtain ⟨hcanon, -, hchars⟩ := q.printedLayout.spell_tokens
  rw [Text.withoutBlanks_intercalate_space, ← text_printedLayout hm, ← hchars]
  exact Token.withoutBlanks_chars hcanon

end Quantity

end UnitCalc
