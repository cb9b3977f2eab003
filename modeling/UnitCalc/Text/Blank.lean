/-!
# Blank characters

The white space of Unicode: the separators, the controls that move the print position, and the four
information separators. `strip` removes it from both ends of a text, `withoutBlanks` removes all of
it.
-/

namespace UnitCalc

namespace Text

/-- Whether a character is white space. -/
def isBlank (c : Char) : Bool :=
  let n := c.toNat
  (0x09 ≤ n && n ≤ 0x0D) || (0x1C ≤ n && n ≤ 0x20) || n == 0x85 || n == 0xA0 || n == 0x1680
    || (0x2000 ≤ n && n ≤ 0x200A) || n == 0x2028 || n == 0x2029 || n == 0x202F || n == 0x205F
    || n == 0x3000

/-- The characters of a list without the blank ones. -/
def withoutBlanks (cs : List Char) : List Char := cs.filter fun c ↦ !isBlank c

/-- A list of characters without those at both ends that satisfy `p`. -/
def trim (p : Char → Bool) (cs : List Char) : List Char :=
  ((cs.dropWhile p).reverse.dropWhile p).reverse

/-- A text without the blanks at both ends. -/
def strip (s : String) : String := String.ofList (trim isBlank s.toList)

@[simp] theorem withoutBlanks_append (cs ds : List Char) :
    withoutBlanks (cs ++ ds) = withoutBlanks cs ++ withoutBlanks ds :=
  List.filter_append ..

theorem withoutBlanks_eq_self_iff {cs : List Char} :
    withoutBlanks cs = cs ↔ ∀ c ∈ cs, isBlank c = false := by
  simp [withoutBlanks, List.filter_eq_self]

/-- Blank separators do not count. -/
theorem withoutBlanks_intercalate {separator : String}
    (h : ∀ c ∈ separator.toList, isBlank c = true) (words : List String) :
    withoutBlanks (separator.intercalate words).toList =
      withoutBlanks (words.flatMap String.toList) := by
  have hsep : withoutBlanks separator.toList = [] := by simpa [withoutBlanks] using h
  rw [String.toList_intercalate]
  induction words with
  | nil => rfl
  | cons word words ih =>
    rw [List.flatMap_cons, withoutBlanks_append, ← ih]
    cases words with
    | nil =>
      rw [List.map_cons, List.map_nil, List.intercalate_singleton, List.intercalate_nil]
      exact (List.append_nil _).symm
    | cons next words =>
      rw [List.map_cons, List.map_cons, List.intercalate_cons_cons, withoutBlanks_append,
        withoutBlanks_append, hsep, List.append_nil]

theorem withoutBlanks_intercalate_space (words : List String) :
    withoutBlanks (" ".intercalate words).toList = withoutBlanks (words.flatMap String.toList) :=
  withoutBlanks_intercalate (List.all_eq_true.mp (by decide)) words

end Text

end UnitCalc
