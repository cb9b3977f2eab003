import Mathlib.Data.List.DropRight
import UnitCalc.Proofs.Token.Legality

/-!
# Where the caret stands

A failure of the lexer is rendered in rows: its message, the rows of the text, and a row that ends
in the caret. The indentation of the caret is the position of the offending character, which counts
the characters of the whole text, and the caret row comes after the whole text. So the caret is in
the column of the offending character exactly if no line feed precedes it, and in the next row
exactly if none follows it.

Rows and columns are those of `placeAfter`. Text that ends in a line feed moves what follows it down
without touching its columns (`placeAfter_append_cons`), which places both the shown text and the
caret. The message takes one row, since quoting escapes line feeds.
-/

namespace UnitCalc

variable {c d : Char} {cs ds es : List Char} {text : String} {failure : Failure}

namespace Text

/-! ## Rows and columns -/

/-- What stands between the line feeds of a text. -/
def rows (cs : List Char) : List (List Char) := cs.splitOn '\n'

/-- A row and a column, both counted from zero. -/
structure Place where
  row : Nat
  column : Nat
  deriving DecidableEq

/-- The place of the character after `ds`: the line feeds before it, and the characters since the
last of them. -/
def placeAfter (ds : List Char) : Place :=
  ⟨ds.count '\n', (ds.rtakeWhile (· != '\n')).length⟩

/-- The character that a text has at a place. -/
def charAt? (cs : List Char) (place : Place) : Option Char :=
  (rows cs)[place.row]?.bind fun row ↦ row[place.column]?

/-- The lower place is in the next row and in the same column. -/
def Place.IsBelow (lower upper : Place) : Prop :=
  lower.row = upper.row + 1 ∧ lower.column = upper.column

instance (lower upper : Place) : Decidable (lower.IsBelow upper) :=
  inferInstanceAs (Decidable (_ ∧ _))

theorem rows_of_notMem (h : '\n' ∉ cs) : rows cs = [cs] := List.splitOn_eq_singleton h

theorem rows_append_cons (cs ds : List Char) : rows (cs ++ '\n' :: ds) = rows cs ++ rows ds :=
  List.splitOnP_append_cons cs ds (by decide)

/-- A text with a line feed is divided at the last one. -/
theorem exists_eq_append_cons (h : '\n' ∈ cs) : ∃ ds es, cs = ds ++ '\n' :: es ∧ '\n' ∉ es := by
  obtain ⟨es, ds, heq, hes⟩ := List.eq_append_cons_of_mem (List.mem_reverse.mpr h)
  refine ⟨ds.reverse, es.reverse, ?_, by rwa [List.mem_reverse]⟩
  rw [← List.reverse_reverse cs, heq]
  simp

theorem length_rows (cs : List Char) : (rows cs).length = cs.count '\n' + 1 := by
  induction cs with
  | nil => rfl
  | cons c cs ih =>
    rw [rows, List.splitOn, List.splitOnP_cons_eq_if_modifyHead, List.count_cons]
    rw [rows, List.splitOn] at ih
    split <;> simp [ih]

theorem placeAfter_of_notMem (h : '\n' ∉ ds) : placeAfter ds = ⟨0, ds.length⟩ := by
  have hall : ds.rtakeWhile (· != '\n') = ds := by
    rw [List.rtakeWhile_eq_self_iff]
    exact fun c hc ↦ bne_iff_ne.mpr fun heq ↦ h (heq ▸ hc)
  rw [placeAfter, hall, List.count_eq_zero_of_not_mem h]

/-- Rows before a text move its places down. -/
theorem placeAfter_append_cons (cs ds : List Char) : placeAfter (cs ++ '\n' :: ds) =
    ⟨(rows cs).length + (placeAfter ds).row, (placeAfter ds).column⟩ := by
  have hcolumn : (cs ++ '\n' :: ds).rtakeWhile (· != '\n') = ds.rtakeWhile (· != '\n') := by
    induction ds using List.reverseRecOn with
    | nil => exact List.rtakeWhile_concat_neg _ _ _ (by decide)
    | append_singleton ds d ih =>
      rw [← List.cons_append, ← List.append_assoc]
      by_cases hd : (d != '\n') = true
      · rw [List.rtakeWhile_concat_pos (· != '\n') _ _ hd,
          List.rtakeWhile_concat_pos (· != '\n') _ _ hd, ih]
      · rw [List.rtakeWhile_concat_neg (· != '\n') _ _ hd,
          List.rtakeWhile_concat_neg (· != '\n') _ _ hd]
  rw [placeAfter, hcolumn, length_rows, List.count_append, List.count_cons_self]
  simp only [placeAfter, Place.mk.injEq, and_true]
  omega

theorem charAt?_append_cons (cs ds : List Char) (place : Place) :
    charAt? (cs ++ '\n' :: ds) ⟨(rows cs).length + place.row, place.column⟩ =
      charAt? ds place := by
  rw [charAt?, charAt?, rows_append_cons, List.getElem?_append_right (Nat.le_add_right ..),
    Nat.add_sub_cancel_left]

/-- The first row of a text that has no line feed up to `c`. -/
theorem charAt?_of_notMem (hds : '\n' ∉ ds) (hc : c ≠ '\n') (es : List Char) :
    charAt? (ds ++ c :: es) ⟨0, ds.length⟩ = some c := by
  have hrow : ∃ row rest, rows (ds ++ c :: es) = (ds ++ c :: row) :: rest := by
    by_cases hes : '\n' ∈ es
    · obtain ⟨row, rest, rfl, hrow⟩ := List.eq_append_cons_of_mem hes
      refine ⟨row, rows rest, ?_⟩
      rw [← List.cons_append, ← List.append_assoc, rows_append_cons,
        rows_of_notMem (by simp [hds, hrow, hc.symm])]
      rfl
    · exact ⟨es, [], rows_of_notMem (by simp [hds, hes, hc.symm])⟩
  obtain ⟨row, rest, hrow⟩ := hrow
  rw [charAt?, hrow]
  simp

/-- The place of a character is where the text has it. -/
theorem charAt?_placeAfter (hc : c ≠ '\n') (ds es : List Char) :
    charAt? (ds ++ c :: es) (placeAfter ds) = some c := by
  by_cases hds : '\n' ∈ ds
  · obtain ⟨above, left, rfl, hleft⟩ := exists_eq_append_cons hds
    rw [placeAfter_append_cons, List.append_assoc, List.cons_append, charAt?_append_cons,
      placeAfter_of_notMem hleft]
    exact charAt?_of_notMem hleft hc es
  · rw [placeAfter_of_notMem hds]
    exact charAt?_of_notMem hds hc es

/-- The column falls behind the position by what the rows above take. -/
theorem length_eq_column_placeAfter (ds : List Char) :
    ds.length = (placeAfter ds).column + (ds.rdropWhile (· != '\n')).length := by
  change ds.length = (ds.rtakeWhile (· != '\n')).length + (ds.rdropWhile (· != '\n')).length
  rw [Nat.add_comm, ← List.length_append, List.rdropWhile_append_rtakeWhile]

theorem length_rdropWhile_eq_zero_iff : (ds.rdropWhile (· != '\n')).length = 0 ↔ '\n' ∉ ds := by
  rw [List.length_eq_zero_iff, List.rdropWhile_eq_nil_iff]
  constructor
  · exact fun hall hmem ↦ absurd (hall _ hmem) (by decide)
  · exact fun hds d hd ↦ bne_iff_ne.mpr fun heq ↦ hds (heq ▸ hd)

/-! ## Quoted text is one row -/

theorem notMem_lineFeed_toDigits (n : Nat) : '\n' ∉ Nat.toDigits 16 n := by
  have hdigit : ∀ k < 16, '\n' ≠ Nat.digitChar k := by decide
  induction n using Nat.strongRecOn with
  | ind n ih =>
    rw [Nat.toDigits_eq_if (by decide)]
    split
    · next hn =>
      rw [List.mem_singleton]
      exact hdigit n hn
    · next hn =>
      rw [List.mem_append, List.mem_singleton, not_or]
      exact ⟨ih _ (by omega), hdigit _ (Nat.mod_lt _ (by decide))⟩

theorem notMem_lineFeed_hexDigits (width n : Nat) : '\n' ∉ hexDigits width n := by
  rw [hexDigits, List.mem_append, List.mem_replicate, not_or]
  exact ⟨fun h ↦ absurd h.2 (by decide), notMem_lineFeed_toDigits n⟩

theorem notMem_lineFeed_escape {quote : Char} (hquote : quote ≠ '\n') (c : Char) :
    '\n' ∉ escape quote c := by
  unfold escape
  split
  · next hc =>
    rcases hc with rfl | rfl
    · simp [hquote.symm]
    · decide
  · split
    · decide
    · next hc =>
      have hhex := notMem_lineFeed_hexDigits
      split_ifs <;> simp [hhex, Ne.symm hc]

/-- Whatever text is quoted, its line feeds are escaped. -/
theorem notMem_lineFeed_quoted (s : String) : '\n' ∉ (quoted s).toList := by
  have hquote : quoteFor s.toList ≠ '\n' := by
    unfold quoteFor
    split <;> decide
  rw [quoted, String.toList_ofList, List.mem_append, List.mem_cons, List.mem_flatMap,
    List.mem_singleton]
  rintro ((heq | ⟨c, -, hc⟩) | heq)
  · exact hquote heq.symm
  · exact notMem_lineFeed_escape hquote c hc
  · exact hquote heq.symm

end Text

namespace Failure

open Text

/-! ## The rows of a rendered failure -/

theorem toList_rendered_lex (c : Char) (text : String) (position : Nat) :
    (lex c text position).rendered.toList = (lex c text position).message.toList ++
      '\n' :: (text.toList ++ '\n' :: (List.replicate position ' ' ++ ['^'])) := by
  simp [rendered]

theorem rows_message_lex (c : Char) (text : String) (position : Nat) :
    rows (lex c text position).message.toList = [(lex c text position).message.toList] := by
  refine rows_of_notMem ?_
  rw [message_lex, String.toList_append, List.mem_append, not_or]
  exact ⟨by decide, notMem_lineFeed_quoted _⟩

theorem rows_rendered_lex (c : Char) (text : String) (position : Nat) :
    rows (lex c text position).rendered.toList = (lex c text position).message.toList ::
      (rows text.toList ++ [List.replicate position ' ' ++ ['^']]) := by
  have hcaret : '\n' ∉ List.replicate position ' ' ++ ['^'] := by
    rw [List.mem_append, List.mem_replicate, not_or]
    exact ⟨fun h ↦ absurd h.2 (by decide), by decide⟩
  rw [toList_rendered_lex, rows_append_cons, rows_append_cons, rows_message_lex,
    rows_of_notMem hcaret]
  rfl

/-- The text is shown one row down. -/
theorem charAt?_rendered_shown (hc : c ≠ '\n') (htext : text.toList = ds ++ c :: es)
    (position : Nat) : charAt? (lex d text position).rendered.toList
      ⟨1 + (placeAfter ds).row, (placeAfter ds).column⟩ = some c := by
  have hone : 1 = (rows (lex d text position).message.toList).length := by
    rw [rows_message_lex, List.length_singleton]
  rw [toList_rendered_lex, hone, charAt?_append_cons, htext, List.append_assoc, List.cons_append]
  exact charAt?_placeAfter hc ds _

/-- The caret is below all rows of the text, in the column of the position. -/
theorem charAt?_rendered_caret (c : Char) (text : String) (position : Nat) :
    charAt? (lex c text position).rendered.toList ⟨1 + (rows text.toList).length, position⟩ =
      some '^' := by
  rw [charAt?, rows_rendered_lex, Nat.add_comm, List.getElem?_cons_succ]
  simp

end Failure

namespace Token

open Text

/-- A failure is rendered as its message, the rows of the text, and a row with the caret. The
offending character is shown at its place in the text, one row down. The caret is too low by the
line feeds that follow the character and too far right by the rows above it, so it is below the
character exactly if the text has no line feed. -/
theorem caret_isBelow_iff (h : lex text = .error (.failure failure)) :
    ∃ position c, failure.position? = some position ∧ text.toList[position]? = some c ∧
      let before := text.toList.take position
      let shown : Place := ⟨1 + (placeAfter before).row, (placeAfter before).column⟩
      let caret : Place := ⟨1 + (rows text.toList).length, position⟩
      rows failure.rendered.toList = failure.message.toList ::
        (rows text.toList ++ [List.replicate position ' ' ++ ['^']]) ∧
      charAt? text.toList (placeAfter before) = some c ∧
      charAt? failure.rendered.toList shown = some c ∧
      charAt? failure.rendered.toList caret = some '^' ∧
      caret.row = shown.row + 1 + (text.toList.drop position).count '\n' ∧
      caret.column = shown.column + (before.rdropWhile (· != '\n')).length ∧
      (caret.IsBelow shown ↔ '\n' ∉ text.toList) := by
  obtain ⟨c, position, hrun, rfl⟩ := lex_eq_failure_iff.mp h
  obtain ⟨ds, c, es, htext, -, hblank, hstop⟩ := Lexer.run_eq_error_iff_exists.mp hrun
  cases hstop
  have hc : c ≠ '\n' := by
    rintro rfl
    exact absurd hblank (by decide)
  have htake : text.toList.take ds.length = ds := by rw [htext, List.take_left]
  have hdrop : text.toList.drop ds.length = c :: es := by rw [htext, List.drop_left]
  refine ⟨ds.length, c, rfl, by simp [htext], ?_⟩
  rw [htake, hdrop]
  intro before shown caret
  have hrow : caret.row = shown.row + 1 + (c :: es).count '\n' := by
    change 1 + (rows text.toList).length = 1 + ds.count '\n' + 1 + _
    rw [length_rows, htext, List.count_append]
    omega
  have hcolumn : caret.column = shown.column + (ds.rdropWhile (· != '\n')).length :=
    length_eq_column_placeAfter ds
  refine ⟨Failure.rows_rendered_lex .., htext ▸ charAt?_placeAfter hc ds es,
    Failure.charAt?_rendered_shown hc htext _, Failure.charAt?_rendered_caret .., hrow, hcolumn, ?_⟩
  rw [Place.IsBelow, hrow, hcolumn, htext, List.mem_append, not_or,
    ← length_rdropWhile_eq_zero_iff, ← List.count_eq_zero (l := c :: es)]
  omega

/-- In one row the caret is where it belongs, also behind other blanks. -/
theorem caret_isBelow_iff_one_row :
    let failure := Failure.lex '%' "3\t% 2" 2
    lex "3\t% 2" = .error (.failure failure) ∧
      rows failure.rendered.toList =
        ["Unexpected character '%'".toList, "3\t% 2".toList, "  ^".toList] ∧
      (⟨2, 2⟩ : Place).IsBelow ⟨1, 2⟩ := by
  have h : lex "3\t% 2" = .error (.failure (.lex '%' "3\t% 2" 2)) := by decide +kernel
  obtain ⟨_, _, ⟨⟩, -, hrows, -, -, -, -, -, hbelow⟩ := caret_isBelow_iff h
  exact ⟨h, hrows.trans (by decide +kernel), hbelow.mpr (by decide)⟩

/-- The caret for a character at the start of the second row. -/
theorem caret_not_isBelow_second_row :
    let failure := Failure.lex '%' "1\n%" 2
    lex "1\n%" = .error (.failure failure) ∧
      rows failure.rendered.toList =
        ["Unexpected character '%'".toList, "1".toList, "%".toList, "  ^".toList] ∧
      placeAfter ("1\n%".toList.take 2) = ⟨1, 0⟩ ∧
      charAt? failure.rendered.toList ⟨2, 0⟩ = some '%' ∧
      charAt? failure.rendered.toList ⟨3, 2⟩ = some '^' ∧
      ¬(⟨3, 2⟩ : Place).IsBelow ⟨2, 0⟩ := by
  decide +kernel

end Token

end UnitCalc
