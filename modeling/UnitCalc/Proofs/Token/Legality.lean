import Mathlib.Data.List.DropRight
import UnitCalc.Failure.Message
import UnitCalc.Proofs.Token.Lossless

/-!
# Where reading a text fails

Reading stops at the first character that offends, and whether a character offends is said here
without a lexeme: by the characters before it, blanks left out. A character is *illegal* if it
belongs to no token, or if it is a point that does not continue a whole number. It is *overflowing*
if it continues a number out of the range of the literals.

The bridge to the lexer is what a reading holds when it gets to a character: `Held.Reads.cases` says
that the open lexeme is a number exactly if the text before ends in one, and which one it is. From
there on the two descriptions agree for one character (`feed_eq_illegal_iff` and
`feed_eq_overflowing_iff`), for one step, which adds the position (`step_eq_error_iff`), and for a
whole text, since a run fails where its first step does.
-/

namespace UnitCalc

variable {c : Char} {cs ds before : List Char} {l : Lexeme} {t : Token} {ts : List Token}

namespace Lexer

/-! ## Offending characters -/

/-- A point may follow: the characters end in digits that are not preceded by a point. -/
def TakesPoint (before : List Char) : Prop :=
  before.rtakeWhile Char.isDigit ≠ [] ∧ (before.rdropWhile Char.isDigit).getLast? ≠ some '.'

/-- The character belongs to no token, or is a point in the wrong place. -/
def IsIllegal (before : List Char) (c : Char) : Prop :=
  (isNameChar c = false ∧ c.isDigit = false ∧ c ∉ ['+', '-', '*', '/', '(', ')', '.']) ∨
    (c = '.' ∧ ¬TakesPoint before)

/-- The character is a point after a whole number that is too large, or the 309th digit after a
point. -/
def IsOverflowing (before : List Char) (c : Char) : Prop :=
  (c = '.' ∧ TakesPoint before ∧
      Binary64.overflowThreshold ≤ Literal.whole (before.rtakeWhile Char.isDigit)) ∨
    (c.isDigit = true ∧ (before.rtakeWhile Char.isDigit).length = 308 ∧
      ∃ earlier, before.rdropWhile Char.isDigit = earlier ++ ['.'] ∧ TakesPoint earlier)

/-- The character after `ds` is illegal or overflowing. -/
def Offends (ds : List Char) (c : Char) : Prop :=
  Text.isBlank c = false ∧
    (IsIllegal (Text.withoutBlanks ds) c ∨ IsOverflowing (Text.withoutBlanks ds) c)

/-- No character of the list offends. -/
def IsInoffensive (cs : List Char) : Prop := ∀ ds c es, cs = ds ++ c :: es → ¬Offends ds c

/-- The character after `ds` offends, and none before it does. -/
def IsFirstOffence (cs ds : List Char) (c : Char) : Prop :=
  (∃ es, cs = ds ++ c :: es) ∧ Offends ds c ∧ IsInoffensive ds

/-! ## Digits at the end -/

theorem rtakeWhile_isDigit_eq_nil (h : ∀ c ∈ cs.getLast?, c.isDigit = false) :
    cs.rtakeWhile Char.isDigit = [] := by
  rw [List.rtakeWhile_eq_nil_iff]
  intro hne
  rw [h _ (List.getLast?_eq_some_getLast hne)]
  exact Bool.false_ne_true

/-- Digits after something else are cut off. -/
theorem rtakeWhile_isDigit_append (hcs : ∀ c ∈ cs.getLast?, c.isDigit = false)
    (hds : ∀ c ∈ ds, c.isDigit = true) :
    (cs ++ ds).rtakeWhile Char.isDigit = ds ∧ (cs ++ ds).rdropWhile Char.isDigit = cs := by
  have htake : (cs ++ ds).rtakeWhile Char.isDigit = ds := by
    induction ds using List.reverseRecOn with
    | nil =>
      rw [List.append_nil]
      exact rtakeWhile_isDigit_eq_nil hcs
    | append_singleton ds d ih =>
      obtain ⟨hds, hd⟩ := List.forall_mem_append.mp hds
      rw [← List.append_assoc, List.rtakeWhile_concat_pos _ _ _ (hd d (by simp)), ih hds]
  have happend := List.rdropWhile_append_rtakeWhile (p := Char.isDigit) (l := cs ++ ds)
  rw [htake] at happend
  exact ⟨htake, List.append_cancel_right happend⟩

theorem rtakeWhile_isDigit_decimal (cs whole : List Char) {fraction : List Char}
    (hf : ∀ c ∈ fraction, c.isDigit = true) :
    (cs ++ (whole ++ '.' :: fraction)).rtakeWhile Char.isDigit = fraction ∧
      (cs ++ (whole ++ '.' :: fraction)).rdropWhile Char.isDigit = cs ++ whole ++ ['.'] := by
  have hsplit : cs ++ (whole ++ '.' :: fraction) = (cs ++ whole ++ ['.']) ++ fraction := by simp
  rw [hsplit]
  refine rtakeWhile_isDigit_append ?_ hf
  rw [List.getLast?_concat]
  rintro _ ⟨rfl⟩
  rfl

/-- A whole number takes a point. -/
theorem takesPoint_append (hcs : ∀ c ∈ cs.getLast?, c.isDigit = false ∧ c ≠ '.')
    (hds : Token.IsDigits ds) : TakesPoint (cs ++ ds) := by
  obtain ⟨htake, hdrop⟩ := rtakeWhile_isDigit_append (fun c hc ↦ (hcs c hc).1) hds.2
  rw [TakesPoint, htake, hdrop]
  exact ⟨hds.1, fun hpoint ↦ (hcs '.' hpoint).2 rfl⟩

/-- A number with a point takes no second one. -/
theorem not_takesPoint_decimal (cs whole : List Char) {fraction : List Char}
    (hf : ∀ c ∈ fraction, c.isDigit = true) : ¬TakesPoint (cs ++ (whole ++ '.' :: fraction)) := by
  obtain ⟨-, hdrop⟩ := rtakeWhile_isDigit_decimal cs whole hf
  rw [TakesPoint, hdrop, List.getLast?_concat]
  exact fun hp ↦ hp.2 rfl

theorem isOverflowing_whole_iff (hcs : ∀ c ∈ cs.getLast?, c.isDigit = false ∧ c ≠ '.')
    (hds : Token.IsDigits ds) : IsOverflowing (cs ++ ds) c ↔ Lexeme.Overflows ds c := by
  obtain ⟨htake, hdrop⟩ := rtakeWhile_isDigit_append (fun c hc ↦ (hcs c hc).1) hds.2
  rw [Lexeme.overflows_whole_iff hds, IsOverflowing, htake, hdrop]
  constructor
  · rintro (⟨rfl, -, hle⟩ | ⟨-, -, earlier, rfl, -⟩)
    · exact ⟨hle, rfl⟩
    · exact absurd rfl (hcs '.' (by simp)).2
  · rintro ⟨hle, rfl⟩
    exact .inl ⟨rfl, takesPoint_append hcs hds, hle⟩

theorem isOverflowing_decimal_iff {whole fraction : List Char}
    (hcs : ∀ c ∈ cs.getLast?, c.isDigit = false ∧ c ≠ '.') (hw : Token.IsDigits whole)
    (hf : ∀ c ∈ fraction, c.isDigit = true) : IsOverflowing (cs ++ (whole ++ '.' :: fraction)) c ↔
      Lexeme.Overflows (whole ++ '.' :: fraction) c := by
  obtain ⟨htake, hdrop⟩ := rtakeWhile_isDigit_decimal cs whole hf
  rw [IsOverflowing, htake, hdrop]
  constructor
  · rintro (⟨-, hp, -⟩ | ⟨hc, hlen, -⟩)
    · exact absurd hp (not_takesPoint_decimal cs whole hf)
    · exact (Lexeme.overflows_decimal_iff hw hc).mpr hlen
  · intro ho
    have hc : c.isDigit = true := by
      rcases ho with ⟨hd, -⟩ | ⟨-, -, -, -, -, hc⟩
      · exact absurd hd (Lexeme.not_isDigits_point whole fraction)
      · exact hc
    exact .inr ⟨hc, (Lexeme.overflows_decimal_iff hw hc).mp ho, _, rfl, takesPoint_append hcs hw⟩

end Lexer

/-! ## What the text before a character ends in -/

namespace Token

/-- Only numbers end in a digit or a point. -/
theorem IsCanonical.getLast?_chars (h : IsCanonical t) (ht : t.isNumber = false) :
    ∀ c ∈ t.chars.getLast?, c.isDigit = false ∧ c ≠ '.' := by
  intro c hc
  cases h with
  | name hne hall =>
    rw [chars, text, String.toList_ofList] at hc
    have hname := hall c (List.mem_of_getLast? hc)
    exact ⟨isDigit_of_isNameChar hname, ne_point_of_isNameChar hname⟩
  | integer | decimal => cases ht
  | _ =>
    cases hc
    decide

theorem IsCanonical.chars_ne_nil (h : IsCanonical t) : t.chars ≠ [] := by
  rcases h.lexeme_or_sign with ⟨l, hl, -⟩ | ⟨c, hc, -⟩
  · exact hl.ne_nil
  · rw [hc]
    exact List.cons_ne_nil _ _

/-- A text whose last token is no number does not end in a digit or a point. -/
theorem Spell.getLast?_chars (h : Spell ts cs) (hts : ∀ t ∈ ts.getLast?, t.isNumber = false) :
    ∀ c ∈ cs.getLast?, c.isDigit = false ∧ c ≠ '.' := by
  obtain ⟨hcanon, -, rfl⟩ := h
  rcases List.eq_nil_or_concat ts with rfl | ⟨ts, t, rfl⟩
  · rintro c ⟨⟩
  · rw [List.concat_eq_append] at hcanon hts ⊢
    have ht : IsCanonical t := hcanon t (by simp)
    rw [List.flatMap_append, List.flatMap_singleton,
      List.getLast?_append_of_ne_nil _ ht.chars_ne_nil]
    exact ht.getLast?_chars (hts t (by simp))

end Token

namespace Lexer

theorem start?_eq_none_iff : start? c = none ↔
    isNameChar c = false ∧ c.isDigit = false ∧ c ∉ ['+', '-', '*', '/', '(', ')'] := by
  constructor
  · intro h
    have hstart : ∀ d ∈ ['+', '-', '*', '/', '(', ')'], (start? d).isSome = true :=
      List.all_eq_true.mp (by decide)
    have hnone : (start? c).isSome = false := by rw [h]; rfl
    refine ⟨?_, ?_, fun hc ↦ Bool.false_ne_true (hnone.symm.trans (hstart c hc))⟩
    all_goals unfold start? at h
    · by_contra hname
      rw [if_pos (Bool.eq_true_of_not_eq_false hname)] at h
      cases h
    · by_contra hdigit
      rw [if_pos (Bool.eq_true_of_not_eq_false hdigit)] at h
      split at h <;> cases h
  · rintro ⟨hname, hdigit, hsign⟩
    simp only [List.mem_cons, List.not_mem_nil, or_false, not_or] at hsign
    simp [start?, hname, hdigit, hsign]

namespace Held

variable {h : Held}

/-- Either the text read so far does not end in a digit and no number is open, or it ends in the
characters of the open number, and what is before them ends neither in a digit nor in a point. -/
theorem Reads.cases (hr : Reads before h) :
    (before.rtakeWhile Char.isDigit = [] ∧
      ∀ l, h.pending = some l → l.close.isNumber = false) ∨
    ∃ l cs ds, h.pending = some l ∧ l.Spells ds ∧ l.close.isNumber = true ∧ before = cs ++ ds ∧
      ∀ c ∈ cs.getLast?, c.isDigit = false ∧ c ≠ '.' := by
  by_cases hnumber : ∃ l, h.pending = some l ∧ l.close.isNumber = true
  · obtain ⟨l, hl, hnumber⟩ := hnumber
    obtain ⟨ts, pending⟩ := h
    cases hl
    obtain ⟨ds, hds⟩ := hr.pending l rfl
    obtain ⟨hcanon, hsep, hchars⟩ := hr.spell
    rw [closed_some, List.reverse_cons] at hcanon hsep hchars
    rw [List.flatMap_append, List.flatMap_singleton, hds.chars_close] at hchars
    obtain ⟨hsep, hapart⟩ := Token.separated_concat_iff.mp hsep
    have hspell : Token.Spell ts.reverse (ts.reverse.flatMap Token.chars) :=
      ⟨(List.forall_mem_append.mp hcanon).1, hsep, rfl⟩
    refine .inr ⟨l, _, ds, rfl, hds, hnumber, hchars.symm, hspell.getLast?_chars fun t ht ↦ ?_⟩
    exact Bool.eq_false_iff.mpr fun htn ↦ (hapart t ht).2 ⟨htn, hnumber⟩
  · have hpending : ∀ l, h.pending = some l → l.close.isNumber = false := fun l hl ↦
      Bool.eq_false_iff.mpr fun hln ↦ hnumber ⟨l, hl, hln⟩
    refine .inl ⟨rtakeWhile_isDigit_eq_nil fun c hc ↦ (hr.spell.getLast?_chars ?_ c hc).1, hpending⟩
    rw [List.getLast?_reverse]
    intro t ht
    obtain ⟨ts, pending⟩ := h
    cases pending with
    | none => exact (hr.sign rfl t ht).2
    | some l =>
      cases ht
      exact hpending l rfl

/-- A point may follow exactly if the open lexeme takes one. -/
theorem Reads.takesPoint_iff (hr : Reads before h) :
    TakesPoint before ↔ ∃ l, h.pending = some l ∧ l.accepts '.' = true := by
  rcases hr.cases with ⟨hnil, hpending⟩ | ⟨l, cs, ds, hl, hds, hnumber, rfl, hcs⟩
  · refine iff_of_false (fun hp ↦ hp.1 hnil) ?_
    rintro ⟨l, hl, ha⟩
    have hname := hpending l hl
    cases l with
    | name => cases ha
    | whole | decimal => cases hname
  · cases hds with
    | name => cases hnumber
    | whole hd => exact iff_of_true (takesPoint_append hcs hd) ⟨_, hl, rfl⟩
    | decimal hw hf =>
      refine iff_of_false (not_takesPoint_decimal cs _ hf) ?_
      rintro ⟨l, hl', ha⟩
      rw [hl] at hl'
      cases hl'
      cases ha

/-! ## One character -/

/-- A character stops the reading where it continues nothing and starts nothing. -/
theorem Reads.feed_eq_error_none_iff (hr : Reads before h) : h.feed c = .error none ↔
    start? c = none ∧ ∀ l, h.pending = some l → l.accepts c = false := by
  by_cases hfit : ∀ l, h.pending = some l → l.accepts c = false
  · rw [feed_of_fit hfit, Held.start]
    cases start? c with
    | none => exact iff_of_true rfl ⟨rfl, hfit⟩
    | some st =>
      refine iff_of_false ?_ (by rintro ⟨⟨⟩, -⟩)
      cases st <;> rintro ⟨⟩
  · refine iff_of_false (fun hf ↦ ?_) fun hs ↦ hfit hs.2
    push Not at hfit
    obtain ⟨l, hl, ha⟩ := hfit
    obtain ⟨ts, pending⟩ := h
    cases hl
    obtain ⟨ds, hds⟩ := hr.pending l rfl
    rcases hds.extend (Bool.eq_true_of_not_eq_false ha) with ⟨l', hext, -⟩ | ⟨hext, -⟩
    · rw [feed_of_extend hext] at hf
      cases hf
    · rw [feed_of_limit hext] at hf
      cases hf

theorem Reads.feed_eq_illegal_iff (hr : Reads before h) :
    h.feed c = .error none ↔ IsIllegal before c := by
  rw [hr.feed_eq_error_none_iff, start?_eq_none_iff]
  constructor
  · rintro ⟨⟨hname, hdigit, hsign⟩, hfit⟩
    by_cases hc : c = '.'
    · subst hc
      refine .inr ⟨rfl, fun hp ↦ ?_⟩
      obtain ⟨l, hl, ha⟩ := hr.takesPoint_iff.mp hp
      rw [hfit l hl] at ha
      cases ha
    · refine .inl ⟨hname, hdigit, ?_⟩
      simpa [hc] using hsign
  · rintro (⟨hname, hdigit, hsign⟩ | ⟨rfl, hp⟩)
    · have hsign' : c ∉ ['+', '-', '*', '/', '(', ')'] ∧ c ≠ '.' := by
        simpa [and_assoc] using hsign
      refine ⟨⟨hname, hdigit, hsign'.1⟩, fun l _ ↦ ?_⟩
      cases l <;> simp [Lexeme.accepts, hname, hdigit, hsign'.2]
    · refine ⟨⟨rfl, rfl, by decide⟩, fun l hl ↦ ?_⟩
      exact Bool.eq_false_iff.mpr fun ha ↦ hp (hr.takesPoint_iff.mpr ⟨l, hl, ha⟩)

theorem Reads.feed_eq_overflowing_iff {limit : Limit} (hr : Reads before h) :
    h.feed c = .error (some limit) ↔ limit = .integerTooLarge ∧ IsOverflowing before c := by
  rw [hr.feed_eq_limit_iff]
  refine and_congr_right fun _ ↦ ?_
  rcases hr.cases with ⟨hnil, hpending⟩ | ⟨l, cs, ds, hl, hds, hnumber, rfl, hcs⟩
  · refine iff_of_false ?_ ?_
    · rintro ⟨l, hl, ho⟩
      obtain ⟨ds, hds⟩ := hr.pending l hl
      rw [hds.chars_close] at ho
      have hnumber := hpending l hl
      have hext := hds.extend?_of_overflows ho
      cases l with
      | name => cases hext
      | whole | decimal => cases hnumber
    · rintro (⟨-, hp, -⟩ | ⟨-, hlen, -⟩)
      · exact hp.1 hnil
      · rw [hnil] at hlen
        cases hlen
  · have hopen : (∃ l, h.pending = some l ∧ Lexeme.Overflows l.close.chars c) ↔
        Lexeme.Overflows ds c := by
      rw [hl]
      simp [hds.chars_close]
    rw [hopen]
    cases hds with
    | name => cases hnumber
    | whole hd => exact (isOverflowing_whole_iff hcs hd).symm
    | decimal hw hf => exact (isOverflowing_decimal_iff hcs hw hf).symm

end Held

/-! ## One step -/

variable {s : State} {stop : Stop}

/-- What a reading holds after the characters `ds` is a reading of those that are not blank. -/
theorem reads_of_run (h : run {} ds = .ok s) :
    s.held.Reads (Text.withoutBlanks ds) ∧ s.position = ds.length := by
  obtain ⟨hfeed, hposition⟩ := run_eq_ok_iff.mp h
  refine ⟨?_, hposition.trans (Nat.zero_add _)⟩
  have := Held.Reads.initial.feedAll hfeed
  rwa [List.nil_append] at this

/-- The reasons for which a step stops the reading, with the position of the character. -/
inductive StopsAt (ds : List Char) (c : Char) : Stop → Prop where
  | illegal : IsIllegal (Text.withoutBlanks ds) c → StopsAt ds c (.character c ds.length)
  | overflowing : IsOverflowing (Text.withoutBlanks ds) c →
      StopsAt ds c (.limit .integerTooLarge)

theorem step_eq_error_iff (h : run {} ds = .ok s) :
    step s c = .error stop ↔ Text.isBlank c = false ∧ StopsAt ds c stop := by
  obtain ⟨hr, hposition⟩ := reads_of_run h
  by_cases hc : Text.isBlank c = true
  · rw [step_of_isBlank hc, hc]
    exact iff_of_false nofun nofun
  rw [Bool.not_eq_true] at hc
  rw [step_eq hc, hposition, and_iff_right hc]
  constructor
  · intro hstop
    match hf : s.held.feed c with
    | .ok g =>
      rw [hf] at hstop
      cases hstop
    | .error none =>
      rw [hf] at hstop
      cases hstop
      exact .illegal (hr.feed_eq_illegal_iff.mp hf)
    | .error (some limit) =>
      rw [hf] at hstop
      cases hstop
      obtain ⟨rfl, ho⟩ := hr.feed_eq_overflowing_iff.mp hf
      exact .overflowing ho
  · rintro (hillegal | ho)
    · rw [hr.feed_eq_illegal_iff.mpr hillegal]
      rfl
    · rw [hr.feed_eq_overflowing_iff.mpr ⟨rfl, ho⟩]
      rfl

theorem offends_iff : Offends ds c ↔ Text.isBlank c = false ∧ ∃ stop, StopsAt ds c stop := by
  refine and_congr_right fun _ ↦ ⟨?_, ?_⟩
  · rintro (hillegal | ho)
    · exact ⟨_, .illegal hillegal⟩
    · exact ⟨_, .overflowing ho⟩
  · rintro ⟨_, hillegal | ho⟩
    · exact .inl hillegal
    · exact .inr ho

/-! ## A whole text -/

/-- A reading fails in the step that reads an offending character. -/
theorem run_eq_error_iff_exists : run {} cs = .error stop ↔
    ∃ ds c es, cs = ds ++ c :: es ∧ (∃ s, run {} ds = .ok s) ∧ Text.isBlank c = false ∧
      StopsAt ds c stop := by
  rw [run, foldlM_eq_error_iff]
  constructor
  · rintro ⟨ds, c, es, s, rfl, hs, hstop⟩
    exact ⟨ds, c, es, rfl, ⟨s, hs⟩, (step_eq_error_iff hs).mp hstop⟩
  · rintro ⟨ds, c, es, rfl, ⟨s, hs⟩, hstop⟩
    exact ⟨ds, c, es, s, rfl, hs, (step_eq_error_iff hs).mpr hstop⟩

/-- A text is read to its end exactly if no character offends. -/
theorem exists_run_eq_ok_iff : (∃ s, run {} cs = .ok s) ↔ IsInoffensive cs := by
  constructor
  · rintro ⟨s, hs⟩ ds c es rfl hoffends
    obtain ⟨hc, stop, hstop⟩ := offends_iff.mp hoffends
    rw [run_append] at hs
    obtain ⟨s', hs', -⟩ := bind_eq_ok_iff.mp hs
    have herror : run {} (ds ++ c :: es) = .error stop :=
      run_eq_error_iff_exists.mpr ⟨ds, c, es, rfl, ⟨s', hs'⟩, hc, hstop⟩
    rw [run_append, hs] at herror
    cases herror
  · intro hcs
    match hrun : run {} cs with
    | .ok s => exact ⟨s, rfl⟩
    | .error stop =>
      obtain ⟨ds, c, es, rfl, -, hc, hstop⟩ := run_eq_error_iff_exists.mp hrun
      exact absurd (offends_iff.mpr ⟨hc, stop, hstop⟩) (hcs ds c es rfl)

theorem run_eq_error_iff : run {} cs = .error stop ↔
    ∃ ds c, IsFirstOffence cs ds c ∧ StopsAt ds c stop := by
  rw [run_eq_error_iff_exists]
  constructor
  · rintro ⟨ds, c, es, rfl, hds, hc, hstop⟩
    have hoffends : Offends ds c := offends_iff.mpr ⟨hc, stop, hstop⟩
    exact ⟨ds, c, ⟨⟨es, rfl⟩, hoffends, exists_run_eq_ok_iff.mp hds⟩, hstop⟩
  · rintro ⟨ds, c, ⟨⟨es, rfl⟩, ⟨hc, -⟩, hds⟩, hstop⟩
    exact ⟨ds, c, es, rfl, exists_run_eq_ok_iff.mpr hds, hc, hstop⟩

end Lexer

namespace Token

open Lexer

variable {text : String}

theorem lex_eq_failure_iff {failure : Failure} : lex text = .error (.failure failure) ↔
    ∃ c position, run {} text.toList = .error (.character c position) ∧
      failure = .lex c text position := by
  rw [lex, ofChars]
  cases run {} text.toList with
  | ok s => exact iff_of_false (by rintro ⟨⟩) (by rintro ⟨_, _, ⟨⟩, -⟩)
  | error stop =>
    cases stop with
    | limit limit => exact iff_of_false (by rintro ⟨⟩) (by rintro ⟨_, _, ⟨⟩, -⟩)
    | character c position =>
      constructor
      · rintro ⟨⟩
        exact ⟨c, position, rfl, rfl⟩
      · rintro ⟨_, _, ⟨⟩, rfl⟩
        rfl

theorem exists_lex_eq_ok_iff : (∃ ts, lex text = .ok ts) ↔ ∃ s, run {} text.toList = .ok s := by
  rw [lex, ofChars]
  cases run {} text.toList with
  | ok s => exact iff_of_true ⟨_, rfl⟩ ⟨_, rfl⟩
  | error stop =>
    cases stop <;> exact iff_of_false (by rintro ⟨_, ⟨⟩⟩) (by rintro ⟨_, ⟨⟩⟩)

/-- A text is read to its end exactly if no character offends. Otherwise the first offending
character decides: an illegal one is reported, with the number of characters before it, and an
overflowing one exceeds the range of the literals. -/
theorem lex_firstOffence (text : String) :
    ((∃ ts, lex text = .ok ts) ↔ IsInoffensive text.toList) ∧
    (∀ failure, lex text = .error (.failure failure) ↔
      ∃ ds c, IsFirstOffence text.toList ds c ∧ IsIllegal (Text.withoutBlanks ds) c ∧
        failure = .lex c text ds.length ∧ failure.position? = some ds.length ∧
        failure.message = "Unexpected character " ++ Text.quoted (String.singleton c)) ∧
    ∀ limit, lex text = .error (.limit limit) ↔ limit = .integerTooLarge ∧
      ∃ ds c, IsFirstOffence text.toList ds c ∧ IsOverflowing (Text.withoutBlanks ds) c := by
  refine ⟨exists_lex_eq_ok_iff.trans exists_run_eq_ok_iff, fun failure ↦ ?_, fun limit ↦ ?_⟩
  · simp only [lex_eq_failure_iff, run_eq_error_iff]
    constructor
    · rintro ⟨c, _, ⟨ds, _, hfirst, hillegal | -⟩, rfl⟩
      exact ⟨ds, c, hfirst, hillegal, rfl, rfl, Failure.message_lex ..⟩
    · rintro ⟨ds, c, hfirst, hillegal, rfl, -⟩
      exact ⟨c, ds.length, ⟨ds, c, hfirst, .illegal hillegal⟩, rfl⟩
  · rw [lex_eq_limit_iff_run, run_eq_error_iff]
    constructor
    · rintro ⟨ds, c, hfirst, - | ho⟩
      exact ⟨rfl, ds, c, hfirst, ho⟩
    · rintro ⟨rfl, ds, c, hfirst, ho⟩
      exact ⟨ds, c, hfirst, .overflowing ho⟩

/-- The second point of a number is in the wrong place. Blanks count for its position only. -/
example : lex "1. 2 .3" = .error (.failure (.lex '.' "1. 2 .3" 5)) := by decide +kernel

end Token

end UnitCalc
