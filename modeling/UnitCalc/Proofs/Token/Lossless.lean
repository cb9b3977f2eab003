import UnitCalc.Proofs.Token.Reading

/-!
# What the lexer accepts

A text yields the tokens `ts` exactly if `ts` are canonical, no two names and no two numbers follow
each other, and their texts in order are the text without its blanks: `lex_eq_ok_iff`. For the
converse of the invariant of `UnitCalc.Proofs.Token.Reading` we read canonical tokens one after the
other; the first character of each does not continue the lexeme before it. In the same way the texts
at which reading fails with a number out of range are those of `lex_eq_limit_iff`.
-/

namespace UnitCalc

variable {c : Char} {cs ds : List Char} {l p : Lexeme} {t u : Token} {ts : List Token}

/-! ## Complete lexemes -/

namespace Lexeme

theorem Spells.isBlank_eq_false (h : l.Spells cs) (hc : c ∈ cs) : Text.isBlank c = false := by
  have hdigit : c.isDigit = true → Text.isBlank c = false := fun hd ↦ by
    have := toNat_of_isDigit hd
    exact Text.isBlank_eq_false (by omega) (by omega)
  cases h with
  | name _ hall =>
    have := toNat_of_isNameChar (hall c hc)
    exact Text.isBlank_eq_false (by omega) (by omega)
  | whole hd => exact hdigit (hd.2 c hc)
  | decimal hw hf =>
    rcases List.mem_append.mp hc with hc | hc
    · exact hdigit (hw.2 c hc)
    · rcases List.mem_cons.mp hc with rfl | hc
      · decide
      · exact hdigit (hf c hc)

/-- The first character of a lexeme starts it. -/
theorem Spells.start? (h : l.Spells [c]) : Lexer.start? c = some (.lexeme l) := by
  generalize hcs : [c] = cs at h
  cases h with
  | name _ hall =>
    subst hcs
    rw [Lexer.start?, if_pos (hall c (by simp))]
    rfl
  | whole hd =>
    subst hcs
    have hc : c.isDigit = true := hd.2 c (by simp)
    rw [Lexer.start?, isNameChar_of_isDigit hc, if_neg Bool.false_ne_true, if_pos hc,
      Literal.whole_singleton]
    rfl
  | @decimal whole fraction hw =>
    have hlen := congrArg List.length hcs
    have hpos : 0 < whole.length := List.length_pos_of_ne_nil hw.1
    simp only [List.length_append, List.length_cons, List.length_nil] at hlen
    omega

theorem not_isSign_close (l : Lexeme) : ¬l.close.IsSign := by
  cases l with
  | name => exact fun h ↦ Bool.noConfusion h.1
  | whole | decimal => exact fun h ↦ Bool.noConfusion h.2

/-- The first character of a lexeme does not continue a lexeme that it may follow. -/
theorem Spells.not_accepts (h : l.Spells cs) (hap : Token.Apart p.close l.close) :
    ∀ c ∈ cs.head?, p.accepts c = false := by
  intro c hc
  have hname : l.close.isName = isNameChar c := by rw [h.isName_close, hc, Option.any_some]
  have hnumber : l.close.isNumber = c.isDigit := by rw [h.isNumber_close, hc, Option.any_some]
  have hpoint : c ≠ '.' := by
    rintro rfl
    cases l with
    | name => cases hname
    | whole | decimal => cases hnumber
  by_cases hp : p.close.isName = true
  · rw [accepts_of_isName hp, ← hname]
    exact Bool.eq_false_iff.mpr fun hl ↦ hap.1 ⟨hp, hl⟩
  · have hp : p.close.isNumber = true := by
      cases p with
      | name => exact absurd rfl hp
      | whole | decimal => rfl
    rw [accepts_of_isNumber hp hpoint, ← hnumber]
    exact Bool.eq_false_iff.mpr fun hl ↦ hap.2 ⟨hp, hl⟩

/-- A lexeme that overflows at a character is not extended by it. -/
theorem Spells.extend?_of_overflows (h : l.Spells cs) (ho : Overflows cs c) :
    l.extend? c = .error .integerTooLarge := by
  have ha : l.accepts c = true := by
    cases h with
    | name hne hall =>
      rcases ho with ⟨hd, -⟩ | ⟨whole, fraction, -, rfl, -⟩
      · obtain ⟨d, hd'⟩ := List.exists_mem_of_ne_nil cs hne
        exact absurd (hd.2 d hd') (Bool.eq_false_iff.mp (isDigit_of_isNameChar (hall d hd')))
      · exact absurd rfl (ne_point_of_isNameChar (hall '.' (by simp)))
    | whole hd =>
      rw [overflows_whole_iff hd] at ho
      simp [accepts, ho.2]
    | decimal hw =>
      rcases ho with ⟨hd, -⟩ | ⟨-, -, -, -, -, hc⟩
      · exact absurd hd (not_isDigits_point _ _)
      · exact hc
  rcases h.extend ha with ⟨-, -, -, hno⟩ | ⟨hext, -⟩
  · exact absurd ho hno
  · exact hext

end Lexeme

namespace Token

/-! ## Canonical tokens -/

/-- A canonical token is a complete lexeme or a character that continues no lexeme. -/
theorem IsCanonical.lexeme_or_sign (h : IsCanonical t) :
    (∃ l : Lexeme, l.Spells t.chars ∧ l.close = t) ∨
      ∃ c, t.chars = [c] ∧ Text.isBlank c = false ∧ Lexer.start? c = some (.token t) ∧
        ∀ l : Lexeme, l.accepts c = false := by
  have hlexeme {l : Lexeme} {cs : List Char} (hl : l.Spells cs) (ht : l.close = t) :
      ∃ l : Lexeme, l.Spells t.chars ∧ l.close = t := by
    rw [← ht]
    exact ⟨l, by rwa [hl.chars_close], rfl⟩
  cases h with
  | name hne hall =>
    exact .inl (hlexeme (.name hne hall) (by rw [Lexeme.close, List.reverse_reverse]))
  | integer hd =>
    exact .inl (hlexeme (.whole hd) (by rw [Lexeme.close, List.reverse_reverse]))
  | decimal hw hf hlt hlen =>
    exact .inl (hlexeme (.decimal hw hf hlt hlen) (by rw [Lexeme.close, List.reverse_reverse]))
  | _ => exact .inr ⟨_, rfl, by decide, by decide, fun l ↦ by cases l <;> rfl⟩

theorem IsCanonical.isBlank_eq_false (h : IsCanonical t) (hc : c ∈ t.chars) :
    Text.isBlank c = false := by
  rcases h.lexeme_or_sign with ⟨l, hl, -⟩ | ⟨d, hd, hblank, -⟩
  · exact hl.isBlank_eq_false hc
  · rw [hd, List.mem_singleton] at hc
    rwa [hc]

theorem IsCanonical.isWritable (h : IsCanonical t) : t.isWritable = true := by
  cases h with
  | integer hd => simp [Token.isWritable, hd.1]
  | _ => rfl

/-- Only numbers overflow. -/
theorem IsCanonical.spells_of_overflows (h : IsCanonical t) (ho : Lexeme.Overflows t.chars c) :
    ∃ l : Lexeme, l.Spells t.chars ∧ l.close = t := by
  rcases h.lexeme_or_sign with hl | ⟨d, hd, -, -, hno⟩
  · exact hl
  · rw [hd] at ho
    -- a sign is no digit, and too short for a number with a point
    rcases ho with ⟨hdigits, -⟩ | ⟨whole, fraction, -, heq, hlen, -⟩
    · have hdigit : d.isDigit = true := hdigits.2 d (by simp)
      have := hno (.whole 0 [])
      rw [Lexeme.accepts, hdigit, Bool.true_or] at this
      cases this
    · have := congrArg List.length heq
      simp only [List.length_append, List.length_cons, List.length_nil] at this
      omega

end Token

/-! ## Reading canonical tokens -/

namespace Lexer

open Token (IsCanonical Separated Apart)

variable {h g : Held}

namespace Held

theorem feedAll_singleton (h : Held) (c : Char) : h.feedAll [c] = h.feed c := by
  rw [feedAll_cons]
  cases h.feed c <;> rfl

/-- The characters of a lexeme that do not continue the open one are read as the lexeme. -/
theorem feedAll_of_spells (hl : l.Spells cs)
    (hfit : ∀ p, h.pending = some p → ∀ c ∈ cs.head?, p.accepts c = false) :
    h.feedAll cs = .ok ⟨h.closed, some l⟩ := by
  -- from the front the lexeme is not known yet, so we take the last character away
  induction cs using List.reverseRecOn generalizing l with
  | nil => exact absurd rfl hl.ne_nil
  | append_singleton cs c ih =>
    rw [feedAll_append]
    by_cases hne : cs = []
    · subst hne
      have hstart := hl.start?
      rw [feedAll_nil]
      refine (feedAll_singleton h c).trans ?_
      rw [feed_of_fit fun p hp ↦ hfit p hp c rfl, start, hstart]
    · obtain ⟨l', hl', hext⟩ := hl.exists_extend hne
      rw [List.head?_append_of_ne_nil cs hne] at hfit
      rw [ih hl' hfit]
      exact (feedAll_singleton _ c).trans (feed_of_extend hext)

/-- A canonical token is read after any token that it may follow. -/
theorem exists_feedAll_token (ht : IsCanonical t) (hap : ∀ u ∈ h.closed.head?, Apart u t) :
    ∃ g, h.feedAll t.chars = .ok g ∧ g.closed = t :: h.closed := by
  have hclosed : ∀ p, h.pending = some p → Apart p.close t := fun p hp ↦ by
    refine hap p.close ?_
    rw [closed, hp]
    rfl
  rcases ht.lexeme_or_sign with ⟨l, hl, rfl⟩ | ⟨c, hc, -, hstart, hno⟩
  · exact ⟨_, feedAll_of_spells hl fun p hp ↦ hl.not_accepts (hclosed p hp), rfl⟩
  · refine ⟨⟨t :: h.closed, none⟩, ?_, rfl⟩
    rw [hc, feedAll_singleton, feed_of_fit fun p _ ↦ hno p, start, hstart]

theorem exists_feedAll (hs : Token.Spell ts cs)
    (hap : ∀ u ∈ h.closed.head?, ∀ t ∈ ts.head?, Apart u t) :
    ∃ g, h.feedAll cs = .ok g ∧ g.closed = ts.reverse ++ h.closed := by
  obtain ⟨hcanon, hsep, rfl⟩ := hs
  induction ts generalizing h with
  | nil => exact ⟨h, rfl, rfl⟩
  | cons t ts ih =>
    obtain ⟨ht, hts⟩ := List.forall_mem_cons.mp hcanon
    obtain ⟨g, hg, hclosed⟩ := exists_feedAll_token ht fun u hu ↦ hap u hu t rfl
    -- now `t` is the last token held, and the next one may follow it
    have hsep' := Token.separated_append_iff.mp (List.singleton_append ▸ hsep)
    obtain ⟨g', hg', hclosed'⟩ := ih (h := g)
      (fun u hu ↦ by
        rw [hclosed] at hu
        exact hsep'.2.2 u (by simpa using hu))
      hts hsep'.2.1
    refine ⟨g', ?_, ?_⟩
    · rw [List.flatMap_cons, feedAll_append, hg]
      exact hg'
    · rw [hclosed', hclosed, List.reverse_cons, List.append_assoc, List.singleton_append]

/-- Reading from the start yields the canonical tokens of the characters. -/
theorem feedAll_closed_iff :
    (∃ g, feedAll {} cs = .ok g ∧ g.closed.reverse = ts) ↔ Token.Spell ts cs := by
  constructor
  · rintro ⟨g, hg, rfl⟩
    exact (Reads.initial.feedAll hg).spell
  · intro hs
    obtain ⟨g, hg, hclosed⟩ := exists_feedAll (h := {}) hs (by simp [closed])
    refine ⟨g, hg, ?_⟩
    rw [hclosed, List.reverse_append, List.reverse_reverse]
    rfl

/-- Reading stops at the first character that does. -/
theorem feedAll_eq_error_iff {limit? : Option Limit} : h.feedAll cs = .error limit? ↔
    ∃ ds c es g, cs = ds ++ c :: es ∧ h.feedAll ds = .ok g ∧ g.feed c = .error limit? := by
  constructor
  · intro he
    induction cs generalizing h with
    | nil => cases he
    | cons c cs ih =>
      rcases bind_eq_error_iff.mp he with hc | ⟨g, hc, he⟩
      · exact ⟨[], c, cs, h, rfl, rfl, hc⟩
      · obtain ⟨ds, d, es, g', rfl, hds, hd⟩ := ih he
        refine ⟨c :: ds, d, es, g', rfl, ?_, hd⟩
        rw [feedAll_cons, hc]
        exact hds
  · rintro ⟨ds, c, es, g, rfl, hds, hc⟩
    rw [feedAll_append, bind_eq_error_iff]
    exact .inr ⟨g, hds, bind_eq_error_iff.mpr (.inl hc)⟩

/-- A character asks for a number out of range exactly if it continues one that overflows. -/
theorem Reads.feed_eq_limit_iff {limit : Limit} (hr : Reads cs h) :
    h.feed c = .error (some limit) ↔ limit = .integerTooLarge ∧
      ∃ l, h.pending = some l ∧ Lexeme.Overflows l.close.chars c := by
  constructor
  · intro hf
    by_cases hfit : ∀ l, h.pending = some l → l.accepts c = false
    · rw [feed_of_fit hfit, Held.start] at hf
      split at hf <;> cases hf
    · push Not at hfit
      obtain ⟨l, hp, ha⟩ := hfit
      obtain ⟨ts, pending⟩ := h
      cases hp
      obtain ⟨ds, hl⟩ := hr.pending l rfl
      rcases hl.extend (Bool.eq_true_of_not_eq_false ha) with ⟨l', hext, -⟩ | ⟨hext, ho⟩
      · rw [feed_of_extend hext] at hf
        cases hf
      · rw [feed_of_limit hext] at hf
        cases hf
        exact ⟨rfl, l, rfl, by rwa [hl.chars_close]⟩
  · rintro ⟨rfl, l, hp, ho⟩
    obtain ⟨ts, pending⟩ := h
    cases hp
    obtain ⟨ds, hl⟩ := hr.pending l rfl
    rw [hl.chars_close] at ho
    exact feed_of_limit (hl.extend?_of_overflows ho)

/-- A token that overflows comes from the open lexeme. -/
theorem Reads.pending_of_overflows (hr : Reads cs h) (hclosed : h.closed.reverse = ts ++ [t])
    (ho : Lexeme.Overflows t.chars c) : ∃ l, h.pending = some l ∧ l.close = t := by
  have hhead : h.closed = t :: ts.reverse := by
    rw [← List.reverse_reverse h.closed, hclosed, List.reverse_append]
    rfl
  have ht : IsCanonical t := hr.spell.canonical t (by simp [hclosed])
  obtain ⟨us, pending⟩ := h
  cases pending with
  | none =>
    rw [closed_none] at hhead
    have hsign := hr.sign rfl t (by rw [hhead]; rfl)
    obtain ⟨l, -, rfl⟩ := ht.spells_of_overflows ho
    exact absurd hsign l.not_isSign_close
  | some l => exact ⟨l, rfl, (List.cons.inj hhead).1⟩

end Held

end Lexer

namespace Token

open Lexer

/-- A text is read as the canonical tokens that spell it. -/
theorem lex_eq_ok_iff {text : String} :
    Token.lex text = .ok ts ↔ Spell ts (Text.withoutBlanks text.toList) := by
  rw [← Held.feedAll_closed_iff]
  constructor
  · intro h
    unfold Token.lex Token.ofChars at h
    cases hrun : run {} text.toList with
    | ok s =>
      rw [hrun] at h
      cases h
      exact ⟨s.held, (run_eq_ok_iff.mp hrun).1, s.finish_eq.symm⟩
    | error stop =>
      rw [hrun] at h
      cases stop <;> cases h
  · rintro ⟨g, hg, rfl⟩
    have hrun : run {} text.toList = .ok ⟨0 + text.toList.length, g.tokens, g.pending⟩ :=
      run_eq_ok_iff.mpr ⟨hg, rfl⟩
    rw [Token.lex, Token.ofChars, hrun]
    exact congrArg Except.ok (State.finish_eq _)

/-- Characters that begin with canonical tokens of which the last overflows at the next character.
-/
def LiteralOverflows (cs : List Char) : Prop :=
  ∃ ts t ds c es, Spell (ts ++ [t]) ds ∧ Lexeme.Overflows t.chars c ∧ cs = ds ++ c :: es

theorem lex_eq_limit_iff_run {text : String} {limit : Limit} :
    Token.lex text = .error (.limit limit) ↔ run {} text.toList = .error (.limit limit) := by
  rw [Token.lex, Token.ofChars]
  cases run {} text.toList with
  | ok s => exact iff_of_false (by rintro ⟨⟩) (by rintro ⟨⟩)
  | error stop => cases stop <;> simp [Except.map]

/-- Reading exceeds a limit exactly at a literal out of range. -/
theorem lex_eq_limit_iff {text : String} {limit : Limit} : Token.lex text = .error (.limit limit) ↔
    limit = .integerTooLarge ∧ LiteralOverflows (Text.withoutBlanks text.toList) := by
  have hrun : run {} text.toList = .error (.limit limit) ↔
      Held.feedAll {} (Text.withoutBlanks text.toList) = .error (some limit) := run_eq_limit_iff
  rw [lex_eq_limit_iff_run, hrun, Held.feedAll_eq_error_iff]
  constructor
  · rintro ⟨ds, c, es, g, heq, hg, hc⟩
    have hr := Held.Reads.initial.feedAll hg
    rw [List.nil_append] at hr
    obtain ⟨rfl, l, hp, ho⟩ := hr.feed_eq_limit_iff.mp hc
    have hclosed : g.closed.reverse = g.tokens.reverse ++ [l.close] := by
      rw [Held.closed, hp, List.reverse_cons]
    exact ⟨rfl, g.tokens.reverse, l.close, ds, c, es, hclosed ▸ hr.spell, ho, heq⟩
  · rintro ⟨rfl, ts, t, ds, c, es, hs, ho, heq⟩
    obtain ⟨g, hg, hclosed⟩ := Held.feedAll_closed_iff.mpr hs
    have hr := Held.Reads.initial.feedAll hg
    obtain ⟨l, hp, rfl⟩ := hr.pending_of_overflows hclosed ho
    exact ⟨ds, c, es, g, heq, hg, hr.feed_eq_limit_iff.mpr ⟨rfl, l, hp, ho⟩⟩

/-- A number with more than 308 digits after the point overflows. -/
theorem literalOverflows_of_fraction {whole fraction : List Char} (hw : IsDigits whole)
    (hlt : Literal.whole whole < Binary64.overflowThreshold)
    (hf : ∀ c ∈ fraction, c.isDigit = true) (hlen : 308 < fraction.length) :
    LiteralOverflows (whole ++ '.' :: fraction) := by
  have hcut : fraction = fraction.take 308 ++ fraction[308] :: fraction.drop 309 := by simp
  have htake : (fraction.take 308).length = 308 := List.length_take_of_le hlen.le
  have hs := Lexeme.Spells.decimal hw (fun c hc ↦ hf c (List.mem_of_mem_take hc)) hlt htake.le
  refine ⟨[], _, _, fraction[308], fraction.drop 309, hs.isCanonical_close.spell, ?_, ?_⟩
  · rw [hs.chars_close]
    exact .inr ⟨whole, fraction.take 308, hw, rfl, htake, hf _ (List.getElem_mem hlen)⟩
  · rw [hs.chars_close, List.append_assoc, List.cons_append, ← hcut]

/-! ## Joining tokens -/

/-- Canonical tokens are written without blanks. -/
theorem withoutBlanks_chars (hcanon : ∀ t ∈ ts, IsCanonical t) :
    Text.withoutBlanks (ts.flatMap Token.chars) = ts.flatMap Token.chars := by
  refine Text.withoutBlanks_eq_self_iff.mpr fun c hc ↦ ?_
  obtain ⟨t, ht, hc⟩ := List.mem_flatMap.mp hc
  exact (hcanon t ht).isBlank_eq_false hc

/-- Blank separators do not count. -/
theorem withoutBlanks_join {separator : String} (hcanon : ∀ t ∈ ts, IsCanonical t)
    (hblank : ∀ c ∈ separator.toList, Text.isBlank c = true) :
    Text.withoutBlanks (join separator ts).toList = ts.flatMap Token.chars := by
  rw [join, Text.withoutBlanks_intercalate hblank, List.flatMap_map]
  exact withoutBlanks_chars hcanon

theorem toList_join_empty (ts : List Token) : (join "" ts).toList = ts.flatMap Token.chars := by
  rw [join, String.toList_intercalate, List.map_map]
  induction ts with
  | nil => rfl
  | cons t ts ih =>
    rw [List.map_cons, List.flatMap_cons, ← ih]
    cases ts with
    | nil => simp [chars]
    | cons u ts =>
      rw [List.map_cons, List.intercalate_cons_cons, String.toList_empty, List.append_nil]
      rfl

theorem join?_of_isCanonical (separator : String) (hcanon : ∀ t ∈ ts, IsCanonical t) :
    join? separator ts = .ok (join separator ts) := by
  rw [join?, if_pos]
  exact List.all_eq_true.mpr fun t ht ↦ (hcanon t ht).isWritable

/-- A text is read as those canonical tokens, with no two names and no two numbers next to each
other, whose joined texts are the text without its blanks. Joining them with any blanks gives a text
of the same tokens. -/
theorem lex_iff_join (text : String) (ts : List Token) :
    (Token.lex text = .ok ts ↔
      join? "" ts = .ok (.ofList (Text.withoutBlanks text.toList)) ∧
        (∀ t ∈ ts, IsCanonical t) ∧ Separated ts) ∧
    ∀ separator : String, (∀ c ∈ separator.toList, Text.isBlank c = true) →
      Token.lex text = .ok ts →
        ∃ joined, join? separator ts = .ok joined ∧ Token.lex joined = .ok ts := by
  refine ⟨?_, ?_⟩
  · rw [lex_eq_ok_iff]
    constructor
    · rintro ⟨hcanon, hsep, hchars⟩
      refine ⟨?_, hcanon, hsep⟩
      rw [join?_of_isCanonical "" hcanon, ← hchars, ← toList_join_empty, String.ofList_toList]
    · rintro ⟨hjoin, hcanon, hsep⟩
      refine ⟨hcanon, hsep, ?_⟩
      rw [join?_of_isCanonical "" hcanon] at hjoin
      rw [← toList_join_empty, Except.ok.inj hjoin, String.toList_ofList]
  · intro separator hblank hlex
    obtain ⟨hcanon, hsep, -⟩ := lex_eq_ok_iff.mp hlex
    refine ⟨join separator ts, join?_of_isCanonical separator hcanon, ?_⟩
    rw [lex_eq_ok_iff, withoutBlanks_join hcanon hblank]
    exact ⟨hcanon, hsep, rfl⟩

end Token

end UnitCalc
