import UnitCalc.Proofs.Except
import UnitCalc.Proofs.Token.Lexeme

/-!
# What the lexer holds after a text

The position and the blanks have no part in what the lexer does, so a reading is a fold of
`Held.feed` over the characters that are not blank: `Lexer.run_eq_ok_iff`. The invariant of that
fold, `Held.Reads cs h`, says that the tokens held are canonical, that neighbours are apart and that
together they spell `cs`. Conversely, canonical tokens with their neighbours apart are read from
their own characters, because the first character of a token never continues the lexeme before it.
-/

namespace UnitCalc

variable {c : Char} {cs ds : List Char} {t u : Token} {ts us : List Token}

/-! ## Neighbouring tokens -/

namespace Token

/-- Two tokens that may follow each other. -/
def Apart (t u : Token) : Prop :=
  ¬(t.isName = true ∧ u.isName = true) ∧ ¬(t.isNumber = true ∧ u.isNumber = true)

theorem separated_iff_isChain : Separated ts ↔ ts.IsChain Apart := by
  induction ts with
  | nil => simp [Separated]
  | cons t ts ih =>
    cases ts with
    | nil => simp [Separated]
    | cons u ts => rw [Separated, ih, List.isChain_cons_cons, Apart, and_assoc]

theorem separated_append_iff : Separated (ts ++ us) ↔
    Separated ts ∧ Separated us ∧ ∀ t ∈ ts.getLast?, ∀ u ∈ us.head?, Apart t u := by
  simp only [separated_iff_isChain, List.isChain_append]

theorem separated_concat_iff : Separated (ts ++ [t]) ↔
    Separated ts ∧ ∀ u ∈ ts.getLast?, Apart u t := by
  rw [separated_append_iff]
  simp [Separated]

/-- A token of a single character, which is neither a name nor a number. -/
def IsSign (t : Token) : Prop := t.isName = false ∧ t.isNumber = false

theorem IsSign.apart_left (h : t.IsSign) (u : Token) : Apart t u := by
  simp [Apart, h.1, h.2]

theorem IsSign.apart_right (h : u.IsSign) (t : Token) : Apart t u := by
  simp [Apart, h.1, h.2]

/-! ## Tokens of a text -/

/-- Canonical tokens that may follow each other, and their characters. -/
structure Spell (ts : List Token) (cs : List Char) : Prop where
  canonical : ∀ t ∈ ts, IsCanonical t
  separated : Separated ts
  chars : ts.flatMap Token.chars = cs

theorem IsCanonical.spell (h : IsCanonical t) : Spell [t] t.chars :=
  ⟨List.forall_mem_singleton.mpr h, trivial, List.flatMap_singleton ..⟩

namespace Spell

theorem nil : Spell [] [] := ⟨by simp, trivial, rfl⟩

theorem append (h : Spell ts cs) (h' : Spell us ds)
    (hap : ∀ t ∈ ts.getLast?, ∀ u ∈ us.head?, Apart t u) : Spell (ts ++ us) (cs ++ ds) where
  canonical := List.forall_mem_append.mpr ⟨h.canonical, h'.canonical⟩
  separated := separated_append_iff.mpr ⟨h.separated, h'.separated, hap⟩
  chars := by rw [List.flatMap_append, h.chars, h'.chars]

/-- A sign may stand between any tokens. -/
theorem append_sign (h : Spell ts cs) (h' : Spell us ds) (ht : IsCanonical t) (hs : IsSign t) :
    Spell (ts ++ t :: us) (cs ++ t.chars ++ ds) := by
  have hright : Spell (t :: us) (t.chars ++ ds) := by
    refine ht.spell.append h' ?_
    rintro _ ⟨rfl⟩ u -
    exact hs.apart_left u
  rw [List.append_assoc]
  refine h.append hright ?_
  rintro u - _ ⟨rfl⟩
  exact hs.apart_right u

end Spell

end Token

namespace Lexer

open Token (IsCanonical Separated Apart)

/-! ## What a character starts -/

/-- A character starts a lexeme that it spells, or is a token by itself. -/
theorem start?_eq_some {st : Start} (h : start? c = some st) :
    (∃ l : Lexeme, st = .lexeme l ∧ l.Spells [c] ∧ l.accepts c = true) ∨
      ∃ t : Token, st = .token t ∧ IsCanonical t ∧ t.chars = [c] ∧ t.IsSign := by
  unfold start? at h
  split at h
  · next hc =>
    cases h
    exact .inl ⟨_, rfl, @Lexeme.Spells.name [c] (by simp) (by simpa using hc), hc⟩
  split at h
  · next hc =>
    cases h
    have hspells := Lexeme.Spells.whole (Token.isDigits_singleton hc)
    rw [Literal.whole_singleton] at hspells
    exact .inl ⟨_, rfl, hspells, by simp [Lexeme.accepts, hc]⟩
  split at h
  · next hc =>
    cases h
    rcases hc with rfl | rfl
    · exact .inr ⟨_, rfl, .plus, rfl, rfl, rfl⟩
    · exact .inr ⟨_, rfl, .minus, rfl, rfl, rfl⟩
  split at h
  · next hc =>
    cases h
    rcases hc with rfl | rfl
    · exact .inr ⟨_, rfl, .times, rfl, rfl, rfl⟩
    · exact .inr ⟨_, rfl, .over, rfl, rfl, rfl⟩
  split at h
  · next hc =>
    cases h
    rw [hc]
    exact .inr ⟨_, rfl, .opening, rfl, rfl, rfl⟩
  split at h
  · next hc =>
    cases h
    rw [hc]
    exact .inr ⟨_, rfl, .closing, rfl, rfl, rfl⟩
  · cases h

/-! ## Readings without positions and blanks -/

/-- What has been read: the tokens, latest first, and the open lexeme. -/
structure Held where
  tokens : List Token := []
  pending : Option Lexeme := none

/-- The tokens, latest first, with the open lexeme closed. -/
def Held.closed (h : Held) : List Token :=
  match h.pending with
  | some l => l.close :: h.tokens
  | none => h.tokens

/-- Closes the open lexeme and starts the next token. -/
def Held.start (h : Held) (c : Char) : Except (Option Limit) Held :=
  match start? c with
  | some (.lexeme l) => .ok ⟨h.closed, some l⟩
  | some (.token t) => .ok ⟨t :: h.closed, none⟩
  | none => .error none

/-- Reads a character that is not blank. -/
def Held.feed (h : Held) (c : Char) : Except (Option Limit) Held :=
  match h.pending with
  | none => h.start c
  | some l =>
    match l.extend? c with
    | .error limit => .error (some limit)
    | .ok (some longer) => .ok ⟨h.tokens, some longer⟩
    | .ok none => h.start c

/-- Reads characters that are not blank. -/
def Held.feedAll (h : Held) (cs : List Char) : Except (Option Limit) Held := cs.foldlM Held.feed h

/-- What a state holds. -/
def State.held (s : State) : Held := ⟨s.tokens, s.pending⟩

variable {h g : Held} {s : State}

@[simp] theorem Held.closed_some (ts : List Token) (l : Lexeme) :
    closed ⟨ts, some l⟩ = l.close :: ts := rfl

@[simp] theorem Held.closed_none (ts : List Token) : closed ⟨ts, none⟩ = ts := rfl

@[simp] theorem Held.feedAll_nil (h : Held) : h.feedAll [] = .ok h := rfl

@[simp] theorem Held.feedAll_cons (h : Held) (c : Char) (cs : List Char) :
    h.feedAll (c :: cs) = h.feed c >>= fun g ↦ g.feedAll cs := rfl

theorem Held.feedAll_append (h : Held) (cs ds : List Char) :
    h.feedAll (cs ++ ds) = h.feedAll cs >>= fun g ↦ g.feedAll ds := List.foldlM_append

/-- A character that does not continue the open lexeme starts the next token. -/
theorem Held.feed_of_fit (hfit : ∀ l, h.pending = some l → l.accepts c = false) :
    h.feed c = h.start c := by
  obtain ⟨ts, pending⟩ := h
  cases pending with
  | none => rfl
  | some l => simp only [feed, Lexeme.extend?_of_not_accepts (hfit l rfl)]

theorem Held.feed_of_extend {l l' : Lexeme} (hext : l.extend? c = .ok (some l')) :
    feed ⟨ts, some l⟩ c = .ok ⟨ts, some l'⟩ := by
  simp only [feed, hext]

theorem Held.feed_of_limit {l : Lexeme} {limit : Limit} (hext : l.extend? c = .error limit) :
    feed ⟨ts, some l⟩ c = .error (some limit) := by
  simp only [feed, hext]

theorem State.finish_eq (s : State) : s.finish = s.held.closed.reverse := by
  obtain ⟨position, tokens, pending⟩ := s
  cases pending <;> rfl

theorem step_of_isBlank (hc : Text.isBlank c = true) :
    step s c = .ok { s with position := s.position + 1 } := by
  rw [step, if_pos hc]

/-- The outcome of a step at a position, from what is held after it. -/
def outcome (position : Nat) (c : Char) : Except (Option Limit) Held → Except Stop State
  | .ok h => .ok ⟨position + 1, h.tokens, h.pending⟩
  | .error none => .error (.character c position)
  | .error (some limit) => .error (.limit limit)

theorem State.start_eq (s : State) (c : Char) :
    s.start c = outcome s.position c (s.held.start c) := by
  have hclose : s.close = ⟨s.position, s.held.closed, none⟩ := by
    obtain ⟨position, tokens, pending⟩ := s
    cases pending <;> rfl
  unfold State.start Held.start
  split <;> simp [outcome, *]

theorem step_eq (hc : Text.isBlank c = false) :
    step s c = outcome s.position c (s.held.feed c) := by
  obtain ⟨position, tokens, pending⟩ := s
  rw [step, hc, if_neg Bool.false_ne_true]
  cases pending with
  | none => exact State.start_eq _ c
  | some l =>
    have hstart := State.start_eq ⟨position, tokens, some l⟩ c
    simp only [Held.feed, State.held]
    cases l.extend? c with
    | error limit => rfl
    | ok longer =>
      cases longer with
      | some longer => rfl
      | none => exact hstart

theorem withoutBlanks_cons_of_isBlank (hc : Text.isBlank c = true) :
    Text.withoutBlanks (c :: cs) = Text.withoutBlanks cs := by
  simp [Text.withoutBlanks, hc]

theorem withoutBlanks_cons (hc : Text.isBlank c = false) :
    Text.withoutBlanks (c :: cs) = c :: Text.withoutBlanks cs := by
  simp [Text.withoutBlanks, hc]

/-- Reading ends well exactly if reading without the blanks does. -/
theorem run_eq_ok_iff {s t : State} : run s cs = .ok t ↔
    s.held.feedAll (Text.withoutBlanks cs) = .ok t.held ∧
      t.position = s.position + cs.length := by
  induction cs generalizing s with
  | nil =>
    obtain ⟨p, ts, l⟩ := s
    obtain ⟨q, us, m⟩ := t
    simp [State.held, Text.withoutBlanks, eq_comm, and_comm]
  | cons c cs ih =>
    rw [run_cons, List.length_cons, ← Nat.add_assoc, Nat.add_right_comm]
    by_cases hc : Text.isBlank c = true
    · rw [step_of_isBlank hc, withoutBlanks_cons_of_isBlank hc]
      exact ih
    · rw [Bool.not_eq_true] at hc
      rw [step_eq hc, withoutBlanks_cons hc, Held.feedAll_cons]
      cases s.held.feed c with
      | ok h => exact ih
      | error limit? =>
        refine iff_of_false ?_ (by rintro ⟨⟨⟩, -⟩)
        cases limit? <;> rintro ⟨⟩

theorem run_eq_limit_iff {limit : Limit} : run s cs = .error (.limit limit) ↔
    s.held.feedAll (Text.withoutBlanks cs) = .error (some limit) := by
  induction cs generalizing s with
  | nil => exact iff_of_false (by rintro ⟨⟩) (by rintro ⟨⟩)
  | cons c cs ih =>
    rw [run_cons]
    by_cases hc : Text.isBlank c = true
    · rw [step_of_isBlank hc, withoutBlanks_cons_of_isBlank hc]
      exact ih
    · rw [Bool.not_eq_true] at hc
      rw [step_eq hc, withoutBlanks_cons hc, Held.feedAll_cons]
      cases s.held.feed c with
      | ok h => exact ih
      | error limit? => cases limit? <;> simp [outcome, bind, Except.bind]

/-! ## The invariant -/

/-- What holds of a reading of `cs`: the tokens are those of a text, and a lexeme stays open as long
as the text ends in it. -/
structure Held.Reads (cs : List Char) (h : Held) : Prop where
  spell : Token.Spell h.closed.reverse cs
  pending : ∀ l, h.pending = some l → ∃ ds, l.Spells ds
  sign : h.pending = none → ∀ t ∈ h.tokens.head?, t.IsSign

namespace Held

theorem Reads.initial : Reads [] {} where
  spell := .nil
  pending := by simp
  sign := by simp

/-- The first character of a lexeme, read where it continues nothing, makes the lexeme a name after
no name, or a number after no number. -/
theorem Reads.apart {l : Lexeme} (hr : Reads cs h) (hl : l.Spells [c])
    (hfit : ∀ p, h.pending = some p → p.accepts c = false) :
    ∀ t ∈ h.closed.head?, Apart t l.close := by
  intro t ht
  cases hp : h.pending with
  | none =>
    rw [closed, hp] at ht
    exact (hr.sign hp t ht).apart_left l.close
  | some p =>
    rw [closed, hp] at ht
    cases ht
    have hc : p.accepts c = false := hfit p hp
    -- a name accepts every letter and a number every digit
    refine ⟨?_, ?_⟩
    · rintro ⟨hpn, hln⟩
      have hname : isNameChar c = true := by rwa [hl.isName_close] at hln
      rw [Lexeme.accepts_of_isName hpn, hname] at hc
      cases hc
    · rintro ⟨hpn, hln⟩
      have hdigit : c.isDigit = true := by rwa [hl.isNumber_close] at hln
      rw [Lexeme.accepts_of_isNumber hpn (ne_point_of_isDigit hdigit), hdigit] at hc
      cases hc

/-- What a character preserves that starts the next token. -/
theorem Reads.start (hr : Reads cs h) (hfit : ∀ l, h.pending = some l → l.accepts c = false)
    (hs : h.start c = .ok g) : Reads (cs ++ [c]) g := by
  unfold Held.start at hs
  split at hs
  · next l hst =>
    cases hs
    rcases start?_eq_some hst with ⟨_, ⟨rfl⟩, hl, -⟩ | ⟨_, ⟨⟩, -⟩
    -- the lexeme is counted as closed already, so its first character has to be apart
    have hlexeme := hl.isCanonical_close.spell
    rw [hl.chars_close] at hlexeme
    refine ⟨?_, ?_, ?_⟩
    · rw [closed_some, List.reverse_cons]
      refine hr.spell.append hlexeme ?_
      rw [List.getLast?_reverse]
      rintro t ht _ ⟨rfl⟩
      exact hr.apart hl hfit t ht
    · rintro _ ⟨rfl⟩
      exact ⟨[c], hl⟩
    · rintro ⟨⟩
  · next t hst =>
    cases hs
    rcases start?_eq_some hst with ⟨_, ⟨⟩, -⟩ | ⟨_, ⟨rfl⟩, hcanon, hchars, hsign⟩
    refine ⟨?_, ?_, ?_⟩
    · rw [closed_none, List.reverse_cons]
      have := hr.spell.append_sign .nil hcanon hsign
      rwa [hchars, List.append_nil] at this
    · rintro _ ⟨⟩
    · rintro - _ ⟨rfl⟩
      exact hsign
  · cases hs

/-- What a character preserves that continues the open lexeme: the kind of a lexeme is the kind of
its first character. -/
theorem Reads.extend {l l' : Lexeme} (hr : Reads cs ⟨ts, some l⟩) (hl : l.Spells ds)
    (hl' : l'.Spells (ds ++ [c])) : Reads (cs ++ [c]) ⟨ts, some l'⟩ := by
  have hhead : (ds ++ [c]).head? = ds.head? := List.head?_append_of_ne_nil ds hl.ne_nil
  have hname : l'.close.isName = l.close.isName := by
    rw [hl'.isName_close, hl.isName_close, hhead]
  have hnumber : l'.close.isNumber = l.close.isNumber := by
    rw [hl'.isNumber_close, hl.isNumber_close, hhead]
  obtain ⟨hcanon, hsep, hchars⟩ := hr.spell
  rw [closed_some, List.reverse_cons] at hcanon hsep hchars
  refine ⟨?_, ?_, ?_⟩
  · rw [closed_some, List.reverse_cons]
    refine ⟨?_, ?_, ?_⟩
    · obtain ⟨hts, -⟩ := List.forall_mem_append.mp hcanon
      exact List.forall_mem_append.mpr ⟨hts, List.forall_mem_singleton.mpr hl'.isCanonical_close⟩
    · rw [Token.separated_concat_iff] at hsep ⊢
      simpa only [Apart, hname, hnumber] using hsep
    · rw [List.flatMap_append, List.flatMap_singleton, hl.chars_close] at hchars
      rw [List.flatMap_append, List.flatMap_singleton, hl'.chars_close, ← List.append_assoc, hchars]
  · rintro _ ⟨rfl⟩
    exact ⟨_, hl'⟩
  · rintro ⟨⟩

/-- What every character preserves. -/
theorem Reads.feed (hr : Reads cs h) (hf : h.feed c = .ok g) : Reads (cs ++ [c]) g := by
  by_cases hfit : ∀ l, h.pending = some l → l.accepts c = false
  · rw [feed_of_fit hfit] at hf
    exact hr.start hfit hf
  · push Not at hfit
    obtain ⟨l, hp, ha⟩ := hfit
    obtain ⟨ts, pending⟩ := h
    cases hp
    -- the character continues the lexeme or asks for a number out of range
    obtain ⟨ds, hl⟩ := hr.pending l rfl
    rcases hl.extend (Bool.eq_true_of_not_eq_false ha) with ⟨l', hext, hl', -⟩ | ⟨hext, -⟩
    · rw [feed_of_extend hext] at hf
      cases hf
      exact hr.extend hl hl'
    · rw [feed_of_limit hext] at hf
      cases hf

theorem Reads.feedAll (hr : Reads cs h) (hf : h.feedAll ds = .ok g) : Reads (cs ++ ds) g := by
  induction ds generalizing cs h with
  | nil =>
    cases hf
    rwa [List.append_nil]
  | cons c ds ih =>
    obtain ⟨h', hc, hf⟩ := bind_eq_ok_iff.mp hf
    have := ih (hr.feed hc) hf
    rwa [List.append_assoc] at this

end Held

end Lexer

end UnitCalc
