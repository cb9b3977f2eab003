import UnitCalc.Command.Arguments
import UnitCalc.Proofs.Binary64.Rounded
import UnitCalc.Proofs.Expr.Faults
import UnitCalc.Proofs.Expr.Read
import UnitCalc.Proofs.Token.Legality

/-!
# Blanks have no meaning

Two texts that differ in blanks only are calculated to the same end. Success and the limits are
settled by the characters that are not blank alone, and so is every failure but those of the lexer,
which report a text and a position. These are compared by what the position points at: a split of
the characters of one text at a character that is not blank is carried over to the other text
(`exists_split_of_withoutBlanks`).

The comparison is a relation of outcomes that sequences preserve (`SameOutcome.bind`), so the stages
after the lexer have to be followed once.
-/

namespace UnitCalc

variable {α β : Type} {s t : String} {f g : Failure} {x y : Except Fault α} {c : Char}
  {cs cs' ds es : List Char}

/-! ## Outcomes that differ in positions only -/

/-- Positions in two texts that point at the same character `c`: it is preceded by equally many
characters that are not blank. -/
structure SamePlace (s t : String) (c : Char) (p q : Nat) : Prop where
  left : s.toList[p]? = some c
  right : t.toList[q]? = some c
  length : (Text.withoutBlanks (s.toList.take p)).length =
    (Text.withoutBlanks (t.toList.take q)).length

/-- Failures for two texts that say the same of both: the same failure, or failures of the lexer at
the same character. -/
structure Failure.Matches (s t : String) (f g : Failure) : Prop where
  message : f.message = g.message
  cause : f.cause? = g.cause?
  same_or_lex : f = g ∧ f.stage ≠ .lex ∨
    ∃ c p q, f = .lex c s p ∧ g = .lex c t q ∧ SamePlace s t c p q

/-- The same value, matching failures, or the same limit. -/
inductive SameOutcome (s t : String) : Except Fault α → Except Fault α → Prop where
  | ok (a : α) : SameOutcome s t (.ok a) (.ok a)
  | failure {f g : Failure} : f.Matches s t g →
      SameOutcome s t (.error (.failure f)) (.error (.failure g))
  | limit (limit : Limit) : SameOutcome s t (.error (.limit limit)) (.error (.limit limit))

/-- An outcome that is not a failure of the lexer is the same for both texts. -/
theorem SameOutcome.refl (hx : ∀ f, x = .error (.failure f) → f.stage ≠ .lex) :
    SameOutcome s t x x := by
  match x, hx with
  | .ok a, _ => exact .ok a
  | .error (.limit l), _ => exact .limit l
  | .error (.failure f), hx => exact .failure ⟨rfl, rfl, .inl ⟨rfl, hx f rfl⟩⟩

/-- The same continuation leads to the same outcome. -/
theorem SameOutcome.bind {k : α → Except Fault β} (h : SameOutcome s t x y)
    (hk : ∀ a, SameOutcome s t (k a) (k a)) : SameOutcome s t (x >>= k) (y >>= k) := by
  cases h with
  | ok a => exact hk a
  | failure hfg => exact .failure hfg
  | limit limit => exact .limit limit

/-! ## The lexer -/

/-- A split at a character that is not blank, in another text with the same such characters. -/
theorem exists_split_of_withoutBlanks (hc : Text.isBlank c = false)
    (h : Text.withoutBlanks (ds ++ c :: es) = Text.withoutBlanks cs) :
    ∃ ds' es', cs = ds' ++ c :: es' ∧ Text.withoutBlanks ds' = Text.withoutBlanks ds := by
  rw [Text.withoutBlanks_append, Lexer.withoutBlanks_cons hc, eq_comm] at h
  obtain ⟨before, after, rfl, hbefore, hafter⟩ := List.filter_eq_append_iff.mp h
  obtain ⟨blanks, es', rfl, hblanks, -, -⟩ := List.filter_eq_cons_iff.mp hafter
  refine ⟨before ++ blanks, es', (List.append_assoc ..).symm, ?_⟩
  have hnil : Text.withoutBlanks blanks = [] := List.filter_eq_nil_iff.mpr hblanks
  rw [Text.withoutBlanks_append, hnil, List.append_nil]
  exact hbefore

namespace Lexer

/-- The same character is illegal after any text with the same characters that are not blank. -/
theorem exists_run_eq_character {position : Nat}
    (h : Text.withoutBlanks cs = Text.withoutBlanks cs')
    (hrun : run {} cs = .error (.character c position)) :
    ∃ ds es ds' es', cs = ds ++ c :: es ∧ position = ds.length ∧ cs' = ds' ++ c :: es' ∧
      Text.withoutBlanks ds' = Text.withoutBlanks ds ∧
      run {} cs' = .error (.character c ds'.length) := by
  obtain ⟨ds, _, es, rfl, ⟨state, hds⟩, hc, hillegal | -⟩ := run_eq_error_iff_exists.mp hrun
  obtain ⟨ds', es', rfl, hds'⟩ := exists_split_of_withoutBlanks hc h
  refine ⟨ds, es, ds', es', rfl, rfl, rfl, hds', ?_⟩
  refine run_eq_error_iff_exists.mpr ⟨ds', c, es', rfl, ?_, hc, .illegal (by rwa [hds'])⟩
  rw [run_eq_ok_iff, ← hds'] at hds
  exact ⟨⟨ds'.length, state.tokens, state.pending⟩,
    run_eq_ok_iff.mpr ⟨hds.1, (Nat.zero_add _).symm⟩⟩

end Lexer

/-- The place between the same characters, blanks left out. -/
theorem samePlace_of_split {ds' es' : List Char} (hs : s.toList = ds ++ c :: es)
    (ht : t.toList = ds' ++ c :: es') (h : Text.withoutBlanks ds' = Text.withoutBlanks ds) :
    SamePlace s t c ds.length ds'.length where
  left := by simp [hs]
  right := by simp [ht]
  length := by rw [hs, ht, List.take_left, List.take_left, h]

theorem Token.sameOutcome_lex (h : Text.withoutBlanks s.toList = Text.withoutBlanks t.toList) :
    SameOutcome s t (lex s) (lex t) := by
  match hs : lex s with
  | .ok ts =>
    have ht : lex t = .ok ts := by
      rw [lex_eq_ok_iff, ← h]
      exact lex_eq_ok_iff.mp hs
    rw [ht]
    exact .ok ts
  | .error (.limit limit) =>
    have ht : lex t = .error (.limit limit) := by
      rw [lex_eq_limit_iff, ← h]
      exact lex_eq_limit_iff.mp hs
    rw [ht]
    exact .limit limit
  | .error (.failure f) =>
    obtain ⟨c, position, hrun, rfl⟩ := lex_eq_failure_iff.mp hs
    obtain ⟨ds, es, ds', es', hsplit, rfl, hsplit', hds, hrun'⟩ :=
      Lexer.exists_run_eq_character h hrun
    rw [lex_eq_failure_iff.mpr ⟨c, _, hrun', rfl⟩]
    have hplace := samePlace_of_split hsplit hsplit' hds
    refine .failure ⟨?_, rfl, .inr ⟨c, _, _, rfl, rfl, hplace⟩⟩
    rw [Failure.message_lex, Failure.message_lex]

/-! ## The whole calculation -/

theorem UnitTable.sameOutcome_calculate [Platform] (table : UnitTable)
    (h : Text.withoutBlanks s.toList = Text.withoutBlanks t.toList) :
    SameOutcome s t (table.calculate s) (table.calculate t) := by
  have hread : SameOutcome s t (Expr.read s) (Expr.read t) := by
    refine (Token.sameOutcome_lex h).bind fun ts ↦ .refl fun f hf ↦ ?_
    rw [Parser.stage_of_parse hf]
    decide
  refine hread.bind fun e ↦ .refl fun f hf ↦ ?_
  rw [Expr.stage_of_evaluate hf]
  decide

/-! ## Words of a command -/

/-- The characters that are not blank of the words among the arguments of `eval`. -/
def Command.evalChars? (args : List String) : Option (List Char) :=
  (Arguments.parse? true {} args).map fun a ↦ Text.withoutBlanks (a.words.flatMap String.toList)

/-- The expression of `eval` has the characters of its words. -/
theorem Command.evalChars?_eq {args : List String} {precision : Option Int}
    (h : parse? ("eval" :: args) = some (.eval s precision)) :
    evalChars? args = some (Text.withoutBlanks s.toList) := by
  obtain ⟨a, ha, h⟩ := Option.bind_eq_some_iff.mp h
  split at h
  · cases h
  obtain ⟨p, -, ⟨⟩⟩ := Option.bind_eq_some_iff.mp h
  rw [evalChars?, ha, Text.withoutBlanks_intercalate_space]
  rfl

/-- Texts with the same characters, blanks left out, are calculated to the same outcome. In
particular it does not matter how an expression is split into the words of `eval`. -/
theorem calculate_sameOutcome [Platform] :
    (∀ s t : String, Text.withoutBlanks s.toList = Text.withoutBlanks t.toList →
      SameOutcome s t (calculate s) (calculate t)) ∧
    ∀ args args' s t p q, Command.parse? ("eval" :: args) = some (.eval s p) →
      Command.parse? ("eval" :: args') = some (.eval t q) →
      Command.evalChars? args = Command.evalChars? args' →
      SameOutcome s t (calculate s) (calculate t) := by
  refine ⟨fun s t h ↦ UnitTable.sameOutcome_calculate _ h, ?_⟩
  intro args args' s t p q hs ht h
  rw [Command.evalChars?_eq hs, Command.evalChars?_eq ht] at h
  exact UnitTable.sameOutcome_calculate _ (Option.some.inj h)

open Rounded in
/-- A blank in a number, a misplaced character, and an expression split into words. -/
theorem calculate_sameOutcome_blanks :
    SameOutcome "1 2m" "12m" (calculate "1 2m") (calculate "12m") ∧
      SameOutcome "1 $" "1$" (calculate "1 $") (calculate "1$") ∧
      SameOutcome "1 km + 2 m" "1km+2m" (calculate "1 km + 2 m") (calculate "1km+2m") :=
  ⟨calculate_sameOutcome.1 _ _ (by decide), calculate_sameOutcome.1 _ _ (by decide),
    calculate_sameOutcome.2 ["1", "km", "+", "2", "m"] ["1km+2m"] _ _ none none
      (by decide +kernel) (by decide +kernel) (by decide +kernel)⟩

end UnitCalc
