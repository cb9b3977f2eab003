import UnitCalc.Calculator
import UnitCalc.Proofs.Expr.Misfit
import UnitCalc.Proofs.Token.Lossless

/-!
# Reading an expression from a text

A text denotes the expression that the grammar derives from its tokens. Reading it runs into no
limit but that of the literals: the tokens of a text are never too long for an error, since their
spelling is at hand.
-/

namespace UnitCalc

open Token (Spell LiteralOverflows)

variable {text : String} {limit : Limit} {failure : Failure} {ts : List Token} {e : Expr}

namespace Parser

/-- Tokens of a text are never too long for an error. -/
theorem parse_ne_limit (hcanon : ∀ t ∈ ts, Token.IsCanonical t) :
    Expr.parse ts ≠ .error (.limit limit) := by
  intro h
  rcases parse_cases ts with ⟨e, he⟩ | ⟨error, he⟩ | he
  · rw [he] at h
    cases h
  · rw [he] at h
    cases h
  · obtain ⟨value, ⟨before, after, rfl, -⟩, hvalue⟩ := parse_eq_limit_iff.mp he
    have hwritable := (hcanon (.integer value "") (by simp)).isWritable
    rw [isWritable_eq_false_iff.mpr ⟨value, rfl, hvalue⟩] at hwritable
    cases hwritable

theorem stage_of_parse (h : Expr.parse ts = .error (.failure failure)) :
    failure.stage = .parse := by
  rcases parse_cases ts with ⟨e, he⟩ | ⟨error, he⟩ | he
  · rw [he] at h
    cases h
  · rw [he] at h
    cases h
    rfl
  · rw [he] at h
    cases h

end Parser

theorem Token.stage_of_lex (h : Token.lex text = .error (.failure failure)) :
    failure.stage = .lex := by
  unfold Token.lex at h
  split at h
  · cases h
  · cases h
    rfl
  · cases h

namespace Expr

theorem read_eq_ok_iff : read text = .ok e ↔
    ∃ ts, Spell ts (Text.withoutBlanks text.toList) ∧ Derives .sum ts e := by
  rw [read, bind_eq_ok_iff]
  simp only [Token.lex_eq_ok_iff, Parser.parse_eq_ok_iff]

theorem read_eq_limit_iff : read text = .error (.limit limit) ↔
    limit = .integerTooLarge ∧ LiteralOverflows (Text.withoutBlanks text.toList) := by
  rw [read, bind_eq_error_iff, Token.lex_eq_limit_iff]
  refine or_iff_left ?_
  rintro ⟨ts, hlex, hparse⟩
  exact Parser.parse_ne_limit (Token.lex_eq_ok_iff.mp hlex).canonical hparse

theorem stage_of_read (h : read text = .error (.failure failure)) : failure.stage ≠ .unit := by
  rcases bind_eq_error_iff.mp h with h | ⟨ts, -, h⟩
  · rw [Token.stage_of_lex h]
    decide
  · rw [Parser.stage_of_parse h]
    decide

end Expr

end UnitCalc
