import UnitCalc.Failure.Message
import UnitCalc.Proofs.Expr.Misfit

/-!
# Which token a parse error blames

The reader stops at the first token that no expression can have there, and what its error says
about that token can be read off the tokens before it. Those tokens show the state they lead to: an
operand is due exactly after an operator or an opening parenthesis and at the start, and each
parenthesis that is open is one more opening than closing. `Shows` is this invariant of the reader.

An error at a token then has one of three messages, by what precedes the token: a complete
expression, a complete operand in an open parenthesis, or no operand. An error at the end of the
tokens is described in the same way by all of them.
-/

namespace UnitCalc

/-- Whether an operand may end with the token. After any other token an operand is due. -/
def Token.endsOperand : Token → Bool
  | name _ | integer .. | decimal .. | closing => true
  | additive _ | multiplicative _ | opening => false

namespace Parser

variable {us tokens rest : List Token} {token : Token} {s t : State} {error : ParseError}
  {count : Nat}

/-! ## What the tokens show -/

/-- An operand is due after the tokens: there are none, or the last one ends no operand. -/
def OperandDue (tokens : List Token) : Prop :=
  ∀ token ∈ tokens.getLast?, token.endsOperand = false

/-- The tokens end a complete operand. -/
def EndsOperand (tokens : List Token) : Prop :=
  ∃ token ∈ tokens.getLast?, token.endsOperand = true

/-- More parentheses are opened than closed. -/
def HasUnclosed (tokens : List Token) : Prop :=
  tokens.count .closing < tokens.count .opening

theorem not_operandDue_iff : ¬OperandDue tokens ↔ EndsOperand tokens := by
  simp [OperandDue, EndsOperand]

/-- What the tokens read so far show of the state they lead to. -/
structure Shows (tokens : List Token) (s : State) : Prop where
  operand : s.operand = .due ↔ OperandDue tokens
  parentheses : tokens.count .opening = tokens.count .closing + s.outer.length

theorem Shows.initial : Shows [] {} where
  operand := iff_of_true rfl nofun
  parentheses := rfl

/-- After a step an operand is due if the token ends none. -/
theorem operand_eq_due_iff_of_step (h : s.step token rest = .ok t) :
    t.operand = .due ↔ token.endsOperand = false := by
  obtain ⟨outer, context, operand⟩ := s
  cases operand with
  | due => cases token <;> cases h <;> simp [Token.endsOperand]
  | complete | named => cases token <;> cases outer <;> cases h <;> simp [Token.endsOperand]

/-- A step opens a parenthesis, closes one, or leaves them as they are. -/
theorem length_outer_of_step (h : s.step token rest = .ok t) :
    [token].count .opening + s.outer.length = [token].count .closing + t.outer.length := by
  obtain ⟨outer, context, operand⟩ := s
  cases operand with
  | due => cases token <;> cases h <;> simp [Nat.add_comm]
  | complete | named => cases token <;> cases outer <;> cases h <;> simp [Nat.add_comm]

/-- What a step preserves. -/
theorem Shows.step (hs : Shows tokens s) (h : s.step token rest = .ok t) :
    Shows (tokens ++ [token]) t where
  operand := by
    rw [operand_eq_due_iff_of_step h, OperandDue, List.getLast?_concat]
    simp
  parentheses := by
    have hopen := hs.parentheses
    have hlength := length_outer_of_step h
    rw [List.count_append, List.count_append]
    omega

/-- What a run preserves. -/
theorem Shows.run (hs : Shows us s) (h : run s tokens = .ok t) : Shows (us ++ tokens) t := by
  induction tokens generalizing us s with
  | nil =>
    cases h
    rwa [List.append_nil]
  | cons token rest ih =>
    obtain ⟨s', hs', h⟩ := bind_eq_ok_iff.mp h
    have hrest := ih (hs.step hs') h
    rwa [List.append_assoc] at hrest

theorem Shows.hasUnclosed_iff (hs : Shows tokens s) : HasUnclosed tokens ↔ s.outer ≠ [] := by
  have hopen := hs.parentheses
  rw [HasUnclosed, ← List.length_pos_iff]
  omega

theorem Shows.endsOperand_iff (hs : Shows tokens s) : EndsOperand tokens ↔ s.operand ≠ .due := by
  rw [← not_operandDue_iff, ← hs.operand]

/-! ## Complete expressions -/

theorem value?_ne_none_iff {operand : Operand} : operand.value? ≠ none ↔ operand ≠ .due := by
  cases operand <;> simp [Operand.value?]

/-- The tokens read so far are an expression exactly if an operand is complete outside all
parentheses. -/
theorem exists_derives_iff (h : run {} tokens = .ok s) :
    (∃ e, Derives .sum tokens e) ↔ s.operand ≠ .due ∧ s.outer = [] := by
  rw [← value?_ne_none_iff]
  constructor
  · rintro ⟨e, he⟩
    obtain ⟨t, ht, hfinish⟩ := finish_of_derives he
    rw [h] at ht
    cases ht
    unfold State.finish at hfinish
    split at hfinish
    · cases hfinish
    · next hv ho => exact ⟨by simp [hv], ho⟩
    · cases hfinish
  · rintro ⟨hv, ho⟩
    obtain ⟨e, he⟩ := Option.ne_none_iff_exists'.mp hv
    refine ⟨s.context.close e, (Reads.initial.run h).finish ?_⟩
    simp only [State.finish, he, ho]

/-! ## The errors -/

/-- The errors of a step, by the operand and the parentheses that are open before it. -/
theorem error_of_step (h : s.step token rest = .error error) :
    (s.operand = .due ∧ error = .unexpected token) ∨
    (s.operand ≠ .due ∧ s.outer = [] ∧ error = .leftover token (rest.length + 1)) ∨
    (s.operand ≠ .due ∧ s.outer ≠ [] ∧ error = .unclosed (some token)) := by
  obtain ⟨outer, context, operand⟩ := s
  cases operand with
  | due => cases token <;> cases h <;> simp
  | complete | named => cases token <;> cases outer <;> cases h <;> simp

/-- The errors at the end of the tokens. -/
theorem error_of_finish (h : s.finish = .error error) :
    (s.operand = .due ∧ error = .endOfTokens) ∨
    (s.operand ≠ .due ∧ s.outer ≠ [] ∧ error = .unclosed none) := by
  unfold State.finish at h
  split at h
  · next hv =>
    cases h
    exact .inl ⟨not_not.mp fun hdue ↦ value?_ne_none_iff.mpr hdue hv, rfl⟩
  · cases h
  · next hv ho =>
    cases h
    exact .inr ⟨value?_ne_none_iff.mp (by simp [hv]), by simp [ho], rfl⟩

/-! ### Their messages -/

theorem head?_toList_append {text : String} {c : Char} (h : text.toList.head? = some c)
    (rest : String) : (text ++ rest).toList.head? = some c := by
  rw [String.toList_append, List.head?_append, h]
  rfl

/-- The three messages about a token begin with different letters. -/
theorem head?_message (token : Token) (count : Nat) :
    (ParseError.leftover token count).message.toList.head? = some 'p' ∧
    (ParseError.unclosed (some token)).message.toList.head? = some 'e' ∧
    (ParseError.unexpected token).message.toList.head? = some 'u' := by
  refine ⟨?_, ?_, ?_⟩
  · change (_ ++ _ ++ _ ++ _ ++ _ : String).toList.head? = _
    iterate 4 refine head?_toList_append ?_ _
    decide
  · change (_ ++ _ : String).toList.head? = _
    exact head?_toList_append (by decide) _
  · change (_ ++ _ : String).toList.head? = _
    exact head?_toList_append (by decide) _

theorem nodup_message (token : Token) (count : Nat) :
    (ParseError.leftover token count).message ≠ (ParseError.unclosed (some token)).message ∧
    (ParseError.leftover token count).message ≠ (ParseError.unexpected token).message ∧
    (ParseError.unclosed (some token)).message ≠ (ParseError.unexpected token).message := by
  obtain ⟨hp, he, hu⟩ := head?_message token count
  have hne {a b : String} {c d : Char} (ha : a.toList.head? = some c)
      (hb : b.toList.head? = some d) (hcd : c ≠ d) : a ≠ b := by
    rintro rfl
    exact hcd (Option.some.inj (ha.symm.trans hb))
  exact ⟨hne hp he (by decide), hne hp hu (by decide), hne he hu (by decide)⟩

theorem nodup_message_end :
    ParseError.empty.message ≠ ParseError.endOfTokens.message ∧
    ParseError.empty.message ≠ (ParseError.unclosed none).message ∧
    ParseError.endOfTokens.message ≠ (ParseError.unclosed none).message := by
  decide

/-! ## The first token that is wrong -/

/-- What is true of a message that blames a token, with `before` in front of it and `count` tokens
left from it on: no expression begins with the tokens up to it, and which message it is depends on
what `before` ends with. -/
structure BlamesToken (before : List Token) (token : Token) (count : Nat) (message : String) :
    Prop where
  not_isViable : ¬IsViable (before ++ [token])
  leftover_iff : message = "parser did not consume all tokens: unexpected " ++
      Text.quoted token.text ++ " (" ++ toString count ++ " token(s) left)" ↔
    ∃ e, Derives .sum before e
  unclosed_iff : message = "expected ')' but found " ++ Text.quoted token.text ↔
    HasUnclosed before ∧ EndsOperand before
  unexpected_iff : message = "unexpected token " ++ Text.quoted token.text ↔ OperandDue before
  mem : message ∈ [(ParseError.leftover token count).message,
    (ParseError.unclosed (some token)).message, (ParseError.unexpected token).message]

/-- What is true of a message that blames the end of the tokens. -/
structure BlamesEnd (tokens : List Token) (message : String) : Prop where
  empty_iff : message = "empty expression" ↔ tokens = []
  endOfTokens_iff : message = "unexpected end of expression" ↔ tokens ≠ [] ∧ OperandDue tokens
  unclosed_iff : message = "expected ')' but found end of expression" ↔
    HasUnclosed tokens ∧ EndsOperand tokens
  mem : message ∈ [ParseError.empty.message, ParseError.endOfTokens.message,
    (ParseError.unclosed none).message]

/-- A step that fails does so whatever follows, so its token fits no expression. -/
theorem not_isViable_of_step (hr : run {} tokens = .ok s)
    (h : s.step token rest = .error error) : ¬IsViable (tokens ++ [token]) := by
  intro hviable
  obtain ⟨t, ht⟩ := isViable_iff.mp hviable
  rw [run_append_of_ok hr] at ht
  obtain ⟨s', hs', -⟩ := bind_eq_ok_iff.mp ht
  rw [step_congr hs'] at h
  cases h

theorem blamesToken_of_step (hr : run {} tokens = .ok s) (h : s.step token rest = .error error) :
    BlamesToken tokens token (rest.length + 1) error.message := by
  have hshows : Shows tokens s := Shows.initial.run hr
  have hmisfit := not_isViable_of_step hr h
  obtain ⟨hlu, hlx, hux⟩ := nodup_message token (rest.length + 1)
  rcases error_of_step h with ⟨hdue, rfl⟩ | ⟨hdue, ho, rfl⟩ | ⟨hdue, ho, rfl⟩
  · have hends : ¬EndsOperand tokens := fun he ↦ hshows.endsOperand_iff.mp he hdue
    have haccepted : ¬∃ e, Derives .sum tokens e := fun he ↦
      ((exists_derives_iff hr).mp he).1 hdue
    exact ⟨hmisfit, iff_of_false hlx.symm haccepted, iff_of_false hux.symm (hends ·.2),
      iff_of_true rfl (hshows.operand.mp hdue), by simp⟩
  · have hclosed : ¬HasUnclosed tokens := fun hu ↦ hshows.hasUnclosed_iff.mp hu ho
    exact ⟨hmisfit, iff_of_true rfl ((exists_derives_iff hr).mpr ⟨hdue, ho⟩),
      iff_of_false hlu (hclosed ·.1), iff_of_false hlx (hdue ∘ hshows.operand.mpr), by simp⟩
  · have haccepted : ¬∃ e, Derives .sum tokens e := fun he ↦
      ho ((exists_derives_iff hr).mp he).2
    have hunclosed := hshows.hasUnclosed_iff.mpr ho
    exact ⟨hmisfit, iff_of_false hlu.symm haccepted,
      iff_of_true rfl ⟨hunclosed, hshows.endsOperand_iff.mpr hdue⟩,
      iff_of_false hux (hdue ∘ hshows.operand.mpr), by simp⟩

theorem blamesEnd_of_finish (hne : tokens ≠ []) (hr : run {} tokens = .ok s)
    (h : s.finish = .error error) : BlamesEnd tokens error.message := by
  have hshows : Shows tokens s := Shows.initial.run hr
  obtain ⟨hen, heu, hnu⟩ := nodup_message_end
  rcases error_of_finish h with ⟨hdue, rfl⟩ | ⟨hdue, ho, rfl⟩
  · have hends : ¬EndsOperand tokens := fun he ↦ hshows.endsOperand_iff.mp he hdue
    exact ⟨iff_of_false hen.symm hne, iff_of_true rfl ⟨hne, hshows.operand.mp hdue⟩,
      iff_of_false hnu (hends ·.2), by simp⟩
  · have hunclosed := hshows.hasUnclosed_iff.mpr ho
    have hnot : ¬OperandDue tokens := hdue ∘ hshows.operand.mpr
    exact ⟨iff_of_false heu.symm hne, iff_of_false hnu.symm (hnot ·.2),
      iff_of_true rfl ⟨hunclosed, hshows.endsOperand_iff.mpr hdue⟩, by simp⟩

theorem blamesEnd_nil : BlamesEnd [] ParseError.empty.message := by
  obtain ⟨hen, heu, -⟩ := nodup_message_end
  have hclosed : ¬HasUnclosed [] := Nat.lt_irrefl 0
  exact ⟨iff_of_true rfl rfl, iff_of_false hen (·.1 rfl), iff_of_false heu (hclosed ·.1), by simp⟩

theorem ofTokens_of_parse (h : Expr.parse tokens = .error (.failure (.parse error))) :
    Expr.ofTokens tokens = .error error := by
  rw [Expr.parse] at h
  cases ho : Expr.ofTokens tokens with
  | ok e =>
    rw [ho] at h
    cases h
  | error error' =>
    rw [ho] at h
    cases hw : error'.isWritable <;> simp_all [ParseError.fault]

/-- A parse error blames the first token with which the tokens are no beginning of an expression any
more, and says what is in front of it; if there is no such token it blames the end in the same way.
-/
theorem parse_blames (h : Expr.parse tokens = .error (.failure (.parse error))) :
    ∃ k ≤ tokens.length, IsViable (tokens.take k) ∧
      (∀ token, tokens[k]? = some token →
        BlamesToken (tokens.take k) token (tokens.length - k) error.message) ∧
      (k = tokens.length → BlamesEnd tokens error.message) := by
  have ho := ofTokens_of_parse h
  unfold Expr.ofTokens at ho
  split at ho
  · next hnil =>
    subst hnil
    cases ho
    exact ⟨0, Nat.le_refl _, isViable_iff.mpr ⟨_, rfl⟩, nofun, fun _ ↦ blamesEnd_nil⟩
  · next hne =>
    rcases bind_eq_error_iff.mp ho with hr | ⟨s, hr, hs⟩
    · obtain ⟨before, token, after, s, rfl, hb, hs⟩ := exists_step_of_run hr
      refine ⟨before.length, by simp, ?_, ?_, ?_⟩
      · rw [List.take_left]
        exact isViable_iff.mpr ⟨s, hb⟩
      · intro token' htoken'
        have hcount : (before ++ token :: after).length - before.length = after.length + 1 := by
          simp
        rw [List.getElem?_append_right (Nat.le_refl _), Nat.sub_self] at htoken'
        cases htoken'
        rw [List.take_left, hcount]
        exact blamesToken_of_step hb hs
      · intro hlength
        simp at hlength
    · refine ⟨tokens.length, Nat.le_refl _, ?_, ?_, fun _ ↦ blamesEnd_of_finish hne hr hs⟩
      · rw [List.take_length]
        exact isViable_iff.mpr ⟨s, hr⟩
      · intro token htoken
        simp at htoken

/-- An integer after a unit with its power is blamed, since the parenthesis is still open. -/
theorem parse_blames_second_power :
    let tokens : List Token := [.opening, .name "m", .integer 2 "2", .integer 3 "3", .closing]
    Expr.parse tokens = .error (.failure (.parse (.unclosed (some (.integer 3 "3"))))) ∧
      ∃ k ≤ tokens.length, IsViable (tokens.take k) ∧
        (∀ token, tokens[k]? = some token → BlamesToken (tokens.take k) token (tokens.length - k)
          (ParseError.unclosed (some (.integer 3 "3"))).message) ∧
        (k = tokens.length →
          BlamesEnd tokens (ParseError.unclosed (some (.integer 3 "3"))).message) := by
  intro tokens
  have h : Expr.parse tokens
      = .error (.failure (.parse (.unclosed (some (.integer 3 "3"))))) := by decide
  exact ⟨h, parse_blames h⟩

end Parser

end UnitCalc
