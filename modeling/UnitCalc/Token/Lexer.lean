import UnitCalc.Failure.Fault

/-!
# From text to tokens

`Token.lex` reads a text from left to right. A *lexeme* is a name or a number whose end has not been
seen; each character that is not blank continues the open lexeme or closes it and starts the next
token. Blanks are skipped without closing the lexeme, so `1 2` is one number.

The reading is a fold of `Lexer.step` over the characters, so the state after a text is the state
after any of its beginnings, continued: `Lexer.run_append`.
-/

namespace UnitCalc

/-! ## Decimal literals -/

namespace Literal

/-- The value of a run of decimal digits. -/
def whole (digits : List Char) : Nat := Nat.ofDigitChars 10 digits 0

/-- The value of the digit one at a place after the point: the quotient of one and the power of ten,
both as binary64 numbers. -/
def placeValue? (place : Nat) : Option Binary64 :=
  (Binary64.ofInt? (10 ^ place : Nat)).map (Binary64.one false / ·)

/-- The value of a digit. -/
def digit (c : Char) : Nat := c.toNat - '0'.toNat

/-- The number after one more digit, at the given place after the point. -/
def addDigit (x : Binary64) (placeValue : Binary64) (digit : Char) : Binary64 :=
  x + Binary64.ofRatio (digit.toNat - '0'.toNat) 1 * placeValue

end Literal

/-! ## Character classes -/

/-- The characters of names. -/
def isNameChar (c : Char) : Bool := c.isAlpha

/-! ## Lexemes -/

/-- A name or number whose end has not been seen. Its characters are kept latest first. -/
inductive Lexeme where
  | name (letters : List Char)
  /-- A number without a point: its value so far, and its digits. -/
  | whole (value : Nat) (digits : List Char)
  /-- A number with a point: its value so far, the place of the next digit, and its spelling. -/
  | decimal (value : Binary64) (place : Nat) (spelling : List Char)
  deriving DecidableEq

namespace Lexeme

/-- Continues a lexeme with a character, unless the character does not continue it. -/
def extend? (c : Char) : Lexeme → Except Limit (Option Lexeme)
  | name letters => .ok (if isNameChar c then some (name (c :: letters)) else none)
  | whole value digits =>
    if c.isDigit then .ok (some (whole (value * 10 + Literal.digit c) (c :: digits)))
    else if c = '.' then
      match Binary64.ofInt? value with
      | some x => .ok (some (decimal x 1 (c :: digits)))
      | none => .error .integerTooLarge
    else .ok none
  | decimal value place spelling =>
    if c.isDigit then
      match Literal.placeValue? place with
      | some p => .ok (some (decimal (Literal.addDigit value p c) (place + 1) (c :: spelling)))
      | none => .error .integerTooLarge
    else .ok none

/-- The token that a complete lexeme stands for. -/
def close : Lexeme → Token
  | name letters => .name (String.ofList letters.reverse)
  | whole value digits => .integer value (String.ofList digits.reverse)
  | decimal value _ spelling => .decimal value (String.ofList spelling.reverse)

end Lexeme

/-! ## The reader -/

namespace Lexer

/-- What a character that continues nothing starts. -/
inductive Start where
  | lexeme (lexeme : Lexeme)
  | token (token : Token)
  deriving DecidableEq

/-- What a character starts, if it starts anything. -/
def start? (c : Char) : Option Start :=
  if isNameChar c then some (.lexeme (.name [c]))
  else if c.isDigit then some (.lexeme (.whole (Literal.digit c) [c]))
  else if c = '+' ∨ c = '-' then some (.token (.additive (String.singleton c)))
  else if c = '*' ∨ c = '/' then some (.token (.multiplicative (String.singleton c)))
  else if c = '(' then some (.token .opening)
  else if c = ')' then some (.token .closing)
  else none

/-- Why reading stops before the end of the text. -/
inductive Stop where
  | character (c : Char) (position : Nat)
  | limit (limit : Limit)
  deriving DecidableEq

/-- What has been read: the number of characters, the tokens (latest first), and the open lexeme. -/
structure State where
  position : Nat := 0
  tokens : List Token := []
  pending : Option Lexeme := none
  deriving DecidableEq

/-- Closes the open lexeme. -/
def State.close (s : State) : State :=
  match s.pending with
  | some lexeme => { s with tokens := lexeme.close :: s.tokens, pending := none }
  | none => s

/-- Closes the open lexeme and starts the next token with a character. -/
def State.start (s : State) (c : Char) : Except Stop State :=
  match start? c with
  | some (.lexeme lexeme) =>
    .ok { s.close with position := s.position + 1, pending := some lexeme }
  | some (.token token) =>
    .ok { s.close with position := s.position + 1, tokens := token :: s.close.tokens }
  | none => .error (.character c s.position)

/-- Reads one character. -/
def step (s : State) (c : Char) : Except Stop State :=
  if Text.isBlank c then .ok { s with position := s.position + 1 }
  else match s.pending with
    | none => s.start c
    | some lexeme =>
      match lexeme.extend? c with
      | .error limit => .error (.limit limit)
      | .ok (some longer) => .ok { s with position := s.position + 1, pending := some longer }
      | .ok none => s.start c

/-- Reads characters in order. -/
def run (s : State) (cs : List Char) : Except Stop State := cs.foldlM step s

/-- The tokens read, in order. -/
def State.finish (s : State) : List Token := s.close.tokens.reverse

@[simp] theorem run_nil (s : State) : run s [] = .ok s := rfl

@[simp] theorem run_cons (s : State) (c : Char) (cs : List Char) :
    run s (c :: cs) = step s c >>= fun t ↦ run t cs := rfl

theorem run_append (s : State) (cs ds : List Char) :
    run s (cs ++ ds) = run s cs >>= fun t ↦ run t ds := List.foldlM_append

end Lexer

/-- The tokens of a list of characters. -/
def Token.ofChars (cs : List Char) : Except Lexer.Stop (List Token) :=
  (Lexer.run {} cs).map Lexer.State.finish

/-- The tokens of a text. -/
def Token.lex (text : String) : Except Fault (List Token) :=
  match Token.ofChars text.toList with
  | .ok tokens => .ok tokens
  | .error (.character c position) => .error (.failure (.lex c text position))
  | .error (.limit limit) => .error (.limit limit)

end UnitCalc
