import UnitCalc.Expr.Layout
import UnitCalc.Proofs.Expr.Read

/-!
# Reading expressions as they are written

A tree as it is written consists of canonical tokens that may follow each other, and these tokens
derive the tree in the category of its outermost node. So the text is read as the tree, however many
further parentheses it has.
-/

namespace UnitCalc

open Token (IsCanonical Separated Apart IsSign)

variable {cs ds : List Char} {t : Token} {ts us : List Token} {e : Expr} {c d : Category}

/-! ## Digits -/

theorem isDigits_toDigits (n : Nat) : Token.IsDigits (Nat.toDigits 10 n) :=
  ⟨Nat.toDigits_ne_nil, fun _ hc ↦ Nat.isDigit_of_mem_toDigits (by decide) (by decide) hc⟩

theorem whole_toDigits (n : Nat) : Literal.whole (Nat.toDigits 10 n) = n :=
  Nat.ofDigitChars_ten_toDigits

/-- The token of a natural number. -/
def Token.ofNat (n : Nat) : Token := .integer n (.ofList (Nat.toDigits 10 n))

theorem Token.isCanonical_ofNat (n : Nat) : IsCanonical (ofNat n) := by
  have := IsCanonical.integer (isDigits_toDigits n)
  rwa [whole_toDigits] at this

theorem Token.chars_ofNat (n : Nat) : (ofNat n).chars = Nat.toDigits 10 n := by
  have hne : String.ofList (Nat.toDigits 10 n) ≠ "" := by simp
  rw [chars, ofNat, text, if_neg hne, String.toList_ofList]

/-! ## The tokens of a tree as it is written -/

def UnitLayout.tokens (u : UnitLayout) : List Token :=
  match u.power with
  | some k => [.name (.ofList u.letters), .ofNat k]
  | none => [.name (.ofList u.letters)]

def DecimalLayout.token (d : DecimalLayout) : Token :=
  .decimal (Literal.decimal d.whole d.fraction) (.ofList d.text)

def Operation.token (op : Operation) : Token :=
  if op.isAdditive then .additive op.text else .multiplicative op.text

def Layout.tokens : Layout → List Token
  | integer n => [.ofNat n]
  | decimal d => [d.token]
  | unit u => u.tokens
  | suffixed v u => enclosedIf v.needsBeforeUnit .opening .closing v.tokens ++ u.tokens
  | binary l op r =>
    enclosedIf (l.needsLeftOf op) .opening .closing l.tokens
      ++ op.token :: enclosedIf (r.needsRightOf op) .opening .closing r.tokens
  | parenthesized w => .opening :: w.tokens ++ [.closing]

theorem DecimalLayout.isCanonical_token (d : DecimalLayout) : IsCanonical d.token :=
  .decimal d.isDigits d.isDigit d.whole_lt d.length_le

theorem DecimalLayout.chars_token (d : DecimalLayout) : d.token.chars = d.text := by
  have hne : String.ofList d.text ≠ "" := by simp [text]
  rw [Token.chars, token, Token.text, if_neg hne, String.toList_ofList]

theorem Operation.isCanonical_token (op : Operation) : IsCanonical op.token := by
  cases op
  · exact .plus
  · exact .minus
  · exact .times
  · exact .over

theorem Operation.chars_token (op : Operation) : op.token.chars = op.text.toList := by
  cases op <;> rfl

theorem Operation.isSign_token (op : Operation) : IsSign op.token := by
  cases op <;> exact ⟨rfl, rfl⟩

/-! ## Operators between tokens and parentheses around them -/

namespace Token

namespace Spell

theorem append_operator (h : Spell ts cs) (h' : Spell us ds) (op : Operation) :
    Spell (ts ++ op.token :: us) (cs ++ op.text.toList ++ ds) := by
  have := h.append_sign h' op.isCanonical_token op.isSign_token
  rwa [op.chars_token] at this

theorem parentheses (h : Spell ts cs) :
    Spell (.opening :: ts ++ [.closing]) ('(' :: cs ++ [')']) := by
  have hopen : Spell (.opening :: ts) ('(' :: cs) := nil.append_sign h .opening ⟨rfl, rfl⟩
  have := hopen.append_sign nil .closing ⟨rfl, rfl⟩
  rwa [List.append_nil] at this

theorem enclose (h : Spell ts cs) (b : Bool) :
    Spell (enclosedIf b .opening .closing ts) (enclosedIf b '(' ')' cs) := by
  cases b with
  | false => exact h
  | true => exact h.parentheses

end Spell

end Token

namespace UnitLayout

theorem chars_name (u : UnitLayout) : Token.chars (.name (.ofList u.letters)) = u.letters :=
  String.toList_ofList

theorem isCanonical_name (u : UnitLayout) : IsCanonical (.name (.ofList u.letters)) :=
  .name u.ne_nil u.isNameChar

theorem spell_tokens (u : UnitLayout) : Token.Spell u.tokens u.text := by
  have hname := u.isCanonical_name.spell
  rw [chars_name] at hname
  unfold tokens text
  cases u.power with
  | none => exact hname
  | some k =>
    have hpower := (Token.isCanonical_ofNat k).spell
    rw [Token.chars_ofNat] at hpower
    refine hname.append hpower ?_
    rintro _ ⟨rfl⟩ _ ⟨rfl⟩
    exact ⟨fun h ↦ Bool.noConfusion h.2, fun h ↦ Bool.noConfusion h.1⟩

theorem head?_tokens (u : UnitLayout) : u.tokens.head? = some (.name (.ofList u.letters)) := by
  unfold tokens
  cases u.power <;> rfl

theorem derivesUnit (u : UnitLayout) : DerivesUnit u.tokens u.expr := by
  unfold tokens expr
  cases u.power with
  | none => exact .plain _
  | some k => exact .power _ k _

end UnitLayout

namespace Layout

/-- A value that needs no parentheses before a unit does not end in a name. -/
theorem isName_getLast?_tokens {w : Layout} (h : w.needsBeforeUnit = false) :
    ∀ t ∈ w.tokens.getLast?, t.isName = false := by
  have hpower {u : UnitLayout} (hu : u.power.isNone = false) (ts : List Token) :
      ∀ t ∈ (ts ++ u.tokens).getLast?, t.isName = false := by
    cases hk : u.power with
    | none =>
      rw [hk] at hu
      cases hu
    | some k =>
      rw [UnitLayout.tokens, hk, List.getLast?_append]
      rintro _ ⟨rfl⟩
      rfl
  cases w with
  | integer | decimal =>
    rintro _ ⟨rfl⟩
    rfl
  | unit u => exact hpower h []
  | suffixed v u => exact hpower h _
  | binary => cases h
  | parenthesized w =>
    rw [tokens, List.getLast?_concat]
    rintro _ ⟨rfl⟩
    rfl

/-- A unit may follow its value. -/
theorem apart_unit (w : Layout) (u : UnitLayout) :
    ∀ t ∈ (enclosedIf w.needsBeforeUnit .opening .closing w.tokens).getLast?,
      ∀ v ∈ u.tokens.head?, Apart t v := by
  intro t ht v hv
  have hname : t.isName = false := by
    cases hneeds : w.needsBeforeUnit with
    | false =>
      rw [hneeds] at ht
      exact isName_getLast?_tokens hneeds t ht
    | true =>
      rw [hneeds, enclosedIf, if_pos rfl, List.getLast?_concat] at ht
      cases ht
      rfl
  rw [u.head?_tokens] at hv
  cases hv
  exact ⟨fun h ↦ Bool.false_ne_true (hname ▸ h.1), fun h ↦ Bool.noConfusion h.2⟩

/-- The tokens of a tree spell its text. -/
theorem spell_tokens (w : Layout) : Token.Spell w.tokens w.text := by
  induction w with
  | integer n =>
    have := (Token.isCanonical_ofNat n).spell
    rwa [Token.chars_ofNat] at this
  | decimal d =>
    have := d.isCanonical_token.spell
    rwa [d.chars_token] at this
  | unit u => exact u.spell_tokens
  | suffixed v u ih => exact (ih.enclose _).append u.spell_tokens (apart_unit v u)
  | binary l op r ihl ihr => exact (ihl.enclose _).append_operator (ihr.enclose _) op
  | parenthesized w ih => exact ih.parentheses

/-! ## The tokens derive the tree -/

/-- The category of the outermost node. -/
def category : Layout → Category
  | suffixed .. => .operand
  | binary _ op _ => if op.isAdditive then .sum else .product
  | _ => .primary

theorem category_ne_sum {w : Layout} (h : w.isSum = false) : w.category ≠ .sum := by
  cases w with
  | binary l op r =>
    have hop : op.isAdditive = false := h
    simp [category, hop]
  | _ => simp [category]

theorem category_ne_product {w : Layout} (h : w.isProduct = false) : w.category ≠ .product := by
  cases w with
  | binary l op r =>
    have hop : op.isAdditive = true := by simpa [isProduct] using h
    simp [category, hop]
  | _ => simp [category]

end Layout

namespace Derives

/-- A primary belongs to every category. -/
theorem to_any (h : Derives .primary ts e) (c : Category) : Derives c ts e := by
  cases c
  · exact .ofProduct (.ofOperand (.ofPrimary h))
  · exact .ofOperand (.ofPrimary h)
  · exact .ofPrimary h
  · exact h

/-- Every category belongs to the sums. -/
theorem to_sum (h : Derives c ts e) : Derives .sum ts e := by
  cases c
  · exact h
  · exact .ofProduct h
  · exact .ofProduct (.ofOperand h)
  · exact h.to_any .sum

theorem to_product (h : Derives c ts e) (hc : c ≠ .sum) : Derives .product ts e := by
  cases c
  · exact absurd rfl hc
  · exact h
  · exact .ofOperand h
  · exact h.to_any .product

theorem to_operand (h : Derives c ts e) (hs : c ≠ .sum) (hp : c ≠ .product) :
    Derives .operand ts e := by
  cases c
  · exact absurd rfl hs
  · exact absurd rfl hp
  · exact h
  · exact .ofPrimary h

/-- Parentheses are put around what does not belong to a category without them. -/
theorem enclose {b : Bool} (h : Derives c ts e) (hd : b = false → Derives d ts e) :
    Derives d (enclosedIf b .opening .closing ts) e := by
  cases b with
  | false => exact hd rfl
  | true => exact (parentheses h.to_sum).to_any d

end Derives

theorem Layout.derives (w : Layout) : Derives w.category w.tokens w.expr := by
  induction w with
  | integer n => exact .integer n _
  | decimal d => exact .decimal _ _
  | unit u => exact .unit u.derivesUnit
  | suffixed v u ih =>
    refine .suffixed (ih.enclose fun hv ↦ ?_) u.derivesUnit
    refine ih.to_operand (category_ne_sum ?_) (category_ne_product ?_)
    · cases v <;> first | rfl | cases hv
    · cases v <;> first | rfl | cases hv
  | binary l op r ihl ihr =>
    cases hop : op.isAdditive with
    | true =>
      -- a sum may start with a sum, but not end with one
      have hl : l.needsLeftOf op = false := by rw [needsLeftOf, hop]; rfl
      have hr : r.needsRightOf op = r.isSum := by simp [needsRightOf, hop]
      rw [category, tokens, expr, Operation.token, if_pos hop, if_pos hop, hl, hr]
      exact .sum op.text ihl.to_sum
        (ihr.enclose fun h ↦ ihr.to_product (category_ne_sum h))
    | false =>
      -- a product may start with a product, but not end with one, and has no sum in it
      have hl : l.needsLeftOf op = l.isSum := by simp [needsLeftOf, hop]
      have hr : r.needsRightOf op = (r.isSum || r.isProduct) := by simp [needsRightOf, hop]
      rw [category, tokens, expr, Operation.token, hop, if_neg Bool.false_ne_true,
        if_neg Bool.false_ne_true, hl, hr]
      refine .product op.text (ihl.enclose fun h ↦ ihl.to_product (category_ne_sum h))
        (ihr.enclose fun h ↦ ?_)
      obtain ⟨hs, hp⟩ := Bool.or_eq_false_iff.mp h
      exact ihr.to_operand (category_ne_sum hs) (category_ne_product hp)
  | parenthesized w ih => exact .parentheses ih.to_sum

/-! ## Reading -/

namespace Expr

/-- The plain trees are those that can be written. -/
theorem isPlain_iff_exists_layout : e.IsPlain ↔ ∃ w : Layout, w.expr = e := by
  constructor
  · intro h
    induction h with
    | integer n => exact ⟨.integer n, rfl⟩
    | decimal d => exact ⟨.decimal d, rfl⟩
    | unit u => exact ⟨.unit u, rfl⟩
    | suffixed u _ ih =>
      obtain ⟨w, rfl⟩ := ih
      exact ⟨.suffixed w u, rfl⟩
    | binary op _ _ ihl ihr =>
      obtain ⟨l, rfl⟩ := ihl
      obtain ⟨r, rfl⟩ := ihr
      exact ⟨.binary l op r, rfl⟩
  · rintro ⟨w, rfl⟩
    induction w with
    | integer n => exact .integer n
    | decimal d => exact .decimal d
    | unit u => exact .unit u
    | suffixed v u ih => exact .suffixed u ih
    | binary l op r ihl ihr => exact .binary op ihl ihr
    | parenthesized w ih => exact ih

/-- A text of a tree is read as the tree. -/
theorem read_of_text_eq (w : Layout) {text : String}
    (h : Text.withoutBlanks text.toList = w.text) : Expr.read text = .ok w.expr :=
  read_eq_ok_iff.mpr ⟨w.tokens, h ▸ w.spell_tokens, w.derives.to_sum⟩

/-- Every plain tree can be written, and whichever way it is written, with any further parentheses
and any blanks, it is read back unchanged. -/
theorem read_of_isPlain (he : e.IsPlain) : (∃ w : Layout, w.expr = e) ∧
    ∀ (w : Layout) (text : String), w.expr = e → Text.withoutBlanks text.toList = w.text →
      Expr.read text = .ok e := by
  refine ⟨isPlain_iff_exists_layout.mp he, ?_⟩
  rintro w text rfl h
  exact read_of_text_eq w h

theorem read_of_isPlain_sum_before_unit :
    (suffixed (binary (integer 1) "+" (integer 2)) (unit "m")).IsPlain ∧
      read " ((1) + 2) m" = .ok (suffixed (binary (integer 1) "+" (integer 2)) (unit "m")) := by
  let metre : UnitLayout := ⟨['m'], by simp, List.forall_mem_singleton.mpr rfl, none⟩
  have he : (suffixed (binary (integer 1) "+" (integer 2)) (unit "m")).IsPlain :=
    .suffixed metre (.binary .add (.integer 1) (.integer 2))
  refine ⟨he, ?_⟩
  exact (read_of_isPlain he).2
    (.suffixed (.binary (.parenthesized (.integer 1)) .add (.integer 2)) metre) _ rfl (by decide)

end Expr

end UnitCalc
