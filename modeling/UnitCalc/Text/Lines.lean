/-!
# Lines

A line ends in a line feed, a carriage return, or both in this order.
-/

namespace UnitCalc

namespace Text

/-- The lines of a text without their ends. The last line needs no end. -/
def lines (s : String) : List String :=
  go [] s.toList
where
  /-- The lines of the rest of the text, the first of them continuing `line` (latest first). -/
  go (line : List Char) : List Char → List String
    | [] => if line = [] then [] else [String.ofList line.reverse]
    | '\r' :: '\n' :: cs => String.ofList line.reverse :: go [] cs
    | c :: cs =>
      if c = '\n' ∨ c = '\r' then String.ofList line.reverse :: go [] cs else go (c :: line) cs

end Text

end UnitCalc
