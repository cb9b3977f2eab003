/-!
# Capital letters

The upper case of Unicode, as far as it ends in ASCII: names in ASCII are compared by it. Besides
the ASCII letters there are ten letters and ligatures with such capitals, and some of them have
several.
-/

namespace UnitCalc

namespace Text

/-- The letters outside ASCII whose capitals are in ASCII. -/
def asciiCapitals : List (Char × String) :=
  [ ('ß', "SS"), ('ı', "I"), ('ſ', "S"), ('ﬀ', "FF"), ('ﬁ', "FI"), ('ﬂ', "FL"), ('ﬃ', "FFI"),
    ('ﬄ', "FFL"), ('ﬅ', "ST"), ('ﬆ', "ST") ]

/-- The capitals of a character. -/
def capitals (c : Char) : List Char :=
  match asciiCapitals.lookup c with
  | some s => s.toList
  | none => [c.toUpper]

/-- A text in capitals. -/
def toCapitals (s : String) : String := String.ofList (s.toList.flatMap capitals)

end Text

end UnitCalc
