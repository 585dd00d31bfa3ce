/-
Long numerals in groups of three digits.
-/

namespace EightBit.Text

/-- Reversed digits with a mark after every third, unless no digit follows. -/
def groupedReverse : List Char → List Char
  | first :: second :: third :: next :: rest =>
    first :: second :: third :: '_' :: groupedReverse (next :: rest)
  | short => short

/-- The digits of a numeral in groups of three, counted from the end. -/
def grouped (digits : String) : String :=
  String.ofList (groupedReverse digits.toList.reverse).reverse

end EightBit.Text
