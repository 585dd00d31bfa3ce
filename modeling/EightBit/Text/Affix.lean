/-
Texts that begin with a given one.
-/

namespace EightBit.Text

/-- The rest of a text that begins with `lead`. -/
def after? (lead text : String) : Option String :=
  if lead.toList.isPrefixOf text.toList then
    some (String.ofList (text.toList.drop lead.length))
  else none

def startsWith (lead text : String) : Bool :=
  lead.toList.isPrefixOf text.toList

end EightBit.Text
