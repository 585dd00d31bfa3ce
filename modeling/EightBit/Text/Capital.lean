/-
Capital letters. Only names made of the letters A to Z are ever looked up, so the characters whose
capital is one of those letters are the ones that matter: the small letters, the long s and the
dotless i. Every other character keeps its place and never matches.
-/

namespace EightBit.Text

def capital (char : Char) : Char :=
  if 'a' ≤ char ∧ char ≤ 'z' then Char.ofNat (char.toNat - 32)
  else if char.toNat = 0x017F then 'S'
  else if char.toNat = 0x0131 then 'I'
  else char

def capitals (text : String) : String :=
  text.map capital

end EightBit.Text
