import HeuristicEvolution.Text.Shown

/-!
# Quotations

A text as it is quoted in a message: in double quotes, with the quote, the backslash, line breaks,
tabs and the null character escaped, and other characters that do not show as their code points.
-/

namespace HeuristicEvolution.Text

/-- A character of a quotation. -/
def quotedChar (c : Char) : List Char :=
  if c = '"' then ['\\', '"']
  else if c = '\\' then ['\\', '\\']
  else if c = '\n' then ['\\', 'n']
  else if c = '\r' then ['\\', 'r']
  else if c = '\t' then ['\\', 't']
  else if c.toNat = 0 then ['\\', '0']
  else if isShown c then [c]
  else '\\' :: 'u' :: '\x7b' :: Nat.toDigits 16 c.toNat ++ ['\x7d']

/-- A text in quotes. -/
def quoted (s : String) : String := String.ofList ('"' :: s.toList.flatMap quotedChar ++ ['"'])

end HeuristicEvolution.Text
