/-!
# Searching in text

Whether one text occurs in another.

## Main statements

* `hasPart_iff`: a part stands between what comes before and after it.
-/

namespace HeuristicEvolution.Text

/-- `part` occurs in the text. -/
def hasPart (part : List Char) : List Char → Bool
  | [] => part.isEmpty
  | c :: cs => part.isPrefixOf (c :: cs) || hasPart part cs

theorem hasPart_iff {part cs : List Char} : hasPart part cs = true ↔ part <:+: cs := by
  induction cs with
  | nil => simp [hasPart]
  | cons c cs ih => simp [hasPart, ih, List.infix_cons_iff]

end HeuristicEvolution.Text
