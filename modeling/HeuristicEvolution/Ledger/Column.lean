import HeuristicEvolution.Candidate.Encoding
import HeuristicEvolution.Failure
import HeuristicEvolution.Json.Parser
import HeuristicEvolution.Json.Printer
import HeuristicEvolution.Text.Blank

/-!
# Columns that hold JSON

The structured parts of a candidate are kept as JSON in columns of its row. A column that the
ledger wrote holds a value; a column whose text was put there by other means is read when it is
asked for. An absent column and a blank text are the same, and differ from a stored `null`.

Values of any depth are written, but only those that do not nest too deep can be read again.

## Main statements

* `Column.read_value`, `Column.read_ofValue`: a value that was written is read back as it was, or it
  is too deep.
-/

namespace HeuristicEvolution

/-- A stored column. -/
inductive Column where
  | absent
  | value (j : Json)
  | text (s : String)
  deriving Inhabited

namespace Column

/-- The column that keeps a value, or nothing. -/
def ofValue : Option Json → Column
  | some j => .value j
  | none => .absent

/-- The text of a column. -/
def text? : Column → Option String
  | .absent => none
  | .value j => some j.compact
  | .text s => some s

/-- What a column holds, as `decode` reads it. A text that is not blank has to be a value that can
be read. -/
def read (decode : Json → Option α) : Column → Except Failure (Option α)
  | .absent => .ok none
  | .value j => if j.depth ≤ Json.depthLimit then found (decode j) else .error .badColumn
  | .text s =>
    if (Text.trimList s.toList).isEmpty then .ok none
    else found ((Json.parseRaw? s).bind decode)
where
  /-- A value was found, or the column is bad. -/
  found : Option α → Except Failure (Option α)
    | some a => .ok (some a)
    | none => .error .badColumn

/-- The column can be read as far as the depth of a value in it goes. -/
def Shallow : Column → Prop
  | .value j => j.depth ≤ Json.depthLimit
  | _ => True

instance (column : Column) : Decidable column.Shallow :=
  match column with
  | .absent | .text _ => .isTrue trivial
  | .value j => inferInstanceAs (Decidable (j.depth ≤ Json.depthLimit))

/-- A value that was written is read back as it was, or it is too deep. -/
theorem read_value {decode : Json → Option α} {j : Json} {a : α} (h : decode j = some a) :
    read decode (.value j) = if (value j).Shallow then .ok (some a) else .error .badColumn := by
  rw [read, h, read.found]
  rfl

theorem read_ofValue {decode : Json → Option α} {encode : α → Json} {a? : Option α}
    (h : ∀ a ∈ a?, decode (encode a) = some a) :
    read decode (ofValue (a?.map encode))
      = if (ofValue (a?.map encode)).Shallow then .ok a? else .error .badColumn := by
  cases a? with
  | none => rfl
  | some a => exact read_value (h a rfl)

end Column

end HeuristicEvolution
