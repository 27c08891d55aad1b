import HeuristicEvolution.Ledger.Basic

/-!
# Columns changed by other hands

A ledger is an open file, and other programs may write into its columns. What they put there is
any text; the score that queries rank by stays as it was recorded.
-/

namespace HeuristicEvolution

/-- The columns of a row that hold text. -/
inductive TextColumn where
  | finalCode
  | results
  | logs
  | revisions
  | parentIds
  | parentCodes
  | recordedAt
  deriving DecidableEq, Repr

/-- The column that holds a text, or nothing. -/
def Column.ofText : Option String → Column
  | some s => .text s
  | none => .absent

/-- A row with another text in one of its columns. Revisions and times cannot be absent. -/
def Row.overwrite? (r : Row) : TextColumn → Option String → Option Row
  | .finalCode, s => some { r with finalCode := s }
  | .results, s => some { r with results := .ofText s }
  | .logs, s => some { r with logs := .ofText s }
  | .parentIds, s => some { r with parentIds := .ofText s }
  | .parentCodes, s => some { r with parentCodes := .ofText s }
  | .revisions, some s => some { r with revisions := .text s }
  | .recordedAt, some s => some { r with recordedAt := s }
  | .revisions, none | .recordedAt, none => none

/-- Overwrites a column of the row in a slot, and gives the number of rows that were changed. -/
def Ledger.overwrite (l : Ledger) (runId : String) (iter sample : Nat) (column : TextColumn)
    (value : Option String) : Except Failure (Nat × Ledger) :=
  match l.row? runId iter sample with
  | none => .ok (0, l)
  | some r =>
    match r.overwrite? column value with
    | none => .error (.ledger none)
    | some changed =>
      .ok (1, { l with rows := l.rows.map fun old => if old.id = r.id then changed else old })

end HeuristicEvolution
