import HeuristicEvolution.Json.Printer
import HeuristicEvolution.Ledger.Overwrite

/-!
# Ledgers as documents

A ledger is kept as one document: its runs, calls and candidates in order, and the id that the next
candidate gets. The columns of a candidate are kept as the texts that they hold.

## Main definitions

* `Ledger.toText`, `Ledger.ofText?`: writing and reading.
-/

namespace HeuristicEvolution

namespace Invocation

/-- A call as it is written. -/
def toJson (c : Invocation) : Json :=
  .obj [("run_id", .str c.runId), ("start", .ofNat c.start), ("stop", .ofNat c.stop),
    ("samples", .ofNat c.samples), ("model", .str c.model), ("commit", .ofText? c.commit),
    ("dirty", .ofBool? c.dirty)]

/-- Reads a call. -/
def ofJson? (j : Json) : Option Invocation := do
  let ms ← j.obj?
  return { runId := ← Json.required ms "run_id" Json.str?
           start := ← Json.required ms "start" (Json.nat? Json.bound64)
           stop := ← Json.required ms "stop" (Json.nat? Json.bound64)
           samples := ← Json.required ms "samples" (Json.nat? Json.bound64)
           model := ← Json.required ms "model" Json.str?
           commit := ← Json.optional ms "commit" Json.str?
           dirty := ← Json.optional ms "dirty" Json.bool? }

end Invocation

namespace Row

/-- A candidate as it is written. -/
def toJson (r : Row) : Json :=
  .obj [("id", .int r.id), ("run_id", .str r.runId), ("iter", .ofNat r.iter),
    ("sample", .ofNat r.sample), ("final_code", .ofText? r.finalCode),
    ("build_status", .ofBool? r.buildStatus), ("exec_status", .ofBool? r.execStatus),
    ("score", (r.score.map Json.ofFloat).getD .null), ("results", .ofText? r.results.text?),
    ("logs", .ofText? r.logs.text?), ("revisions", .ofText? r.revisions.text?),
    ("parent_ids", .ofText? r.parentIds.text?), ("parent_codes", .ofText? r.parentCodes.text?),
    ("recorded_at", .str r.recordedAt)]

/-- Reads a candidate. -/
def ofJson? (j : Json) : Option Row := do
  let ms ← j.obj?
  let column (name : String) : Option Column :=
    (Json.optional ms name Json.str?).map Column.ofText
  return { id := ← Json.required ms "id" Json.int64?
           runId := ← Json.required ms "run_id" Json.str?
           iter := ← Json.required ms "iter" (Json.nat? Json.bound32)
           sample := ← Json.required ms "sample" (Json.nat? Json.bound32)
           finalCode := ← Json.optional ms "final_code" Json.str?
           buildStatus := ← Json.optional ms "build_status" Json.bool?
           execStatus := ← Json.optional ms "exec_status" Json.bool?
           score := ← Json.optional ms "score" Json.number?
           results := ← column "results"
           logs := ← column "logs"
           revisions := ← column "revisions"
           parentIds := ← column "parent_ids"
           parentCodes := ← column "parent_codes"
           recordedAt := ← Json.required ms "recorded_at" Json.str? }

end Row

namespace Ledger

/-- The document of a ledger. -/
def toJson (l : Ledger) : Json :=
  .obj [("runs", .arr (l.runs.map RunInfo.toJson)),
    ("invocations", .arr (l.invocations.map Invocation.toJson)),
    ("candidates", .arr (l.rows.map Row.toJson)), ("next_id", .int l.nextId)]

/-- Reads a document. -/
def ofJson? (j : Json) : Option Ledger := do
  let ms ← j.obj?
  return { runs := ← Json.required ms "runs" (Json.listOf? RunInfo.ofJson?)
           invocations := ← Json.required ms "invocations" (Json.listOf? Invocation.ofJson?)
           rows := ← Json.required ms "candidates" (Json.listOf? Row.ofJson?)
           nextId := ← Json.required ms "next_id" Json.int64? }

/-- The text of a ledger. -/
def toText (l : Ledger) : String := l.toJson.compact ++ "\n"

/-- Reads the text of a ledger. -/
def ofText? (s : String) : Option Ledger := (Json.parse? s).bind ofJson?

end Ledger

end HeuristicEvolution
