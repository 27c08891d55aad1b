import HeuristicEvolution.Candidate.Basic

/-!
# Candidates as JSON

The form in which candidates are stored and shown. Members stand in a fixed order. The parents of
a candidate and the model of a usage are left out when they are absent; any other absent field is
written as `null`. Reading ignores unknown members, and a structure may also be given as the array
of its fields in order.

## Main definitions

* `Candidate.toJson`, `Candidate.ofJson?`, and the same for the parts of a candidate.
-/

namespace HeuristicEvolution

/-! ## Reading fields -/

namespace Json

/-- Bounds of the widths in which numbers are kept. -/
def bound32 : Nat := Nat.pow 2 32

/-- Bounds of the widths in which numbers are kept. -/
def bound64 : Nat := Nat.pow 2 64

/-- No field is named twice. Members that are no fields do not count. -/
def fieldsDistinct (names : List String) : List (String × Json) → Bool
  | [] => true
  | (k, _) :: rest =>
    !(names.contains k && rest.any fun m => m.1 == k) && fieldsDistinct names rest

/-- The members of a structure: an object's own, or an array's elements under the names of the
fields in order. The last `optional` fields may be missing from an array. -/
def structure? (names : List String) (optional : Nat) : Json → Option (List (String × Json))
  | .obj ms => if fieldsDistinct names ms then some ms else none
  | .arr xs =>
    if xs.length ≤ names.length && names.length ≤ xs.length + optional then some (names.zip xs)
    else none
  | _ => none

/-- A field that has to be there. -/
def required (ms : List (String × Json)) (name : String) (read : Json → Option α) : Option α :=
  (lookup name ms).bind read

/-- A field that may be missing or `null`; anything else has to be readable. -/
def optional (ms : List (String × Json)) (name : String) (read : Json → Option α) :
    Option (Option α) :=
  match lookup name ms with
  | none => some none
  | some .null => some none
  | some v => (read v).map some

/-- An array whose elements can all be read. -/
def listOf? (read : Json → Option α) : Json → Option (List α)
  | .arr xs => xs.mapM read
  | _ => none

/-- A whole number that fits 64 bits with a sign. -/
def int64? : Json → Option Int
  | .int i => if -Int.ofNat (Nat.pow 2 63) ≤ i && i < Int.ofNat (Nat.pow 2 63) then some i else none
  | _ => none

/-- A list of texts. -/
def texts? : Json → Option (List String) := listOf? str?

end Json

/-! ## Parts of a candidate -/

/-- A usage; the model is left out when it is unknown. -/
def Usage.toJson (u : Usage) : Json :=
  .obj ((match u.model with | some m => [("model", .str m)] | none => [])
    ++ [("prompt_tokens", .ofNat u.promptTokens), ("gen_tokens", .ofNat u.replyTokens)])

/-- Reads a usage. -/
def Usage.ofJson? (j : Json) : Option Usage := do
  let ms ← j.structure? ["model", "prompt_tokens", "gen_tokens"] 0
  let model ← Json.optional ms "model" Json.str?
  let promptTokens ← Json.required ms "prompt_tokens" (Json.nat? Json.bound64)
  let replyTokens ← Json.required ms "gen_tokens" (Json.nat? Json.bound64)
  return ⟨model, promptTokens, replyTokens⟩

/-- A response. -/
def Response.toJson (r : Response) : Json :=
  .obj [("full_response", .str r.full), ("text_segments", .ofTexts r.text),
    ("code_segments", .ofTexts r.code), ("code_languages", .ofTexts r.languages),
    ("usage_stats", r.usage.toJson)]

/-- Reads a response. -/
def Response.ofJson? (j : Json) : Option Response := do
  let ms ← j.structure?
    ["full_response", "text_segments", "code_segments", "code_languages", "usage_stats"] 0
  let full ← Json.required ms "full_response" Json.str?
  let text ← Json.required ms "text_segments" Json.texts?
  let code ← Json.required ms "code_segments" Json.texts?
  let languages ← Json.required ms "code_languages" Json.texts?
  let usage ← Json.required ms "usage_stats" Usage.ofJson?
  return ⟨full, text, code, languages, usage⟩

/-- A build attempt. -/
def Revision.toJson (r : Revision) : Json :=
  .obj [("attempt", .ofNat r.attempt), ("build_status", .bool r.built), ("stdout", .str r.stdout),
    ("stderr", .str r.stderr), ("prompt", .str r.prompt), ("response", r.response.toJson)]

/-- Reads a build attempt. -/
def Revision.ofJson? (j : Json) : Option Revision := do
  let ms ← j.structure? ["attempt", "build_status", "stdout", "stderr", "prompt", "response"] 0
  let attempt ← Json.required ms "attempt" (Json.nat? Json.bound32)
  let built ← Json.required ms "build_status" Json.bool?
  let stdout ← Json.required ms "stdout" Json.str?
  let stderr ← Json.required ms "stderr" Json.str?
  let prompt ← Json.required ms "prompt" Json.str?
  let response ← Json.required ms "response" Response.ofJson?
  return ⟨attempt, built, stdout, stderr, prompt, response⟩

/-- Parents. -/
def Parents.toJson (p : Parents) : Json :=
  .obj [("source_iter", .ofNat p.sourceIter), ("ids", .arr (p.ids.map .int)),
    ("codes", .ofTexts p.codes), ("scores", .arr (p.scores.map .ofFloat))]

/-- Reads parents. -/
def Parents.ofJson? (j : Json) : Option Parents := do
  let ms ← j.structure? ["source_iter", "ids", "codes", "scores"] 0
  let sourceIter ← Json.required ms "source_iter" (Json.nat? Json.bound32)
  let ids ← Json.required ms "ids" (Json.listOf? Json.int64?)
  let codes ← Json.required ms "codes" Json.texts?
  let scores ← Json.required ms "scores" (Json.listOf? Json.number?)
  return ⟨sourceIter, ids, codes, scores⟩

/-! ## Candidates -/

/-- A truth value or `null`. -/
def Json.ofBool? : Option Bool → Json
  | some b => .bool b
  | none => .null

namespace Candidate

/-- The names of a candidate's members in order. -/
def fieldNames : List String :=
  ["iter", "sample", "final_code", "build_status", "exec_status", "eval_results", "eval_logs",
   "revisions", "parent_ids", "parent_codes"]

/-- The members of a candidate in order. -/
def members (c : Candidate) : List (String × Json) :=
  [("iter", .ofNat c.iter), ("sample", .ofNat c.sample), ("final_code", .ofText? c.finalCode),
   ("build_status", .ofBool? c.buildStatus), ("exec_status", .ofBool? c.execStatus),
   ("eval_results", c.results.getD .null), ("eval_logs", c.logs.getD .null),
   ("revisions", .arr (c.revisions.map Revision.toJson))]
    ++ (match c.parentIds with | some ids => [("parent_ids", .arr (ids.map .int))] | none => [])
    ++ (match c.parentCodes with | some codes => [("parent_codes", .ofTexts codes)] | none => [])

/-- A candidate. -/
def toJson (c : Candidate) : Json := .obj c.members

/-- Reads a candidate from its members. -/
def ofMembers? (ms : List (String × Json)) : Option Candidate := do
  let iter ← Json.required ms "iter" (Json.nat? Json.bound32)
  let sample ← Json.required ms "sample" (Json.nat? Json.bound32)
  let finalCode ← Json.optional ms "final_code" Json.str?
  let buildStatus ← Json.optional ms "build_status" Json.bool?
  let execStatus ← Json.optional ms "exec_status" Json.bool?
  let results ← Json.optional ms "eval_results" some
  let logs ← Json.optional ms "eval_logs" some
  let revisions ← Json.required ms "revisions" (Json.listOf? Revision.ofJson?)
  let parentIds ← Json.optional ms "parent_ids" (Json.listOf? Json.int64?)
  let parentCodes ← Json.optional ms "parent_codes" Json.texts?
  return { iter, sample, finalCode, buildStatus, execStatus, results, logs, revisions, parentIds,
           parentCodes }

/-- Reads a candidate. -/
def ofJson? (j : Json) : Option Candidate := do
  ofMembers? (← j.structure? fieldNames 2)

end Candidate

/-- A stored candidate: its id and time, and then the members of the record in the same object. -/
def Stored.toJson (s : Stored) : Json :=
  .obj (("id", .int s.id) :: ("recorded_at", .str s.recordedAt) :: s.record.members)

/-- Reads a stored candidate. -/
def Stored.ofJson? (j : Json) : Option Stored := do
  let ms ← j.obj?
  let id ← Json.required ms "id" Json.int64?
  let recordedAt ← Json.required ms "recorded_at" Json.str?
  let record ← Candidate.ofMembers? ms
  return ⟨id, recordedAt, record⟩

/-- A run. -/
def RunInfo.toJson (r : RunInfo) : Json :=
  .obj [("run_id", .str r.runId), ("task", .str r.task), ("model", .str r.model),
    ("created_at", .str r.createdAt), ("info", r.info)]

/-- Reads a run; its further information may be missing. -/
def RunInfo.ofJson? (j : Json) : Option RunInfo := do
  let ms ← j.structure? ["run_id", "task", "model", "created_at", "info"] 1
  let runId ← Json.required ms "run_id" Json.str?
  let task ← Json.required ms "task" Json.str?
  let model ← Json.required ms "model" Json.str?
  let createdAt ← Json.required ms "created_at" Json.str?
  return ⟨runId, task, model, createdAt, (Json.lookup "info" ms).getD .null⟩

end HeuristicEvolution
