import HeuristicEvolution.Proofs.Candidate.Fields
import HeuristicEvolution.Proofs.CommandLine.Documents
import HeuristicEvolution.Proofs.Ledger.Reading
import HeuristicEvolution.Proofs.Task.Outcomes
import HeuristicEvolution.Proofs.Task.Timeouts

/-!
# Candidates that leave the program

A candidate is shown as an object, alone or with its id and its time among the members of the
record, and whoever gets the object can make the candidate of it again. Two things could stand in
the way. The object is nested four deep (a record, its revisions, the response of each, and the
usage of that), and the levels differ in what becomes of a field that is absent: the model of a
usage and the parents of a record are left out, and all else is written as `null`. And others may
have been at work on it: a later version may have added members at any level, and a summary has put
all members into order.

Neither does any harm. A reader takes what it needs by name, so it is enough that what is needed is
there and stands there once. The one thing that is lost is a value that is itself `null`, for it
reads like an absent one; no experiment has such results or logs.

## Main definitions

* `Candidate.Exportable`, `Stored.Exportable`: numbers fit, and no value is `null`.
* `Candidate.Padded`, `Stored.Padded`: unknown members were added, at any level.
* `Candidate.Ordered`: the members within the values of a record are in order.

## Main results

* `Candidate.ofJson?_toJson`, `Stored.ofJson?_toJson`: what is written is read.
* `Candidate.Padded.readAlike`, `Stored.Padded.readAlike`: unknown members do not matter.
* `Candidate.Ordered.readAlike`, `Stored.readAlike_sorted`: nor does the order of members.
* `Row.ordered_of_candidate`: what the ledger hands out is in order.
* `Ledger.listOf?_summary`: the best candidates are read from a summary.
* `exported_records_read_back`: the documents that two commands print are read back.
-/

namespace HeuristicEvolution

open CommandLine (Order)
open Evolution (bind_of_ok)
open Json (Agree Alike ReadAlike within lookup bound32)

variable {ms ns : List (String × Json)} {j j' : Json}

/-! ## Readers of structures

Each reader cannot tell members apart that agree on its fields. The field with a structure in it is
left to the reader of that structure. -/

namespace Usage

/-- The names of a usage's members in order. -/
def fieldNames : List String := ["model", "prompt_tokens", "gen_tokens"]

theorem readAlike_of_agree (h : Agree fieldNames (fun _ => Eq) ms ns) :
    ReadAlike ofJson? (.obj ms) (.obj ns) := by
  have hlookup : ∀ name ∈ fieldNames, lookup name ns = lookup name ms :=
    fun name hname => h.alike.lookup_eq hname rfl
  refine h.structure?_bind 0 ?_
  simp (disch := decide) only [Json.required, Json.optional, hlookup]

end Usage

namespace Response

/-- The names of a response's members in order. -/
def fieldNames : List String :=
  ["full_response", "text_segments", "code_segments", "code_languages", "usage_stats"]

theorem readAlike_of_agree
    (h : Agree fieldNames (within "usage_stats" (ReadAlike Usage.ofJson?)) ms ns) :
    ReadAlike ofJson? (.obj ms) (.obj ns) := by
  have husage := h.alike.bind_within (by decide)
  refine h.structure?_bind 0 ?_
  simp (disch := decide) only [Json.required, h.alike.lookup_within, husage]

end Response

namespace Revision

/-- The names of a revision's members in order. -/
def fieldNames : List String :=
  ["attempt", "build_status", "stdout", "stderr", "prompt", "response"]

theorem readAlike_of_agree
    (h : Agree fieldNames (within "response" (ReadAlike Response.ofJson?)) ms ns) :
    ReadAlike ofJson? (.obj ms) (.obj ns) := by
  have hresponse := h.alike.bind_within (by decide)
  refine h.structure?_bind 0 ?_
  simp (disch := decide) only [Json.required, h.alike.lookup_within, hresponse]

end Revision

namespace Candidate

theorem ofMembers?_of_alike
    (h : Alike fieldNames (within "revisions" (ReadAlike (Json.listOf? Revision.ofJson?))) ms ns) :
    ofMembers? ns = ofMembers? ms := by
  have hrevisions := h.bind_within (by decide)
  simp (disch := decide) only [ofMembers?, Json.required, Json.optional, h.lookup_within,
    hrevisions]

theorem readAlike_of_agree
    (h : Agree fieldNames (within "revisions" (ReadAlike (Json.listOf? Revision.ofJson?))) ms ns) :
    ReadAlike ofJson? (.obj ms) (.obj ns) :=
  h.structure?_bind 2 (ofMembers?_of_alike h.alike)

end Candidate

namespace Stored

/-- The names of a stored candidate's members in order. -/
def fieldNames : List String := "id" :: "recorded_at" :: Candidate.fieldNames

theorem readAlike_of_agree
    (h : Agree fieldNames (within "revisions" (ReadAlike (Json.listOf? Revision.ofJson?))) ms ns) :
    ReadAlike ofJson? (.obj ms) (.obj ns) := by
  have hrecord : Candidate.ofMembers? ns = Candidate.ofMembers? ms :=
    Candidate.ofMembers?_of_alike fun name hname =>
      h.alike name (List.mem_cons_of_mem _ (List.mem_cons_of_mem _ hname))
  simp (disch := decide) only [ReadAlike, ofJson?, Json.obj?, Json.required, Option.bind_eq_bind,
    Option.bind_some, h.alike.lookup_within, hrecord]

end Stored

/-! ## Unknown members -/

/-- Unknown members were added to a usage. -/
def Usage.Padded : Json → Json → Prop := Json.Padded fieldNames fun _ => Eq

/-- Unknown members were added to a response or to its usage. -/
def Response.Padded : Json → Json → Prop :=
  Json.Padded fieldNames (within "usage_stats" Usage.Padded)

/-- Unknown members were added to a revision or within its response. -/
def Revision.Padded : Json → Json → Prop :=
  Json.Padded fieldNames (within "response" Response.Padded)

/-- Unknown members were added to a candidate or within its revisions. -/
def Candidate.Padded : Json → Json → Prop :=
  Json.Padded fieldNames (within "revisions" (Json.ElementsPadded Revision.Padded))

/-- Unknown members were added to a stored candidate or within its revisions. -/
def Stored.Padded : Json → Json → Prop :=
  Json.Padded fieldNames (within "revisions" (Json.ElementsPadded Revision.Padded))

theorem Usage.Padded.readAlike (h : Usage.Padded j j') : ReadAlike Usage.ofJson? j j' :=
  Json.Padded.readAlike readAlike_of_agree (fun _ _ _ hvw => hvw) h

theorem Response.Padded.readAlike (h : Response.Padded j j') : ReadAlike Response.ofJson? j j' :=
  Json.Padded.readAlike readAlike_of_agree (Json.within_mono fun _ _ => Usage.Padded.readAlike) h

theorem Revision.Padded.readAlike (h : Revision.Padded j j') : ReadAlike Revision.ofJson? j j' :=
  Json.Padded.readAlike readAlike_of_agree (Json.within_mono fun _ _ => Response.Padded.readAlike) h

/-- **Unknown members of a candidate** are passed over, and those within its revisions. -/
theorem Candidate.Padded.readAlike (h : Candidate.Padded j j') : ReadAlike Candidate.ofJson? j j' :=
  Json.Padded.readAlike readAlike_of_agree
    (Json.within_mono fun _ _ => Json.ElementsPadded.readAlike Revision.Padded.readAlike) h

theorem Stored.Padded.readAlike (h : Stored.Padded j j') : ReadAlike Stored.ofJson? j j' :=
  Json.Padded.readAlike readAlike_of_agree
    (Json.within_mono fun _ _ => Json.ElementsPadded.readAlike Revision.Padded.readAlike) h

/-! ## Members in order -/

theorem Usage.readAlike_sorted (u : Usage) : ReadAlike ofJson? u.toJson u.toJson.sorted := by
  obtain ⟨model, promptTokens, replyTokens⟩ := u
  refine Json.readAlike_sorted readAlike_of_agree ?_ ?_
  · cases model <;> simp
  · cases model <;> simp [Json.sorted, Json.ofNat]

theorem Response.readAlike_sorted (r : Response) : ReadAlike ofJson? r.toJson r.toJson.sorted := by
  refine Json.readAlike_sorted readAlike_of_agree (by simp) ?_
  simp [Json.within_of_ne, Json.sorted, Json.sorted_ofTexts, Usage.readAlike_sorted]

theorem Revision.readAlike_sorted (v : Revision) : ReadAlike ofJson? v.toJson v.toJson.sorted := by
  refine Json.readAlike_sorted readAlike_of_agree (by simp) ?_
  simp [Json.within_of_ne, Json.sorted, Json.ofNat, Response.readAlike_sorted]

namespace Candidate

variable {c : Candidate}

/-- The members within the values of the record are in order. -/
structure Ordered (c : Candidate) : Prop where
  results : ∀ v ∈ c.results, v.sorted = v
  logs : ∀ v ∈ c.logs, v.sorted = v

/-- No two members of a record have the same name, also when its id and time stand among them. -/
theorem nodup_names (c : Candidate) : ("id" :: "recorded_at" :: c.members.map Prod.fst).Nodup := by
  obtain ⟨iter, sample, finalCode, buildStatus, execStatus, results, logs, revisions, parentIds,
    parentCodes⟩ := c
  cases parentIds <;> cases parentCodes <;> simp [members]

/-- Putting a record into order changes no member but the revisions, and these are read alike. -/
theorem Ordered.within_sorted (h : c.Ordered) : ∀ m ∈ c.members,
    within "revisions" (ReadAlike (Json.listOf? Revision.ofJson?)) m.1 m.2 m.2.sorted := by
  have hrevisions : ReadAlike (Json.listOf? Revision.ofJson?)
      (.arr (c.revisions.map Revision.toJson))
      (Json.arr (c.revisions.map Revision.toJson)).sorted :=
    Json.listOf?_sorted (List.forall_mem_map.mpr fun v _ => v.readAlike_sorted)
  -- All other fields hold what has no members, or a value that is in order.
  have hnumber : ∀ n : Nat, (Json.ofNat n).sorted = .ofNat n := fun _ => rfl
  have htext : ∀ text? : Option String, (Json.ofText? text?).sorted = .ofText? text? := by
    rintro (_ | text) <;> rfl
  have hbool : ∀ b? : Option Bool, (Json.ofBool? b?).sorted = .ofBool? b? := by
    rintro (_ | b) <;> rfl
  have hvalue : ∀ j? : Option Json, (∀ v ∈ j?, v.sorted = v) →
      (j?.getD .null).sorted = j?.getD .null := by
    rintro (_ | v) hv
    · rfl
    · exact hv v rfl
  have hids : ∀ ids : List Int, (Json.arr (ids.map .int)).sorted = .arr (ids.map .int) :=
    Json.sorted_arr_map fun _ => rfl
  simp only [members, List.forall_mem_append]
  refine ⟨⟨?_, ?_⟩, ?_⟩
  · simp [Json.within_of_ne, hnumber, htext, hbool, hvalue _ h.results, hvalue _ h.logs, hrevisions]
  · cases c.parentIds <;> simp [Json.within_of_ne, hids]
  · cases c.parentCodes <;> simp [Json.within_of_ne, Json.sorted_ofTexts]

/-- **The order of members** does not matter to the reader of a candidate. -/
theorem Ordered.readAlike (h : c.Ordered) : ReadAlike ofJson? c.toJson c.toJson.sorted :=
  Json.readAlike_sorted readAlike_of_agree c.nodup_names.of_cons.of_cons h.within_sorted

end Candidate

theorem Stored.readAlike_sorted {s : Stored} (h : s.record.Ordered) :
    ReadAlike ofJson? s.toJson s.toJson.sorted := by
  refine Json.readAlike_sorted readAlike_of_agree s.record.nodup_names ?_
  simp only [List.forall_mem_cons]
  refine ⟨?_, ?_, h.within_sorted⟩
  · simp [Json.within_of_ne, Json.sorted]
  · simp [Json.within_of_ne, Json.sorted]

/-! ## What is written is read -/

namespace Candidate

variable {c : Candidate}

/-- The numbers of the record fit the widths in which they are kept, and neither its results nor its
logs are the value that stands for an absent one. -/
structure Exportable (c : Candidate) : Prop where
  iter_lt : c.iter < bound32
  sample_lt : c.sample < bound32
  revisions_fit : ∀ v ∈ c.revisions, v.Fits
  parentIds_fit : ∀ ids ∈ c.parentIds, ∀ id ∈ ids, -idBound ≤ id ∧ id < idBound
  results_ne_null : c.results ≠ some .null
  logs_ne_null : c.logs ≠ some .null

/-- **The members of a record are read as the record.** -/
theorem ofMembers?_members (h : c.Exportable) : ofMembers? c.members = some c := by
  have hiter : Json.required c.members "iter" (Json.nat? bound32) = some c.iter :=
    (Json.required_eq (by rfl)).trans (Json.nat?_ofNat h.iter_lt)
  have hsample : Json.required c.members "sample" (Json.nat? bound32) = some c.sample :=
    (Json.required_eq (by rfl)).trans (Json.nat?_ofNat h.sample_lt)
  have hfinalCode : Json.optional c.members "final_code" Json.str? = some c.finalCode :=
    Json.optional_ofText? (by rfl)
  have hbuildStatus : Json.optional c.members "build_status" Json.bool? = some c.buildStatus :=
    Json.optional_ofBool? (by rfl)
  have hexecStatus : Json.optional c.members "exec_status" Json.bool? = some c.execStatus :=
    Json.optional_ofBool? (by rfl)
  have hresults : Json.optional c.members "eval_results" some = some c.results :=
    Json.optional_value (by rfl) h.results_ne_null
  have hlogs : Json.optional c.members "eval_logs" some = some c.logs :=
    Json.optional_value (by rfl) h.logs_ne_null
  have hrevisions : Json.required c.members "revisions" (Json.listOf? Revision.ofJson?)
      = some c.revisions :=
    (Json.required_eq (by rfl)).trans
      (Json.listOf?_arr_map fun v hv => Revision.ofJson?_toJson (h.revisions_fit v hv))
  -- Whether the parents are there decides where the members end.
  have hparentIds : Json.optional c.members "parent_ids" (Json.listOf? Json.int64?)
      = some c.parentIds := by
    refine Json.optional_eq_some (fun ids => .arr (ids.map .int)) ?_ fun ids hids =>
      ⟨nofun, Json.listOf?_arr_map fun id hid => ?_⟩
    · rw [members]
      cases c.parentIds <;> cases c.parentCodes <;> rfl
    · obtain ⟨hlow, hhigh⟩ := h.parentIds_fit ids hids id hid
      exact Json.int64?_int hlow hhigh
  have hparentCodes : Json.optional c.members "parent_codes" Json.texts? = some c.parentCodes := by
    refine Json.optional_eq_some .ofTexts ?_ fun codes _ =>
      ⟨nofun, Json.texts?_ofTexts codes⟩
    rw [members]
    cases c.parentIds <;> cases c.parentCodes <;> rfl
  simp only [ofMembers?, Option.bind_eq_bind, Option.bind_some, Option.pure_def, hiter, hsample,
    hfinalCode, hbuildStatus, hexecStatus, hresults, hlogs, hrevisions, hparentIds, hparentCodes]

theorem ofJson?_toJson (h : c.Exportable) : ofJson? c.toJson = some c := by
  have hmembers : Json.structure? fieldNames 2 c.toJson = some c.members :=
    if_pos (Json.fieldsDistinct_of_nodup fieldNames c.nodup_names.of_cons.of_cons)
  rw [ofJson?, hmembers, Option.bind_eq_bind, Option.bind_some, ofMembers?_members h]

end Candidate

namespace Stored

variable {s : Stored}

/-- The record can be exported, and the id fits its width. -/
structure Exportable (s : Stored) : Prop where
  id_fits : -idBound ≤ s.id ∧ s.id < idBound
  record : s.record.Exportable

/-- **A stored candidate is read as it was.** To the reader of the record, its id and its time are
unknown members. -/
theorem ofJson?_toJson (h : s.Exportable) : ofJson? s.toJson = some s := by
  have hid : Json.int64? (.int s.id) = some s.id := Json.int64?_int h.id_fits.1 h.id_fits.2
  have hbeside : Json.MembersPadded Candidate.fieldNames
      (within "revisions" (ReadAlike (Json.listOf? Revision.ofJson?))) s.record.members
      (("id", .int s.id) :: ("recorded_at", .str s.recordedAt) :: s.record.members) :=
    .added (by decide) (.added (by decide) (.refl (Json.within_refl (Json.readAlike_refl _)) _))
  have hrecord := Candidate.ofMembers?_of_alike (hbeside.agree fun _ _ _ hvw => hvw).alike
  rw [Candidate.ofMembers?_members h.record] at hrecord
  simp [ofJson?, toJson, Json.obj?, Json.required, lookup, Json.str?, hid, hrecord]

end Stored

/-! ## Summaries -/

/-- **What the ledger hands out is in order**, for it has been read from values or texts. -/
theorem Row.ordered_of_candidate {r : Row} {s : Stored} (h : r.candidate = .ok s) :
    s.record.Ordered := by
  have hvalue : ∀ {column : Column} {j? : Option Json},
      column.read (fun j => some j.sorted) = .ok j? → ∀ v ∈ j?, v.sorted = v := by
    rintro column j? hread v rfl
    obtain ⟨j, hj⟩ := Column.exists_of_read hread
    obtain rfl := Option.some.inj hj
    exact Json.sorted_sorted j
  obtain ⟨results, hresults, h⟩ := Except.bind_eq_ok h
  obtain ⟨logs, hlogs, h⟩ := Except.bind_eq_ok h
  obtain ⟨revisions, -, h⟩ := Except.bind_eq_ok h
  obtain ⟨parentIds, -, h⟩ := Except.bind_eq_ok h
  obtain ⟨parentCodes, -, h⟩ := Except.bind_eq_ok h
  obtain rfl := Except.ok.inj h
  exact ⟨hvalue hresults, hvalue hlogs⟩

/-- The best candidates are read back from a summary. -/
theorem Ledger.listOf?_summary {best : List Stored}
    (h : ∀ s ∈ best, s.Exportable ∧ s.record.Ordered) (l : Ledger) (info : RunInfo) :
    ((l.summary info best).sorted.get? "top").bind (Json.listOf? Stored.ofJson?) = some best := by
  let parts : List (String × Json) := [("run", info.toJson),
    ("iterations", .arr ((l.counts info.runId).map IterationCounts.toJson)),
    ("top", .arr (best.map Stored.toJson))]
  obtain ⟨ms, hms, hascend, -⟩ := Json.exists_ofMembers parts
  have htop : lookup "top" ms = some (.arr (best.map Stored.toJson)) := by
    have hnodup : (parts.map Prod.fst).Nodup := by simp [parts]
    have hget : (Json.ofMembers parts).get? "top" = lookup "top" parts := Json.get?_ofMembers hnodup
    rwa [hms] at hget
  have halike : ReadAlike (Json.listOf? Stored.ofJson?) (.arr (best.map Stored.toJson))
      (Json.arr (best.map Stored.toJson)).sorted :=
    Json.listOf?_sorted (List.forall_mem_map.mpr fun s hs => Stored.readAlike_sorted (h s hs).2)
  rw [summary, hms, Json.get?_sorted_obj hascend.nodup, htop, Option.map_some, Option.bind_some,
    halike]
  exact Json.listOf?_arr_map fun s hs => Stored.ofJson?_toJson (h s hs).1

/-! ## Export -/

/-- **Exported records read back.** Let the numbers of a record fit, and let neither its results nor
its logs be `null`.

* The record is read from what is written of it, and so it is when the members are put into order.
* The same holds of a stored candidate, whose id and time stand among the members of its record.
* A command that prints a candidate of the ledger prints a document from which it is read.
* A command that sums up a run prints a document from which its best candidates are read, all of
  them and in their order.

Unknown members that are added to any value, be it what was written of a candidate or not, do not
change what is read of it: neither those of a record, with or without its id and time, nor those of
its revisions, of their responses or of the usages in these. And no experiment of any task has
`null` for results or logs. -/
theorem exported_records_read_back :
    (∀ c : Candidate, c.Exportable → Candidate.ofJson? c.toJson = some c ∧
      (c.Ordered → Candidate.ofJson? c.toJson.sorted = some c)) ∧
    (∀ t : Stored, t.Exportable → Stored.ofJson? t.toJson = some t ∧
      (t.record.Ordered → Stored.ofJson? t.toJson.sorted = some t)) ∧
    (∀ path runId iter sample lookup now s,
      let result := ((Order.print path runId iter sample false).perform lookup now s).1
      result.exitCode = 0 →
        ∃ (l : Ledger) (fs : Files) (t : Stored) (document : Json),
          s.world.files.openLedger path = .ok (l, fs) ∧
          l.candidate? runId iter sample = .ok (some t) ∧
          result.stdout = document.pretty ++ "\n" ∧
          (t.Exportable → Stored.ofJson? document = some t)) ∧
    (∀ path runId limit lookup now s,
      let result := ((Order.summarize path runId limit true).perform lookup now s).1
      result.exitCode = 0 →
        ∃ (l : Ledger) (fs : Files) (best : List Stored) (document : Json),
          s.world.files.openLedger path = .ok (l, fs) ∧ l.top runId limit = .ok best ∧
          result.stdout = document.pretty ++ "\n" ∧
          ((∀ t ∈ best, t.Exportable) →
            (document.get? "top").bind (Json.listOf? Stored.ofJson?) = some best)) ∧
    (∀ j j' : Json, Candidate.Padded j j' → Candidate.ofJson? j' = Candidate.ofJson? j) ∧
    (∀ j j' : Json, Stored.Padded j j' → Stored.ofJson? j' = Stored.ofJson? j) ∧
    ∀ (task : Task) (arguments : Json) (root : String) (fs : Files) (b : Backend) (o : Outcome)
      (w w' : World), task.backend arguments root fs = .ok b → b.experiment w = .ok o w' →
        o.results ≠ .null ∧ o.logs ≠ .null := by
  refine ⟨fun c hc => ⟨Candidate.ofJson?_toJson hc, fun hordered => ?_⟩,
    fun t ht => ⟨Stored.ofJson?_toJson ht, fun hordered => ?_⟩,
    ?_, ?_, fun j j' hpadded => hpadded.readAlike, fun j j' hpadded => hpadded.readAlike,
    fun task arguments root fs b o w w' hb ho => ?_⟩
  · exact hordered.readAlike.trans (Candidate.ofJson?_toJson hc)
  · exact (Stored.readAlike_sorted hordered).trans (Stored.ofJson?_toJson ht)
  · intro path runId iter sample lookup now s result hresult
    obtain ⟨l, fs, t, hledger, hcandidate, hstdout⟩ := Order.stdout_print hresult
    exact ⟨l, fs, t, t.toJson, hledger, hcandidate, hstdout, Stored.ofJson?_toJson⟩
  · intro path runId limit lookup now s result hresult
    obtain ⟨l, fs, info, best, hledger, -, htop, hstdout⟩ := Order.stdout_summarize hresult
    refine ⟨l, fs, best, (l.summary info best).sorted, hledger, htop, hstdout, fun hbest => ?_⟩
    refine l.listOf?_summary (fun t ht => ⟨hbest t ht, ?_⟩) info
    obtain ⟨r, -, hr⟩ := exists_of_mem_mapM htop t ht
    exact Row.ordered_of_candidate hr
  · have hobjects := Backend.hasObjects_experiment hb ho
    exact ⟨hobjects.results_ne_null, hobjects.logs_ne_null⟩

/-- A candidate that was built at the second attempt. -/
def Candidate.repaired : Candidate where
  iter := 1
  sample := 0
  finalCode := some "f"
  buildStatus := some true
  execStatus := some true
  results := some (.obj [("score", .int 1)])
  logs := some (.arr [])
  revisions :=
    [⟨0, false, "", "error", "Improve it.", ⟨"No.", ["No."], [], [], ⟨none, 7, 0⟩⟩⟩,
      ⟨1, true, "", "", "Repair it.", ⟨"f", [], ["f"], ["python"], ⟨some "gpt-4o", 9, 4⟩⟩⟩]
  parentIds := some []
  parentCodes := none

/-- The candidate with its id and its time. -/
def Stored.repaired : Stored := ⟨1, "2025-01-01", .repaired⟩

/-- A ledger with the candidate. -/
def Ledger.repaired : Ledger where
  runs := [⟨"webcache_1", "webcache", "gpt-4o", "2025-01-01", .null⟩]
  invocations := []
  rows := [.ofCandidate 1 "webcache_1" "2025-01-01" .repaired]
  nextId := 2

/-- A candidate that was repaired is printed and read, also with members of a later version. -/
theorem exported_records_read_back_repaired :
    let files : Files := Files.furnished.put ["runs.db"] (.ledger .repaired)
    let w : World := { files, host := .hangingOn fun _ => false }
    let s : Surroundings := .start w .unreachable
    let stdout (order : Order) : String := (order.perform (fun _ => none) "" s).1.stdout
    let usage : Json :=
      .obj [("cached_tokens", .int 3), ("prompt_tokens", .int 7), ("gen_tokens", .int 0)]
    let response : Json :=
      .obj [("finish_reason", .str "stop"), ("full_response", .str "No."),
        ("text_segments", .arr [.str "No."]), ("code_segments", .arr []),
        ("code_languages", .arr []), ("usage_stats", usage)]
    let revision : Json :=
      .obj [("seconds", .int 2), ("attempt", .int 0), ("build_status", .bool false),
        ("stdout", .str ""), ("stderr", .str "error"), ("prompt", .str "Improve it."),
        ("response", response)]
    let extended (ms : List (String × Json)) : Json :=
      .obj (("host", .null) :: ms ++
        [("iter", .int 1), ("sample", .int 0), ("final_code", .str "f"),
          ("build_status", .bool true), ("exec_status", .bool true),
          ("eval_results", .obj [("score", .int 1)]), ("eval_logs", .arr []),
          ("revisions",
            .arr (revision :: Candidate.repaired.revisions.tail.map Revision.toJson)),
          ("parent_ids", .arr [])])
    Candidate.ofJson? Candidate.repaired.toJson = some .repaired ∧
    Candidate.ofJson? Candidate.repaired.toJson.sorted = some .repaired ∧
    Stored.ofJson? Stored.repaired.toJson = some .repaired ∧
    Stored.ofJson? Stored.repaired.toJson.sorted = some .repaired ∧
    (∃ document : Json,
      stdout (.print "runs.db" "webcache_1" 1 0 false) = document.pretty ++ "\n" ∧
      Stored.ofJson? document = some .repaired) ∧
    (∃ document : Json,
      stdout (.summarize "runs.db" "webcache_1" 5 true) = document.pretty ++ "\n" ∧
      (document.get? "top").bind (Json.listOf? Stored.ofJson?) = some [.repaired]) ∧
    Candidate.ofJson? (extended []) = some .repaired ∧
    Stored.ofJson? (extended [("id", .int 1), ("recorded_at", .str "2025-01-01")])
      = some .repaired ∧
    ∃ b o w', Task.cache.backend .null "/w" files = .ok b ∧ b.experiment w = .ok o w' ∧
      o.results ≠ .null ∧ o.logs ≠ .null := by
  intro files w s stdout usage response revision extended
  obtain ⟨halone, hflat, hprint, hsummarize, hunknown, hunknown', hexperiment⟩ :=
    exported_records_read_back
  have hrecord : Candidate.repaired.Exportable := by
    refine ⟨by decide, by decide, ?_, by simp [Candidate.repaired], nofun, nofun⟩
    simp only [Candidate.repaired, List.forall_mem_cons]
    exact ⟨⟨by decide, by decide, by decide⟩, ⟨by decide, by decide, by decide⟩, nofun⟩
  have hstored : Stored.repaired.Exportable := ⟨by decide, hrecord⟩
  have hordered : Candidate.repaired.Ordered := by
    constructor <;> rintro v ⟨⟩ <;> rfl
  -- What the commands find.
  have hrow : (Row.ofCandidate 1 "webcache_1" "2025-01-01" .repaired).candidate
      = .ok .repaired := by
    have hread := Row.candidate_of_fits hrecord.revisions_fit hrecord.parentIds_fit 1 "webcache_1"
      "2025-01-01"
    rwa [if_pos (by decide)] at hread
  have hledger : files.openLedger "runs.db" = .ok (.repaired, files) := by
    have hparent : Path.parentText? "runs.db" = none := by decide +kernel
    have hplace : files.place "runs.db" = .ok ["runs.db"] := by decide +kernel
    have hentry : files.entry? "runs.db" = some (.ledger .repaired) := by
      rw [Files.entry?, hplace]
      rfl
    have hallowed : (files.refuses .read "runs.db" || files.refuses .write "runs.db") = false := by
      rw [Files.refuses, Files.refuses, hplace]
      rfl
    rw [Files.openLedger, if_neg (by decide), Files.makeLedgerDirectory, hparent]
    simp only [bind, Except.bind, hallowed, Bool.false_eq_true, if_false]
    rw [Files.openLedger.opened, hentry]
  have hcandidate : Ledger.repaired.candidate? "webcache_1" 1 0 = .ok (some .repaired) := by
    have hfound : Ledger.repaired.row? "webcache_1" 1 0
        = some (.ofCandidate 1 "webcache_1" "2025-01-01" .repaired) := by rfl
    rw [Ledger.candidate?, hfound]
    exact congrArg (Except.map some) hrow
  have htop : Ledger.repaired.top "webcache_1" 5 = .ok [.repaired] := by
    have hranked : (Ledger.repaired.rowsOf "webcache_1").filter Row.ranked
        = [.ofCandidate 1 "webcache_1" "2025-01-01" .repaired] := by rfl
    rw [Ledger.top, hranked, List.mergeSort_singleton]
    simp [hrow]
  -- What others have added.
  have husage : Usage.Padded (Usage.toJson ⟨none, 7, 0⟩) usage :=
    .object (.added (by decide) (.refl (fun _ _ => rfl) _))
  have hresponse : Response.Padded
      (Response.toJson ⟨"No.", ["No."], [], [], ⟨none, 7, 0⟩⟩) response :=
    .object (.added (by decide) (.inside .same husage [] [_, _, _, _]))
  have hrevision : Revision.Padded (Revision.toJson
      ⟨0, false, "", "error", "Improve it.", ⟨"No.", ["No."], [], [], ⟨none, 7, 0⟩⟩⟩) revision :=
    .object (.added (by decide) (.inside .same hresponse [] [_, _, _, _, _]))
  have hrevisions : Json.ElementsPadded Revision.Padded
      (.arr (Candidate.repaired.revisions.map Revision.toJson))
      (.arr (revision :: Candidate.repaired.revisions.tail.map Revision.toJson)) :=
    .array (.cons hrevision (.cons (.same _) .nil))
  have hpadded : Candidate.Padded Candidate.repaired.toJson (extended []) :=
    .object (.added (by decide) (.inside .same hrevisions [_] [_, _, _, _, _, _, _]))
  have hpadded' : Stored.Padded Stored.repaired.toJson
      (extended [("id", .int 1), ("recorded_at", .str "2025-01-01")]) :=
    .object (.added (by decide) (.inside .same hrevisions [_] [_, _, _, _, _, _, _, _, _]))
  refine ⟨(halone _ hrecord).1, (halone _ hrecord).2 hordered, (hflat _ hstored).1,
    (hflat _ hstored).2 hordered, ?_, ?_, (hunknown _ _ hpadded).trans (halone _ hrecord).1,
    (hunknown' _ _ hpadded').trans (hflat _ hstored).1, ?_⟩
  · obtain ⟨l, fs, t, document, hl, ht, hstdout, hread⟩ :=
      hprint "runs.db" "webcache_1" 1 0 (fun _ => none) "" s (by decide +kernel)
    cases hl.symm.trans hledger
    cases ht.symm.trans hcandidate
    exact ⟨document, hstdout, hread hstored⟩
  · obtain ⟨l, fs, best, document, hl, hbest, hstdout, hread⟩ :=
      hsummarize "runs.db" "webcache_1" 5 (fun _ => none) "" s (by decide +kernel)
    cases hl.symm.trans hledger
    cases hbest.symm.trans htop
    exact ⟨document, hstdout, hread (by simpa using hstored)⟩
  · have hopen : (Task.cache.backend .null "/w" files).isOk = true := by decide +kernel
    obtain ⟨b, hb⟩ := Except.exists_ok_of_isOk hopen
    obtain ⟨setting, hsetting, -, hb'⟩ := Task.backend_eq_ok hb
    obtain rfl : .cache .standard = setting := Except.ok.inj hsetting
    have hstart : w.canStart ⟨.script, Cache.script .standard, Cache.buildDirectory "/w"⟩
        = true := by decide +kernel
    have hwaits : w.host.Waits := Host.waits_hangingOn _
    obtain ⟨r, hr, -⟩ := Action.Follows.run_eq_ok hstart (hwaits _ _ _)
    obtain ⟨o, w', ho⟩ : ∃ o w', b.experiment w = .ok o w' := by
      rw [hb']
      exact ⟨_, _, bind_of_ok hr⟩
    exact ⟨b, o, w', hb, ho, hexperiment _ _ _ _ b o w w' hb ho⟩

end HeuristicEvolution
