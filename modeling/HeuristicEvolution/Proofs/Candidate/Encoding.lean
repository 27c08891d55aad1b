import HeuristicEvolution.Candidate.Encoding

/-!
# What is written of a candidate can be read

Numbers are kept in fixed widths: attempts in 32 bits, token counts and ids in 64. A revision whose
numbers fit is read back as it was written. Members are looked up by name, so each lemma here is
about one reader of a value, and the lemma of a structure uses those of its fields.

## Main definitions

* `Usage.Fits`, `Revision.Fits`: the numbers fit the widths in which they are kept.

## Main results

* `Revision.ofJson?_toJson`
-/

namespace HeuristicEvolution

namespace Json

theorem nat?_ofNat {bound n : Nat} (h : n < bound) : nat? bound (.ofNat n) = some n := by
  simp only [nat?, ofNat, Int.ofNat_eq_natCast]
  rw [if_pos (by simpa using h), Int.toNat_natCast]

theorem int64?_int {i : Int} (hlow : -Int.ofNat (Nat.pow 2 63) ≤ i)
    (hhigh : i < Int.ofNat (Nat.pow 2 63)) : int64? (.int i) = some i := by
  rw [int64?, if_pos (by simpa using ⟨hlow, hhigh⟩)]

/-- A field that has to be there is the first member of its name. -/
theorem required_eq {α : Type} {ms : List (String × Json)} {name : String} {v : Json}
    {read : Json → Option α} (h : lookup name ms = some v) : required ms name read = read v := by
  rw [required, h, Option.bind_some]

/-- A list is read if each of its elements is. -/
theorem listOf?_arr_map {α : Type} {read : Json → Option α} {write : α → Json} {xs : List α}
    (h : ∀ x ∈ xs, read (write x) = some x) : listOf? read (.arr (xs.map write)) = some xs := by
  rw [listOf?]
  induction xs with
  | nil => rfl
  | cons x rest ih =>
    obtain ⟨hfirst, hrest⟩ := List.forall_mem_cons.mp h
    rw [List.map_cons, List.mapM_cons, hfirst, ih hrest]
    rfl

theorem texts?_ofTexts (xs : List String) : texts? (.ofTexts xs) = some xs :=
  listOf?_arr_map fun _ _ => rfl

end Json

/-- Token counts are kept in 64 bits. -/
structure Usage.Fits (u : Usage) : Prop where
  promptTokens_lt : u.promptTokens < Json.bound64
  replyTokens_lt : u.replyTokens < Json.bound64

/-- Numbers of attempts are kept in 32 bits. -/
structure Revision.Fits (v : Revision) : Prop where
  attempt_lt : v.attempt < Json.bound32
  usage : v.response.usage.Fits

/-! ## Round trips

The fields are read one after the other, each from the members of the structure. The proofs name
what each of them comes to; the bounds of the numbers are too large to be computed with. -/

theorem Usage.ofJson?_toJson {u : Usage} (h : u.Fits) : Usage.ofJson? u.toJson = some u := by
  obtain ⟨model, promptTokens, replyTokens⟩ := u
  obtain ⟨ms, hms, hmodel, hprompt, hreply⟩ : ∃ ms,
      (toJson ⟨model, promptTokens, replyTokens⟩).structure?
        ["model", "prompt_tokens", "gen_tokens"] 0 = some ms ∧
      Json.optional ms "model" Json.str? = some model ∧
      Json.lookup "prompt_tokens" ms = some (.ofNat promptTokens) ∧
      Json.lookup "gen_tokens" ms = some (.ofNat replyTokens) := by
    cases model <;> exact ⟨_, by rfl, by rfl, by rfl, by rfl⟩
  have hprompt := (Json.required_eq hprompt).trans (Json.nat?_ofNat h.promptTokens_lt)
  have hreply := (Json.required_eq hreply).trans (Json.nat?_ofNat h.replyTokens_lt)
  simp only [ofJson?, Option.bind_eq_bind, Option.bind_eq_some_iff, Option.pure_def]
  exact ⟨ms, hms, model, hmodel, promptTokens, hprompt, replyTokens, hreply, rfl⟩

theorem Response.ofJson?_toJson {r : Response} (h : r.usage.Fits) :
    Response.ofJson? r.toJson = some r := by
  simp [ofJson?, toJson, Json.structure?, Json.fieldsDistinct, Json.required, Json.lookup,
    Json.str?, Json.texts?_ofTexts, Usage.ofJson?_toJson h]

/-- **A revision that fits is read back.** -/
theorem Revision.ofJson?_toJson {v : Revision} (h : v.Fits) :
    Revision.ofJson? v.toJson = some v := by
  obtain ⟨attempt, built, stdout, stderr, prompt, response⟩ := v
  let ms : List (String × Json) :=
    [("attempt", .ofNat attempt), ("build_status", .bool built), ("stdout", .str stdout),
      ("stderr", .str stderr), ("prompt", .str prompt), ("response", response.toJson)]
  have hms : (toJson ⟨attempt, built, stdout, stderr, prompt, response⟩).structure?
      ["attempt", "build_status", "stdout", "stderr", "prompt", "response"] 0 = some ms := by rfl
  have hattempt : Json.required ms "attempt" (Json.nat? Json.bound32) = some attempt :=
    (Json.required_eq (by rfl)).trans (Json.nat?_ofNat h.attempt_lt)
  have hresponse : Json.required ms "response" Response.ofJson? = some response :=
    (Json.required_eq (by rfl)).trans (Response.ofJson?_toJson h.usage)
  simp only [ofJson?, Option.bind_eq_bind, Option.bind_eq_some_iff, Option.pure_def]
  exact ⟨ms, hms, attempt, hattempt, built, by rfl, stdout, by rfl, stderr, by rfl, prompt, by rfl,
    response, hresponse, rfl⟩

end HeuristicEvolution
