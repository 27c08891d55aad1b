import HeuristicEvolution.Proofs.Evolution.Lineage
import HeuristicEvolution.Proofs.Evolution.Plan

/-!
# What a plan guarantees

A call chooses parents, and then it works on a record for a long time: many requests, builds and an
experiment. When the record is put in at last, the ledger may be another one, since other calls may
have added to it. This module says what can be known of the record all the same.

A plan relies on one thing, that rows are never lost, and it guarantees one thing, that each record
that it puts in is grounded: all that it says about its parents was read from rows that are in the
ledger. `Plan.Guarantees` is a predicate on the tree of the plan, so it speaks of its own steps and
answers only, with a new ledger at every choice of parents.

## Main definitions

* `Descent`: the lineage of a row, for any settings.
* `Grounded`: what a record says about its parents is known from rows.
* `Plan.Guarantees`, `Plan.Grounds`: all records that the plan puts in are grounded.

## Main results

* `Grounded.descent`: the row of a grounded record, whenever it is written.
* `Plan.grounds_evolve`: the plan of a call.
* `Plan.ledger_of_step`, `Plan.Grounds.step`: what one step can do.
-/

namespace HeuristicEvolution

namespace Evolution

/-! ## Records that may be taken in at any time -/

/-- The lineage of a row. A row of iteration zero has no parents; any other row names its parents,
and they are rows of the ledger. -/
structure Descent (l : Ledger) (child : Row) : Prop where
  parentIds_absent_iff : child.parentIds = .absent ↔ child.iter = 0
  parentCodes_absent_iff : child.parentCodes = .absent ↔ child.iter = 0
  parents_of_later : child.iter ≠ 0 → ∃ parents : List Row, child.Names parents ∧
    ∀ p ∈ parents, p ∈ l.rows ∧ p.Sired child

theorem Descent.mono {l l' : Ledger} {child : Row} (h : Descent l child) (hext : l.Extends l') :
    Descent l' child := by
  refine { h with parents_of_later := fun hlater => ?_ }
  obtain ⟨parents, hnames, hall⟩ := h.parents_of_later hlater
  refine ⟨parents, hnames, fun p hp => ?_⟩
  obtain ⟨hmem, hsired⟩ := hall p hp
  exact ⟨hext.rows.subset hmem, hsired⟩

/-- Parents for an iteration of a run of which everything is known from rows: in iteration zero
there are none, and later they are ranked rows of earlier iterations. -/
def Vouched (rows : List Row) (runId : String) (iter : Nat) : Option Parents → Prop
  | none => iter = 0
  | some p => iter ≠ 0 ∧ ∃ parents : List Row, p.ids = parents.map Row.id ∧
      parents.map Row.finalCode = p.codes.map some ∧
      ∀ r ∈ parents, r ∈ rows ∧ r.runId = runId ∧ r.iter < iter ∧ r.ranked = true

/-- The parents that a record names are known from rows. -/
def Grounded (rows : List Row) (runId : String) (c : Candidate) : Prop :=
  ∃ parents : Option Parents, c.parentIds = parents.map Parents.ids ∧
    c.parentCodes = parents.map Parents.codes ∧ Vouched rows runId c.iter parents

section Grounds

variable {rows rows' : List Row} {runId : String} {iter : Nat} {c : Candidate} {l : Ledger}

theorem Vouched.mono {parents : Option Parents} (h : Vouched rows runId iter parents)
    (hsub : rows ⊆ rows') : Vouched rows' runId iter parents := by
  cases parents with
  | none => exact h
  | some p =>
    obtain ⟨hlater, parents, hids, hcodes, hall⟩ := h
    refine ⟨hlater, parents, hids, hcodes, fun r hr => ?_⟩
    obtain ⟨hmem, hrest⟩ := hall r hr
    exact ⟨hsub hmem, hrest⟩

theorem Grounded.mono (h : Grounded rows runId c) (hsub : rows ⊆ rows') :
    Grounded rows' runId c := by
  obtain ⟨parents, hids, hcodes, hvouched⟩ := h
  exact ⟨parents, hids, hcodes, hvouched.mono hsub⟩

/-- A choice is vouched for by the ledger in which it is made. -/
theorem vouched_of_selectParents {most : Nat} {p : Parents} (hlater : iter ≠ 0)
    (h : l.selectParents runId iter most = .ok p) : Vouched l.rows runId iter (some p) := by
  obtain ⟨-, rfl⟩ := Ledger.selectParents_eq_ok_iff.mp h
  have hmem : ∀ r ∈ (l.eligible runId (iter - 1)).take most, r ∈ l.rows ∧ r.runId = runId ∧
      r.iter ≤ iter - 1 ∧ r.ranked = true ∧ r.finalCode.isSome = true :=
    fun r hr => Ledger.mem_eligible_iff.mp (List.mem_of_mem_take hr)
  refine ⟨hlater, (l.eligible runId (iter - 1)).take most, rfl,
    Ledger.map_eq_map_some_filterMap fun r hr => (hmem r hr).2.2.2.2, fun r hr => ?_⟩
  obtain ⟨hin, hrun, hiter, hranked, -⟩ := hmem r hr
  exact ⟨hin, hrun, by omega, hranked⟩

/-- **The row of a grounded record has its descent**, whenever it is written. -/
theorem Grounded.descent (hl : l.Intact) (h : Grounded l.rows runId c) (now : String) :
    Descent l (Row.ofCandidate l.nextId runId now c) := by
  obtain ⟨parents, hids, hcodes, hvouched⟩ := h
  have hrow : (Row.ofCandidate l.nextId runId now c).iter = c.iter := rfl
  cases parents with
  | none =>
    have hzero : c.iter = 0 := hvouched
    have hnoIds : (Row.ofCandidate l.nextId runId now c).parentIds = .absent := by
      simp [Row.ofCandidate, hids, Column.ofValue]
    have hnoCodes : (Row.ofCandidate l.nextId runId now c).parentCodes = .absent := by
      simp [Row.ofCandidate, hcodes, Column.ofValue]
    exact ⟨by simp [hnoIds, hrow, hzero], by simp [hnoCodes, hrow, hzero],
      fun hlater => absurd hzero hlater⟩
  | some p =>
    obtain ⟨hlater, parents, hpids, hpcodes, hall⟩ := hvouched
    have hnames : (Row.ofCandidate l.nextId runId now c).Names parents := by
      refine ⟨?_, p.codes, ?_, hpcodes⟩
      · simp only [Row.ofCandidate, hids, Option.map_some, Column.ofValue, hpids, List.map_map,
          Function.comp_def]
      · simp only [Row.ofCandidate, hcodes, Option.map_some, Column.ofValue]
    refine ⟨?_, ?_, fun _ => ⟨parents, hnames, fun r hr => ?_⟩⟩
    · rw [hnames.1, hrow]
      simp [hlater]
    · obtain ⟨-, codes, hcodes', -⟩ := hnames
      rw [hcodes', hrow]
      simp [hlater]
    · obtain ⟨hmem, hrun, hlt, hranked⟩ := hall r hr
      simp only [Row.ranked, Row.succeeded, Bool.and_eq_true, beq_iff_eq] at hranked
      obtain ⟨⟨hbuilt, hexecuted⟩, hscored⟩ := hranked
      exact ⟨hmem, hrun, hlt, hl.ids_lt r hmem, hbuilt, hexecuted, hscored⟩

end Grounds

/-! ## What a plan guarantees -/

namespace Plan

variable {σ α β : Type}

/-- Whatever happens between its steps, the plan puts in only records that are grounded, and the
value that it brings has the property. The rows are such as are known to be in the ledger: at any
step it may have more of them. -/
def Guarantees (post : α → List Row → Prop) : Plan σ α → List Row → Prop
  | done (.ok a), rows => post a rows
  | done (.error _), _ => True
  | act _ next, rows => ∀ w, (next w).Guarantees post rows
  | note _ next, rows => next.Guarantees post rows
  | look _ _ _ next, rows => ∀ b, (next b).Guarantees post rows
  | choose runId iter most next, rows => ∀ l : Ledger, rows ⊆ l.rows →
      ∀ p, l.selectParents runId iter most = .ok p → (next p).Guarantees post l.rows
  | insert runId _ c next, rows => Grounded rows runId c ∧ next.Guarantees post rows

theorem Guarantees.bind {post : β → List Row → Prop} {x : Plan σ α} {f : α → Plan σ β}
    {rows : List Row} (h : x.Guarantees (fun a rows => (f a).Guarantees post rows) rows) :
    (x >>= f).Guarantees post rows := by
  change (x.bind f).Guarantees post rows
  induction x generalizing rows with
  | done outcome =>
    cases outcome with
    | ok a => exact h
    | error e => trivial
  | act effect next ih => exact fun w => ih w (h w)
  | note call next ih => exact ih h
  | look runId iter sample next ih => exact fun b => ih b (h b)
  | choose runId iter most next ih => exact fun l hsub p hp => ih p (h l hsub p hp)
  | insert runId now c next ih => exact ⟨h.1, ih h.2⟩

/-- All records that the plan puts in are grounded, whatever value it brings. -/
def Grounds (p : Plan σ α) (rows : List Row) : Prop := p.Guarantees (fun _ _ => True) rows

/-- More rows do no harm. -/
theorem Grounds.mono {p : Plan σ α} {rows rows' : List Row} (h : p.Grounds rows)
    (hsub : rows ⊆ rows') : p.Grounds rows' := by
  induction p generalizing rows rows' with
  | done outcome => cases outcome <;> trivial
  | act effect next ih => exact fun w => ih w (h w) hsub
  | note call next ih => exact ih h hsub
  | look runId iter sample next ih => exact fun b => ih b (h b) hsub
  | choose runId iter most next ih =>
    exact fun l hmore p hp => h l (List.Subset.trans hsub hmore) p hp
  | insert runId now c next ih => exact ⟨h.1.mono hsub, ih h.2 hsub⟩

/-! ### The plan of a call -/

/-- The plan has nothing to do with the ledger. -/
def Quiet (p : Plan σ α) : Prop :=
  ∀ (post : α → List Row → Prop) (rows : List Row), (∀ a, post a rows) → p.Guarantees post rows

namespace Quiet

theorem pure (a : α) : (Pure.pure a : Plan σ α).Quiet := fun _ _ h => h a

theorem bind {x : Plan σ α} {f : α → Plan σ β} (hx : x.Quiet) (hf : ∀ a, (f a).Quiet) :
    (x >>= f).Quiet :=
  fun post rows h => .bind (hx _ rows fun a => hf a post rows h)

theorem call (x : σ → α × σ) : (call x).Quiet := fun _ _ h w => h (x w).1

theorem callExcept (x : σ → Except Failure α × σ) : (callExcept x).Quiet := by
  intro post rows h w
  change (done (x w).1).Guarantees post rows
  rcases (x w).1 with _ | a
  · trivial
  · exact h a

end Quiet

theorem quiet_send (ask : String → σ → Exchange × σ) (policy : Policy) (prompt : String)
    (retries : Nat) : (send ask policy prompt retries).Quiet := by
  induction retries with
  | zero =>
    refine (Quiet.call _).bind fun exchange => ?_
    cases exchange with
    | reply text usage => exact .pure _
    | failed e => exact fun _ _ _ => trivial
    | silent => exact fun _ _ _ => trivial
  | succ retries ih =>
    refine (Quiet.call _).bind fun exchange => ?_
    cases exchange with
    | reply text usage => exact .pure _
    | failed e => exact ih
    | silent => exact ih

theorem quiet_attempt (tools : Repair.Tools σ) (number : Nat) (prompt : String)
    (response : Response) : (attempt tools number prompt response).Quiet := by
  rw [attempt]
  cases response.primaryCode with
  | none => exact .pure _
  | some code => exact (Quiet.callExcept _).bind fun result => .pure _

theorem quiet_cycle (tools : Repair.Tools σ) (left number : Nat) (lastCode : Option String)
    (prompt : String) (response : Response) :
    (cycle tools left number lastCode prompt response).Quiet := by
  induction left generalizing number lastCode prompt response with
  | zero => exact .pure _
  | succ left ih =>
    rw [cycle]
    refine (quiet_attempt tools number prompt response).bind fun result => ?_
    obtain ⟨revision, code, next⟩ := result
    dsimp only
    split
    · exact .pure _
    · exact (quiet_send _ _ _ _).bind fun reply => (ih _ _ _ _).bind fun rest => .pure _

section Loops

variable {lab : Laboratory σ} {runId now : String} {settings : Settings} {iter : Nat}
  {rows : List Row}

/-- The record of a slot names the slot and the parents. -/
theorem guarantees_runSlot {slot : Slot} {parents : Option Parents}
    {post : Candidate → List Row → Prop}
    (h : ∀ c, c.iter = slot.iter → c.parentIds = parents.map Parents.ids →
      c.parentCodes = parents.map Parents.codes → post c rows) :
    (runSlot lab settings slot parents).Guarantees post rows := by
  have hprompt : (firstPrompt lab slot parents).Quiet := by
    cases parents <;> exact .call _
  refine .bind (hprompt _ rows fun prompt => ?_)
  refine .bind (Quiet.call _ _ rows fun session => ?_)
  have htalk : (talk lab settings slot session prompt).Quiet :=
    (quiet_send _ _ _ _).bind fun response => quiet_cycle _ _ _ _ _ _
  refine .bind (htalk _ rows fun repaired => ?_)
  rw [measure]
  split
  · exact .bind (Quiet.callExcept _ _ rows fun outcome => h _ rfl rfl rfl)
  · exact h _ rfl rfl rfl

theorem guarantees_record {bound : Nat} {c : Candidate} {post : Unit → List Row → Prop}
    (hc : Grounded rows runId c) (h : post () rows) :
    (record runId now bound c : Plan σ Unit).Guarantees post rows := by
  rw [record]
  cases c.flaw? bound with
  | some flaw => trivial
  | none => exact ⟨hc, h⟩

/-- Parents that are remembered have to be vouched for; those that are chosen are. -/
theorem guarantees_parentsFor {chosen : Option Parents} {post : Option Parents → List Row → Prop}
    (hchosen : ∀ p, chosen = some p → Vouched rows runId iter chosen)
    (h : ∀ parents rows', Vouched rows' runId iter parents → post parents rows') :
    (parentsFor runId settings iter chosen : Plan σ _).Guarantees post rows := by
  unfold parentsFor
  by_cases hzero : iter = 0
  · rw [if_pos hzero]
    exact h none rows hzero
  · rw [if_neg hzero]
    cases chosen with
    | some p => exact h (some p) rows (hchosen p rfl)
    | none => exact fun l _ p hp => h (some p) l.rows (vouched_of_selectParents hzero hp)

/-- The induction is on the samples; what carries it is that the remembered parents are vouched
for. -/
theorem guarantees_runSamples {samples : List Nat} {chosen : Option Parents} {summary : Summary}
    {post : Summary → List Row → Prop} (hpost : ∀ summary rows, post summary rows)
    (hchosen : ∀ p, chosen = some p → Vouched rows runId iter chosen) :
    (runSamples lab runId now settings iter samples chosen summary).Guarantees post rows := by
  induction samples generalizing chosen summary rows with
  | nil => exact hpost summary rows
  | cons sample rest ih =>
    intro held
    cases held with
    | true => exact ih hchosen
    | false =>
      change Guarantees post (parentsFor runId settings iter chosen >>= _) rows
      refine .bind (guarantees_parentsFor hchosen fun parents rows' hvouched => ?_)
      refine .bind (guarantees_runSlot fun c hiter hids hcodes => ?_)
      have hgrounded : Grounded rows' runId c := ⟨parents, hids, hcodes, hiter ▸ hvouched⟩
      exact .bind (guarantees_record hgrounded (ih fun p hp => hvouched))

theorem grounds_runIterations {iters : List Nat} {summary : Summary} :
    (runIterations lab runId now settings iters summary).Grounds rows := by
  induction iters generalizing summary rows with
  | nil => trivial
  | cons iter rest ih =>
    exact .bind (guarantees_runSamples (fun _ _ => ih) fun p hp => nomatch hp)

/-- **A call puts in grounded records only**, whatever the other calls do. -/
theorem grounds_evolve {start stop : Nat} {checkout : Option Checkout} :
    (evolve lab runId now settings start stop checkout).Grounds rows :=
  grounds_runIterations

end Loops

/-! ### One step -/

/-- The slot for which the next step puts in a record. -/
def inserts? : Plan σ α → Option (String × Nat × Nat)
  | insert runId _ c _ => some (runId, c.iter, c.sample)
  | _ => none

theorem inserts?_eq_some_iff {p : Plan σ α} {runId : String} {iter sample : Nat} :
    p.inserts? = some (runId, iter, sample) ↔
      ∃ now c next, p = insert runId now c next ∧ c.iter = iter ∧ c.sample = sample := by
  constructor
  · intro h
    cases p with
    | insert runId' now c next =>
      obtain ⟨rfl, rfl, rfl⟩ : runId' = runId ∧ c.iter = iter ∧ c.sample = sample := by
        simpa [inserts?] using h
      exact ⟨now, c, next, rfl, rfl, rfl⟩
    | _ => exact nomatch h
  · rintro ⟨now, c, next, rfl, rfl, rfl⟩
    rfl

/-- All that a step can do to a ledger: nothing, or note the call, or take in a record. -/
theorem ledger_of_step (p : Plan σ α) (s : State σ) :
    (step (p, s)).2.ledger = s.ledger ∨
      (∃ call, s.ledger.recordInvocation call = .ok (step (p, s)).2.ledger) ∨
        ∃ runId now c next, p = insert runId now c next ∧
          ¬ s.ledger.HasCandidate runId c.iter c.sample ∧ s.ledger.HasRun runId ∧
            (step (p, s)).2.ledger = s.ledger.append runId now c := by
  cases p with
  | done outcome => exact .inl rfl
  | act effect next => exact .inl rfl
  | note call next =>
    simp only [step]
    cases hnote : s.ledger.recordInvocation call with
    | error e => exact .inl rfl
    | ok l => exact .inr (.inl ⟨call, hnote⟩)
  | look runId iter sample next => exact .inl rfl
  | choose runId iter most next =>
    simp only [step]
    cases s.ledger.selectParents runId iter most <;> exact .inl rfl
  | insert runId now c next =>
    simp only [step]
    rcases hinsert : s.ledger.insert runId now c with _ | ⟨id, l⟩
    · exact .inl rfl
    · obtain ⟨hfree, hrun, -, rfl⟩ := Ledger.insert_eq_ok_iff.mp hinsert
      exact .inr (.inr ⟨runId, now, c, next, rfl, hfree, hrun, rfl⟩)

theorem extends_of_step (p : Plan σ α) (s : State σ) :
    s.ledger.Extends (step (p, s)).2.ledger := by
  rcases ledger_of_step p s with h | ⟨call, h⟩ | ⟨runId, now, c, next, -, -, -, h⟩
  · exact h ▸ .refl _
  · exact Ledger.extends_recordInvocation h
  · exact h ▸ Ledger.extends_append s.ledger runId now c

/-- A plan that grounds its records goes on doing so after a step. -/
theorem Grounds.step {p : Plan σ α} {s : State σ} (h : p.Grounds s.ledger.rows) :
    (step (p, s)).1.Grounds (step (p, s)).2.ledger.rows := by
  refine Grounds.mono ?_ (extends_of_step p s).rows.subset
  cases p with
  | done outcome => exact h
  | act effect next => exact h s.world
  | note call next =>
    simp only [Plan.step]
    cases s.ledger.recordInvocation call with
    | error e => trivial
    | ok l => exact h
  | look runId iter sample next => exact h _
  | choose runId iter most next =>
    simp only [Plan.step]
    cases hchoice : s.ledger.selectParents runId iter most with
    | error e => trivial
    | ok parents => exact h s.ledger (List.Subset.refl _) parents hchoice
  | insert runId now c next =>
    simp only [Plan.step]
    rcases s.ledger.insert runId now c with _ | ⟨id, l⟩
    · trivial
    · exact h.2

/-- **A slot that was filled in the meantime** ends the plan, and nothing is changed. -/
theorem step_of_hasCandidate {p : Plan σ α} {s : State σ} {runId : String} {iter sample : Nat}
    (hp : p.inserts? = some (runId, iter, sample)) (h : s.ledger.HasCandidate runId iter sample) :
    step (p, s) = (done (.error (.duplicateRecord runId iter sample)), s) := by
  obtain ⟨now, c, next, rfl, rfl, rfl⟩ := inserts?_eq_some_iff.mp hp
  have hrefused : s.ledger.insert runId now c =
      .error (.duplicateRecord runId c.iter c.sample) := Ledger.insert_eq_duplicate_iff.mpr h
  simp only [step, hrefused]

end Plan

end Evolution

end HeuristicEvolution
