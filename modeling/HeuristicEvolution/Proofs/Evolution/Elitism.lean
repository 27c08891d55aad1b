import HeuristicEvolution.Proofs.Evolution.Generations
import HeuristicEvolution.Proofs.Ledger.Selection

/-!
# Elitism

A row that could be a parent once can be a parent ever after: rows are not lost, and a later
generation looks at all iterations that an earlier one looked at, and more. So the stock of a later
generation holds the stock of an earlier one, and its best rows are at least as good, position by
position.

The argument is about two rankings of which one has more rows. Sorted by their keys, the scores of
the smaller ranking are a sublist of the scores of the larger one; the score at a position of the
smaller ranking then stands at this position of the larger one or after it, where scores are no
higher (`exists_le_of_sublist`).

## Main definitions

* `Ledger.Grown`: a ledger after some candidates were taken in.
* `Parents.Surpassed`: other parents are at least as many, and as good at every position.

## Main results

* `Ledger.Extends.surpassed`: selection in a ledger that holds more.
* `Evolution.elitism_is_monotone`
-/

namespace HeuristicEvolution

/-- The other parents are at least as many, the score at every position is at least as high, and so
is the best score. -/
structure Parents.Surpassed (p p' : Parents) : Prop where
  length_le : p.ids.length ≤ p'.ids.length
  score_le : ∀ (m : Nat) (x : Float), p.scores[m]? = some x →
    ∃ y, p'.scores[m]? = some y ∧ Binary.NotAbove x y
  best_le : ∀ x, p.bestScore = some x → ∃ y, p'.bestScore = some y ∧ Binary.NotAbove x y

namespace Ledger

variable {l l' : Ledger} {runId : String} {i j k : Nat} {p : Parents}

/-- The second ledger is the first one after some candidates, of any runs, were taken in. -/
def Grown : Ledger → Ledger → Prop :=
  Relation.ReflTransGen fun l l' => ∃ runId now c id, l.insert runId now c = .ok (id, l')

theorem Grown.extends (h : l.Grown l') : l.Extends l' := by
  induction h with
  | refl => exact .refl l
  | tail _ hstep ih =>
    obtain ⟨runId, now, c, id, hinsert⟩ := hstep
    exact ih.trans (extends_insert hinsert)

/-! ## Two rankings -/

/-- Descending keys among which others are found in their order are no lower at any position. -/
theorem exists_le_of_sublist {xs ys : List Int} (hsub : xs.Sublist ys)
    (hys : ys.Pairwise (· ≥ ·)) {m : Nat} {x : Int} (hx : xs[m]? = some x) :
    ∃ y, ys[m]? = some y ∧ x ≤ y := by
  obtain ⟨f, hf⟩ := List.sublist_iff_exists_orderEmbedding_getElem?_eq.mp hsub
  have hfm : ys[f m]? = some x := (hf m).symm.trans hx
  obtain ⟨hlt, hat⟩ := List.getElem?_eq_some_iff.mp hfm
  have hle : m ≤ f m := f.strictMono.le_apply
  refine ⟨ys[m], List.getElem?_eq_getElem (Nat.lt_of_le_of_lt hle hlt), ?_⟩
  rcases Nat.eq_or_lt_of_le hle with heq | hbefore
  · simp only [← heq] at hat
    exact Int.le_of_eq hat.symm
  · have hge := List.pairwise_iff_getElem.mp hys m (f m) (Nat.lt_of_le_of_lt hle hlt) hlt hbefore
    rwa [hat] at hge

theorem Extends.candidates_sublist (h : l.Extends l') (hij : i ≤ j) :
    (l.candidatesForParents runId i).Sublist (l'.candidatesForParents runId j) := by
  refine ((h.rows.sublist.filter _).filter _).trans (List.monotone_filter_right _ fun r hr => ?_)
  simp only [Bool.and_eq_true, decide_eq_true_eq] at hr ⊢
  exact ⟨⟨hr.1.1.trans hij, hr.1.2⟩, hr.2⟩

theorem Extends.length_eligible_le (h : l.Extends l') (hij : i ≤ j) :
    (l.eligible runId i).length ≤ (l'.eligible runId j).length := by
  rw [eligible_eq, eligible_eq, List.length_mergeSort, List.length_mergeSort]
  exact (h.candidates_sublist hij).length_le

theorem keys_descend (l : Ledger) (runId : String) (maxIter : Nat) :
    ((l.eligible runId maxIter).map Row.scoreKey).Pairwise (· ≥ ·) := by
  refine List.pairwise_map.mpr ((pairwise_eligible l runId maxIter).imp fun {a b} hle => ?_)
  rw [Row.rankLE_iff] at hle
  omega

/-- The keys of a ranking are found in a ranking that has more rows, and in their order. -/
theorem Extends.keys_sublist (h : l.Extends l') (hij : i ≤ j) :
    ((l.eligible runId i).map Row.scoreKey).Sublist
      ((l'.eligible runId j).map Row.scoreKey) := by
  have hless := (List.mergeSort_perm (l.candidatesForParents runId i) Row.rankLE).map Row.scoreKey
  have hmore := (List.mergeSort_perm (l'.candidatesForParents runId j) Row.rankLE).map Row.scoreKey
  have hsub : ((l.candidatesForParents runId i).map Row.scoreKey).Sublist
      ((l'.candidatesForParents runId j).map Row.scoreKey) :=
    (h.candidates_sublist hij).map Row.scoreKey
  exact List.sublist_of_subperm_of_pairwise
    (hless.subperm.trans (hsub.subperm.trans hmore.symm.subperm)) (l.keys_descend runId i)
    (l'.keys_descend runId j)

/-- **A score at a position of a ranking** has, where there are more rows, one at this position that
is no lower. -/
theorem Extends.exists_score_le (h : l.Extends l') (hij : i ≤ j) {m : Nat} {r : Row} {x : Float}
    (hr : (l.eligible runId i)[m]? = some r) (hx : r.score = some x) :
    ∃ r' y, (l'.eligible runId j)[m]? = some r' ∧ r'.score = some y ∧ Binary.NotAbove x y := by
  have hkey : ((l.eligible runId i).map Row.scoreKey)[m]? = some r.scoreKey := by
    rw [List.getElem?_map, hr, Option.map_some]
  obtain ⟨key, hat, hle⟩ := exists_le_of_sublist (h.keys_sublist hij) (l'.keys_descend runId j) hkey
  rw [List.getElem?_map, Option.map_eq_some_iff] at hat
  obtain ⟨r', hr', rfl⟩ := hat
  obtain ⟨-, -, -, hranked, -⟩ := mem_eligible_iff.mp (List.mem_of_getElem? hr')
  obtain ⟨y, hy⟩ := Row.exists_score_of_ranked hranked
  rw [Row.scoreKey, Row.scoreKey, hx, hy] at hle
  exact ⟨r', y, hr', hy, Binary.notAbove_iff.mpr hle⟩

/-! ## Two selections -/

/-- The score at a position is that of the row of this position. -/
theorem getElem?_scores_iff (hp : l.selectParents runId i k = .ok p) {m : Nat} {x : Float} :
    p.scores[m]? = some x ↔
      m < k ∧ ∃ r, (l.eligible runId (i - 1))[m]? = some r ∧ r.score = some x := by
  have hat : (((l.eligible runId (i - 1)).take k).map Row.score)[m]? = (p.scores.map some)[m]? := by
    rw [(lists_of_selectParents hp).scores]
  rw [List.getElem?_map, List.getElem?_map, List.getElem?_take] at hat
  split at hat
  · next hmk =>
    rw [and_iff_right hmk, ← Option.map_eq_some_iff, hat]
    simp
  · next hmk =>
    rw [Option.map_none, eq_comm, Option.map_eq_none_iff] at hat
    simp [hat, hmk]

/-- **Selection in a ledger that holds more**, for the same generation or a later one. -/
theorem Extends.surpassed (h : l.Extends l') (hij : i ≤ j)
    (hp : l.selectParents runId i k = .ok p) :
    ∃ p', l'.selectParents runId j k = .ok p' ∧ p.Surpassed p' := by
  have hij : i - 1 ≤ j - 1 := Nat.sub_le_sub_right hij 1
  have hmore : (l.eligible runId (i - 1)).length ≤ (l'.eligible runId (j - 1)).length :=
    h.length_eligible_le hij
  obtain ⟨htwo, -⟩ := selectParents_eq_ok_iff.mp hp
  obtain ⟨p', hp'⟩ : ∃ p', l'.selectParents runId j k = .ok p' :=
    ⟨_, selectParents_eq_ok_iff.mpr ⟨htwo.trans hmore, rfl⟩⟩
  have hscore : ∀ (m : Nat) (x : Float), p.scores[m]? = some x →
      ∃ y, p'.scores[m]? = some y ∧ Binary.NotAbove x y := by
    intro m x hx
    obtain ⟨hmk, r, hr, hrx⟩ := (getElem?_scores_iff hp).mp hx
    obtain ⟨r', y, hr', hy, hle⟩ := h.exists_score_le hij hr hrx
    exact ⟨y, (getElem?_scores_iff hp').mpr ⟨hmk, r', hr', hy⟩, hle⟩
  refine ⟨p', hp', ?_, hscore, fun x hx => ?_⟩
  · rw [(lists_of_selectParents hp).ids, (lists_of_selectParents hp').ids, List.length_map,
      List.length_map, List.length_take, List.length_take]
    exact min_le_min_left k hmore
  · rw [Parents.bestScore, List.head?_eq_getElem?] at hx ⊢
    exact hscore 0 x hx

end Ledger

namespace Evolution

variable {σ : Type} {lab : Laboratory σ} {runId now : String} {settings : Settings}
  {start stop : Nat} {checkout : Option Checkout} {s s₁ s₂ : State σ} {i j : Nat}

/-- Between two iterations of a call nothing is lost. -/
theorem Reaches.extends (h : Reaches lab runId now settings start stop checkout s i s₁)
    (h' : Reaches lab runId now settings start stop checkout s j s₂) (hstart : start ≤ i)
    (hij : i ≤ j) :
    s₁.ledger.Extends s₂.ledger := by
  obtain ⟨l, summary, hnoted, hfirst⟩ := reaches_iff.mp h
  obtain ⟨l', summary', hnoted', hsecond⟩ := reaches_iff.mp h'
  obtain rfl := Except.ok.inj (hnoted.symm.trans hnoted')
  rw [slots_append settings.samples hstart hij, visitAll_append, bind_of_ok hfirst] at hsecond
  exact extends_of_visitAll hsecond

/-- A call loses nothing of what was recorded, and neither do several. -/
theorem Call.extends_perform (l : Ledger) (call : Call) : l.Extends (call.perform l) := by
  cases call with
  | openRun task model now requested backend checkout =>
    rw [Call.perform]
    split
    · next hopen =>
      rcases openRun_eq_ok hopen with rfl | ⟨run, hadd⟩
      · exact .refl _
      · exact Ledger.extends_addRun hadd
    · exact .refl l
  | evolve lab world runId now settings start stop checkout =>
    exact evolve_preserves (P := l.Extends)
      (fun _ _ _ hnoted h => h.trans (Ledger.extends_recordInvocation hnoted))
      (fun _ _ l₁ c _ h => h.trans (Ledger.extends_append l₁ runId now c)) ⟨l, world⟩ (.refl l)

theorem extends_foldl_perform (l : Ledger) (calls : List Call) :
    l.Extends (calls.foldl Call.perform l) := by
  induction calls generalizing l with
  | nil => exact .refl l
  | cons call rest ih => exact (call.extends_perform l).trans (ih _)

/-- **Elitism is monotone.** If there are parents for a generation, then

* in every ledger that has grown by candidates since, of whatever runs, there are parents for the
  same generation and for every later one, at least as many, and position by position their scores
  are at least as high;
* so it is after calls that opened runs and worked on them, also if some of them failed;
* so it is with the generations that one call comes to, whatever its laboratory: the best score of
  the parents never falls. -/
theorem elitism_is_monotone (runId : String) :
    (∀ (l l' : Ledger) (i j k : Nat) (p : Parents), l.Grown l' → i ≤ j →
      l.selectParents runId i k = .ok p →
        ∃ p', l'.selectParents runId j k = .ok p' ∧ p.Surpassed p') ∧
    (∀ (l : Ledger) (calls : List Call) (i j k : Nat) (p : Parents), i ≤ j →
      l.selectParents runId i k = .ok p →
        ∃ p', (calls.foldl Call.perform l).selectParents runId j k = .ok p' ∧ p.Surpassed p') ∧
    ∀ {σ : Type} (lab : Laboratory σ) (now : String) (settings : Settings) (start stop : Nat)
        (checkout : Option Checkout) (s s₁ s₂ : State σ) (i j : Nat) (p : Parents),
      start ≤ i → i ≤ j → Reaches lab runId now settings start stop checkout s i s₁ →
      Reaches lab runId now settings start stop checkout s j s₂ →
      s₁.ledger.selectParents runId i settings.parents = .ok p →
        ∃ p', s₂.ledger.selectParents runId j settings.parents = .ok p' ∧ p.Surpassed p' := by
  refine ⟨?_, ?_, ?_⟩
  · intro l l' i j k p hgrown hij hp
    exact hgrown.extends.surpassed hij hp
  · intro l calls i j k p hij hp
    exact (extends_foldl_perform l calls).surpassed hij hp
  · intro σ lab now settings start stop checkout s s₁ s₂ i j p hstart hij hi hj hp
    exact (hi.extends hj hstart hij).surpassed hij hp

/-- There are two parents for iteration one. A better candidate of iteration one is recorded; then
a call comes to iterations one and two, and when it has ended there are still parents. -/
theorem elitism_is_monotone_scripted :
    let row (id : Int) (sample : Nat) : Row :=
      { id, runId := "sort_0", iter := 0, sample, finalCode := some "code",
        buildStatus := some true, execStatus := some true, score := some 0.5, results := .absent,
        logs := .absent, revisions := .absent, parentIds := .absent, parentCodes := .absent,
        recordedAt := "" }
    let c : Candidate :=
      { iter := 1, sample := 0, finalCode := some "better", buildStatus := some true,
        execStatus := some true, results := some (.obj [("score", .float 2)]), logs := none,
        revisions := [], parentIds := none, parentCodes := none }
    let l : Ledger :=
      { runs := [⟨"sort_0", "sort", "scripted", "", .null⟩], invocations := [],
        rows := [row 1 0, row 2 1], nextId := 3 }
    let l' := l.append "sort_0" "" c
    let lab := Script.laboratory Script.repairPrompt
    let settings : Settings := ⟨1, 1, 2, .standard⟩
    let arrives := Reaches lab "sort_0" "" settings 1 3 none ⟨l', {}⟩
    let after := (Call.evolve lab {} "sort_0" "" settings 1 3 none).perform l'
    ∃ p, l.selectParents "sort_0" 1 2 = .ok p ∧
      (∃ q, l'.selectParents "sort_0" 2 2 = .ok q ∧ p.Surpassed q) ∧
      (∃ q, after.selectParents "sort_0" 3 2 = .ok q ∧ p.Surpassed q) ∧
      ∃ s₁ s₂ q, arrives 1 s₁ ∧ arrives 2 s₂ ∧ s₁.ledger.selectParents "sort_0" 1 2 = .ok p ∧
        s₂.ledger.selectParents "sort_0" 2 2 = .ok q ∧ p.Surpassed q := by
  intro row c l l' lab settings arrives after
  have hgrown : l.Grown l' := .single ⟨"sort_0", "", c, 3, rfl⟩
  have htwo : 2 ≤ (l.eligible "sort_0" 0).length := by
    rw [Ledger.eligible_eq, List.length_mergeSort]
    decide
  obtain ⟨p, hp⟩ : ∃ p, l.selectParents "sort_0" 1 2 = .ok p :=
    ⟨_, Ledger.selectParents_eq_ok_iff.mpr ⟨htwo, rfl⟩⟩
  have hp' : l'.selectParents "sort_0" 1 2 = .ok p :=
    (Ledger.selectParents_append_of_lt "sort_0" (by decide) (by decide)).trans hp
  have hone : arrives 1 _ := ⟨_, _, rfl, rfl⟩
  have hnext : arrives 2 _ := ⟨_, _, rfl, rfl⟩
  obtain ⟨hlater, hcalls, hrun⟩ := elitism_is_monotone "sort_0"
  refine ⟨p, hp, hlater l l' 1 2 2 p hgrown (by decide) hp,
    hcalls l' [.evolve lab {} "sort_0" "" settings 1 3 none] 1 3 2 p (by decide) hp', ?_⟩
  obtain ⟨q, hq, hle⟩ :=
    hrun lab "" settings 1 3 none _ _ _ 1 2 p (by decide) (by decide) hone hnext hp'
  exact ⟨_, _, q, hone, hnext, hp', hq, hle⟩

end Evolution

end HeuristicEvolution
