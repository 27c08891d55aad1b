import HeuristicEvolution.Evolution.Basic

/-!
# Steps that may fail

A call is put together of steps that may fail half way, and a failed step keeps what it changed.
This module has the lemmas that take such steps apart, one pair for each way of composing them, so
that nothing later unfolds a bind.

## Main definitions

* `Evolution.finalState`: the state that steps leave, however they end.
* `Evolution.KeepsLedger`: steps that leave the ledger alone.

## Main results

* `Evolution.bind_eq_ok_iff`, `Evolution.bind_eq_error_iff`
* `Evolution.outsideExcept_eq_ok_iff`, `Evolution.converse_eq_ok_iff`, and the same for failures
-/

namespace HeuristicEvolution

/-! ## One step after another -/

theorem Except.bind_eq_ok {ε α β : Type} {r : Except ε α} {f : α → Except ε β} {b : β}
    (h : (r >>= f) = .ok b) : ∃ a, r = .ok a ∧ f a = .ok b := by
  cases r with
  | error e => cases h
  | ok a => exact ⟨a, rfl, h⟩

theorem Except.exists_ok_of_isOk {ε α : Type} {r : Except ε α} (h : r.isOk = true) :
    ∃ a, r = .ok a := by
  cases r with
  | error e => cases h
  | ok a => exact ⟨a, rfl⟩

namespace Evolution

section Steps

variable {ε σ α β : Type} {x : EStateM ε σ α} {f : α → EStateM ε σ β} {s s' : σ}

theorem bind_eq_ok_iff {b : β} :
    (x >>= f) s = .ok b s' ↔ ∃ a t, x s = .ok a t ∧ f a t = .ok b s' := by
  change EStateM.bind x f s = _ ↔ _
  unfold EStateM.bind
  cases x s <;> simp [and_assoc]

theorem bind_eq_error_iff {e : ε} :
    (x >>= f) s = .error e s' ↔
      x s = .error e s' ∨ ∃ a t, x s = .ok a t ∧ f a t = .error e s' := by
  change EStateM.bind x f s = _ ↔ _
  unfold EStateM.bind
  cases x s <;> simp [and_assoc]

theorem bind_of_ok {a : α} (h : x s = .ok a s') : (x >>= f) s = f a s' := by
  change EStateM.bind x f s = _
  rw [EStateM.bind, h]

theorem bind_of_error {e : ε} (h : x s = .error e s') : (x >>= f) s = .error e s' := by
  change EStateM.bind x f s = _
  rw [EStateM.bind, h]

end Steps

variable {σ : Type} {α β : Type}

/-- The state that steps leave, whether they succeed or fail. -/
def finalState (steps : Run σ α) (s : State σ) : State σ :=
  match steps s with
  | .ok _ s' => s'
  | .error _ s' => s'

theorem finalState_of_ok {steps : Run σ α} {s s' : State σ} {a : α} (h : steps s = .ok a s') :
    finalState steps s = s' := by rw [finalState, h]

theorem finalState_of_error {steps : Run σ α} {s s' : State σ} {e : Failure}
    (h : steps s = .error e s') : finalState steps s = s' := by rw [finalState, h]

section Outside

variable {s s' : State σ} {a : α} {e : Failure}

theorem outsideExcept_eq_ok_iff {step : σ → Except Failure α × σ} :
    outsideExcept step s = .ok a s' ↔
      (step s.world).1 = .ok a ∧ s' = { s with world := (step s.world).2 } := by
  rw [outsideExcept]
  rcases step s.world with ⟨_ | _, _⟩ <;> simp [eq_comm]

theorem outsideExcept_eq_error_iff {step : σ → Except Failure α × σ} :
    outsideExcept step s = .error e s' ↔
      (step s.world).1 = .error e ∧ s' = { s with world := (step s.world).2 } := by
  rw [outsideExcept]
  rcases step s.world with ⟨_ | _, _⟩ <;> simp [eq_comm]

theorem converse_eq_ok_iff {talk : EStateM Failure (Conversation σ) α} :
    converse talk s = .ok a s' ↔
      ∃ c, talk ⟨s.world, 0⟩ = .ok a c ∧ s' = { s with world := c.world } := by
  rw [converse]
  cases talk ⟨s.world, 0⟩ <;> simp [eq_comm, and_assoc]

theorem converse_eq_error_iff {talk : EStateM Failure (Conversation σ) α} :
    converse talk s = .error e s' ↔
      ∃ c, talk ⟨s.world, 0⟩ = .error e c ∧ s' = { s with world := c.world } := by
  rw [converse]
  cases talk ⟨s.world, 0⟩ <;> simp [eq_comm, and_assoc]

end Outside

/-! ## Steps that leave the ledger alone -/

/-- The steps leave the ledger as it is, whether they succeed or fail. -/
def KeepsLedger (steps : Run σ α) : Prop :=
  ∀ s, (finalState steps s).ledger = s.ledger

namespace KeepsLedger

theorem of_ok {steps : Run σ α} (h : KeepsLedger steps) {s s' : State σ} {a : α}
    (hs : steps s = .ok a s') : s'.ledger = s.ledger := finalState_of_ok hs ▸ h s

theorem of_error {steps : Run σ α} (h : KeepsLedger steps) {s s' : State σ} {e : Failure}
    (hs : steps s = .error e s') : s'.ledger = s.ledger := finalState_of_error hs ▸ h s

theorem pure (a : α) : KeepsLedger (Pure.pure a : Run σ α) := fun _ => rfl

theorem bind {x : Run σ α} {f : α → Run σ β} (hx : KeepsLedger x)
    (hf : ∀ a, KeepsLedger (f a)) : KeepsLedger (x >>= f) := by
  intro s
  cases h : x s with
  | error e s' => rw [finalState_of_error (bind_of_error h), hx.of_error h]
  | ok a s' =>
    have hcont : finalState (x >>= f) s = finalState (f a) s' := by
      rw [finalState, bind_of_ok h, finalState]
    rw [hcont, hf a, hx.of_ok h]

theorem outside (step : σ → α × σ) : KeepsLedger (Evolution.outside step) := fun _ => rfl

theorem outsideExcept (step : σ → Except Failure α × σ) :
    KeepsLedger (Evolution.outsideExcept step) := by
  intro s
  rw [finalState, Evolution.outsideExcept]
  rcases step s.world with ⟨_ | _, _⟩ <;> rfl

theorem converse (talk : EStateM Failure (Conversation σ) α) :
    KeepsLedger (Evolution.converse talk) := by
  intro s
  rw [finalState, Evolution.converse]
  cases talk ⟨s.world, 0⟩ <;> rfl

end KeepsLedger

end Evolution

end HeuristicEvolution
