import Utos.Core.DomainTypes
import Utos.Core.Exceptions

namespace Utos.ProfitLock.State

open Core.DomainTypes Core.Exceptions

inductive ProfitLockStatus
  | disabled
  | monitoring
  | triggered
  | executing
  | locked
  | cancelled
  | error
  deriving DecidableEq, Repr

def ProfitLockStatus.value : ProfitLockStatus → String
  | disabled => "disabled"
  | monitoring => "monitoring"
  | triggered => "triggered"
  | executing => "executing"
  | locked => "locked"
  | cancelled => "cancelled"
  | error => "error"

structure ProfitLockState where
  status : ProfitLockStatus := .disabled
  enabled : Bool := false
  triggerPercentage : ℚ := 0
  trailPercentage : ℚ := 0
  maxProfitPercentage : ℚ := 0
  entryPrice : ℚ := 0
  quantity : ℚ := 0
  side : String := "long"
  highestPrice : Option ℚ := none
  lockPrice : Option ℚ := none
  isTriggered : Bool := false
  isExecuted : Bool := false
  lockOrderId : OrderId := none
  exchangeAccountId : Option UUID := none
  symbol : String := ""
  deriving DecidableEq, Repr

/-- ProfitLockStateMachine.TRANSITIONS -/
def transitions : ProfitLockStatus → List ProfitLockStatus
  | .disabled => [.monitoring, .cancelled]
  | .monitoring => [.triggered, .disabled, .cancelled, .error]
  | .triggered => [.triggered, .executing, .disabled, .cancelled, .error]
  | .executing => [.locked, .triggered, .disabled, .cancelled, .error]
  | .locked => [.monitoring, .disabled, .cancelled]
  | .cancelled => [.disabled, .monitoring]
  | .error => [.monitoring, .triggered, .disabled]

def validateTransition (source target : ProfitLockStatus) : Except Exn Unit :=
  if target ∈ transitions source then .ok ()
  else .error (.invalidStateTransition s!"Invalid profit lock transition: {source.value} → {target.value}"
    source.value target.value)

/-- ProfitLockStore: the lock states by key. The metrics kept beside them are
counters no decision reads. -/
abbrev Store (κ : Type) := κ → Option ProfitLockState

namespace Store

variable {κ : Type} [DecidableEq κ]

def put (store : Store κ) (key : κ) (state : ProfitLockState) : Store κ :=
  Function.update store key (some state)

/-- Assign to attributes of the state object held by the store. -/
def assign (store : Store κ) (key : κ) (f : ProfitLockState → ProfitLockState) : Store κ :=
  match store key with
  | none => store
  | some state => store.put key (f state)

def transition [ToString κ] (store : Store κ) (key : κ) (target : ProfitLockStatus) :
    Except Exn (Unit × Store κ) :=
  match store key with
  | none => .error (.profitLockError s!"Profit lock not found for instance {key}")
  | some state => do
      validateTransition state.status target
      return ((), store.put key { state with status := target })

theorem transition_ok [ToString κ] {store store' : Store κ} {key : κ} {target : ProfitLockStatus}
    (h : store.transition key target = .ok ((), store')) :
    ∃ st, store key = some st ∧ target ∈ transitions st.status ∧
      store' = store.put key { st with status := target } := by
  unfold transition at h
  cases hl : store key with
  | none => simp [hl] at h
  | some st =>
      simp only [hl, validateTransition] at h
      by_cases ht : target ∈ transitions st.status
      · simp only [ht, if_true, bind, Except.bind, pure, Except.pure, Except.ok.injEq, Prod.mk.injEq,
          true_and] at h
        exact ⟨st, rfl, ht, h.symm⟩
      · simp [ht, bind, Except.bind] at h

end Store

end Utos.ProfitLock.State
