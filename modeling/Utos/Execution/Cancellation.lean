import Utos.Coroutine.Pool
import Utos.Execution.Placement

namespace Utos.Execution.Cancellation

open Coroutine Program Core.DomainTypes Core.Exceptions Models OrderState Tracker Executor Engine Placement

variable {W : Type} {h : Handler W AdapterReq AdapterAns}

/-- What the exchange is asked when an order is cancelled. -/
abbrev cancelReq (adapter : Adapter) (tracked : OrderResult) : AdapterReq :=
  .cancelOrder adapter (upper tracked.symbol) tracked.exchangeOrderId

abbrev statusReq (adapter : Adapter) (ref : Nat) (tracked : OrderResult) : AdapterReq :=
  .getOrder adapter ref (upper tracked.symbol) tracked.exchangeOrderId

/-- The exceptions after which cancel_order asks for the state of the order. -/
def asksStatus (exc : Exn) : Bool := exc.isExchangeError || exc.isOrderAlreadyFilled

/-- What the exchange reports of the order in the course of a cancel that it did not take. -/
def reported (h : Handler W AdapterReq AdapterAns) (w : W) (adapter : Adapter) (ref : Nat) (tracked : OrderResult) :
    Option OrderResult :=
  match (h w (cancelReq adapter tracked)).1 with
  | .ok _ => none
  | .error exc =>
      if asksStatus exc then
        match (h (h w (cancelReq adapter tracked)).2 (statusReq adapter ref tracked)).1 with
        | .ok result => some result
        | .error _ => none
      else none

variable {acct : Option UUID} {orderId : OrderId} {ref : Nat} {adapter : Adapter} {s : ExecutionEngine} {w : W}

/-- The state once the order is marked as being cancelled. -/
def cancelling (s : ExecutionEngine) (ref : Nat) : ExecutionEngine :=
  { s with tracker := s.tracker.setStatus ref .cancelling }

theorem wp_refresh {R : Except Exn OrderResult → ExecutionEngine → W → Prop} :
    wp h (refresh acct orderId ref adapter) R s w ↔
      andThen h (adopt acct orderId ref) R
        ((h w (statusReq adapter ref (s.tracker.objects ref).result)).1.mapError (asExecutionError adapter "Get order")) s
        (h w (statusReq adapter ref (s.tracker.objects ref).result)).2 := by
  simp only [refresh, bind_eq, wp_bind, wp_read, andThen_ok, getOrder, wp_await]

def adopted (t : OrderTracker) (ref : Nat) (result : OrderResult) : OrderTracker :=
  ((t.setStatus ref (mapExchangeStatus result.status)).setResult ref result).setStatus ref
    (mapExchangeStatus result.status)

theorem adopted_status (t : OrderTracker) (ref : Nat) (result : OrderResult) :
    ((adopted t ref result).objects ref).status = mapExchangeStatus result.status := by
  simp [adopted, OrderTracker.setStatus_objects]

theorem wp_adopt {R : Except Exn OrderResult → ExecutionEngine → W → Prop} {result : OrderResult}
    (hget : s.tracker.get acct orderId = some ref)
    (hok : mapExchangeStatus result.status ∈ transitions (s.tracker.objects ref).status →
      R (.ok result) { s with tracker := adopted s.tracker ref result } w)
    (hrefused : mapExchangeStatus result.status ∉ transitions (s.tracker.objects ref).status →
      ∀ exc, R (.error exc) s w) : wp h (adopt acct orderId ref result) R s w := by
  simp only [adopt, bind_eq, wp_bind]
  by_cases hmem : mapExchangeStatus result.status ∈ transitions (s.tracker.objects ref).status
  · rw [wp_transition hmem]
    simp only [andThen_ok, wp_bind, onTracker, wp_modify, pure_eq, wp_ret]
    rw [OrderTracker.update_of_get (show (s.tracker.setStatus ref _).get acct orderId = some ref from hget)]
    exact hok hmem
  · rw [wp_transition_refused hmem]
    exact hrefused hmem _

end Utos.Execution.Cancellation
