import Utos.Coroutine.Frame
import Utos.Execution.Placement

namespace Utos.Execution.Adapters

open Coroutine Program Core Core.DomainTypes Core.Exceptions Models OrderState Validator Tracker Executor Engine
open Placement

variable {W : Type} {h : Handler W AdapterReq AdapterAns} {A : Dict UUID Adapter} {α : Type}

/-- The program registers no adapter and takes none away. -/
abbrev SameAdapters (h : Handler W AdapterReq AdapterAns) (A : Dict UUID Adapter) (p : Op α) : Prop :=
  Keeps h (fun s _ => s.adapters = A) p

variable {request : OrderRequest} {acct : Option UUID} {orderId : OrderId} {ref : Nat} {adapter : Adapter}

theorem same_onTracker (f : OrderTracker → OrderTracker) : SameAdapters h A (onTracker f) :=
  keeps_modify (fun _ _ hs => hs)

theorem same_transition (target : ExecutionOrderStatus) : SameAdapters h A (transition ref target) := by
  refine keeps_attempt (fun s w a s' hs' hs => ?_)
  by_cases ht : target ∈ transitions (s.tracker.objects ref).status
  · rw [validateTransition, if_pos ht] at hs'
    cases hs'
    exact hs
  · rw [validateTransition, if_neg ht] at hs'
    cases hs'

theorem same_getAdapter : SameAdapters h A (getAdapter acct) := keeps_read_bind (fun _ => keeps_lift _)

theorem same_execute (x : OrderExecutor) : SameAdapters h A (x.execute request adapter ref) :=
  fun _ _ hs => wp_execute (fun _ => hs)

theorem same_adopt (result : OrderResult) : SameAdapters h A (adopt acct orderId ref result) :=
  keeps_bind (same_transition _) (fun _ => keeps_bind (same_onTracker _) (fun _ => keeps_ret _))

theorem same_refresh : SameAdapters h A (refresh acct orderId ref adapter) :=
  keeps_read_bind (fun _ => keeps_bind (keeps_await (fun _ _ hs => hs)) (fun result => same_adopt result))

theorem same_settle (result : OrderResult) : SameAdapters h A (settle request ref result) :=
  keeps_read_bind (fun _ => keeps_bind (same_onTracker _) (fun _ => keeps_bind (same_transition _) (fun _ =>
    keeps_bind (same_onTracker _) (fun _ => keeps_ret _))))

theorem same_submit : SameAdapters h A (submit request adapter ref) := by
  refine keeps_bind (same_transition _) (fun _ => keeps_bind (keeps_modify (fun _ _ hs => hs)) (fun _ => ?_))
  exact keeps_read_bind (fun s => keeps_bind (same_execute s.executor) (fun result => same_settle result))

theorem same_fail (exc : Exn) : SameAdapters h A (fail request ref exc) :=
  keeps_bind (same_transition _) (fun _ => keeps_read_bind (fun _ =>
    keeps_bind (same_onTracker _) (fun _ => keeps_raise _)))

theorem same_placeOrder (localOrderId : Nat → String) : SameAdapters h A (placeOrder localOrderId request) := by
  refine keeps_read_bind (fun s => ?_)
  split
  · exact keeps_ret _
  · refine keeps_bind same_getAdapter (fun adapter => keeps_bind (keeps_lift _) (fun _ => ?_))
    refine keeps_bind (keeps_read_bind (fun _ => keeps_bind (same_onTracker _) (fun _ => keeps_ret _))) (fun ref => ?_)
    exact keeps_tryCatch same_submit same_fail

theorem same_tryCancel : SameAdapters h A (tryCancel acct orderId ref adapter) :=
  keeps_read_bind (fun _ => keeps_bind (keeps_await (fun _ _ hs => hs)) (fun _ =>
    keeps_bind (same_transition _) (fun _ => keeps_read_bind (fun _ =>
      keeps_bind (same_onTracker _) (fun _ => keeps_ret _)))))

theorem same_cancelOrder : SameAdapters h A (cancelOrder acct orderId) := by
  refine keeps_read_bind (fun s => ?_)
  split
  · exact keeps_raise _
  · split
    · exact keeps_ret _
    · refine keeps_bind same_getAdapter (fun adapter => keeps_bind (same_transition _) (fun _ => ?_))
      refine keeps_tryCatch same_tryCancel (fun exc => ?_)
      split
      · exact same_refresh
      · exact keeps_raise _

theorem same_syncOrder : SameAdapters h A (syncOrder acct orderId) := by
  refine keeps_read_bind (fun s => ?_)
  split
  · exact keeps_raise _
  · exact keeps_bind same_getAdapter (fun _ => same_refresh)

theorem same_markCancelled : SameAdapters h A (markCancelled acct orderId) := by
  refine keeps_read_bind (fun s => ?_)
  split
  · exact keeps_ret _
  · exact same_transition _

theorem same_cancelOpen (result : OrderResult) : SameAdapters h A (cancelOpen result adapter) := by
  refine keeps_tryCatch (keeps_bind (keeps_await (fun _ _ hs => hs)) (fun _ => keeps_ret _)) (fun exc => ?_)
  split
  · exact keeps_ret _
  · exact keeps_raise _

theorem same_cancelEach (results : List OrderResult) : SameAdapters h A (cancelEach acct adapter results) := by
  induction results with
  | nil => exact keeps_ret _
  | cons result rest ih =>
      refine keeps_bind (same_cancelOpen result) (fun cancelled => ?_)
      split
      · exact keeps_bind same_markCancelled (fun _ => keeps_bind ih (fun _ => keeps_ret _))
      · exact ih

/-- What a call makes of the registered adapters. -/
def registered (A : Dict UUID Adapter) : Call → Dict UUID Adapter
  | .registerAdapter acct adapter => A.set acct adapter
  | .unregisterAdapter acct => A.pop acct
  | _ => A

/-- Adapters come and go by register_adapter and unregister_adapter only. -/
theorem adapters_perform (localOrderId : Nat → String) (c : Call) (s : ExecutionEngine) (w : W) :
    (run h (perform localOrderId c) s w).2.1.adapters = registered s.adapters c := by
  have hsame : ∀ {p : Op Unit}, SameAdapters h s.adapters p → (run h p s w).2.1.adapters = s.adapters :=
    fun hp => hp s w rfl
  cases c with
  | registerAdapter acct adapter | unregisterAdapter acct => rfl
  | placeOrder request =>
      exact hsame (keeps_bind (same_placeOrder localOrderId) (fun _ => keeps_modify (fun _ _ hs => hs)))
  | cancelOrder acct orderId => exact hsame (keeps_bind same_cancelOrder (fun _ => keeps_ret _))
  | cancelAllOrders acct symbol =>
      refine hsame (keeps_bind (keeps_bind same_getAdapter (fun adapter => ?_)) (fun _ => keeps_ret _))
      exact keeps_bind (keeps_await (fun _ _ hs => hs)) (fun results => same_cancelEach results)
  | syncOrder acct orderId => exact hsame (keeps_bind same_syncOrder (fun _ => keeps_ret _))

end Utos.Execution.Adapters
