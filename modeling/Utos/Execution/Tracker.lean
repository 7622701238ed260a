import Mathlib.Logic.Function.Basic
import Utos.Core.Exceptions
import Utos.Execution.Models
import Utos.Core.Dict

namespace Utos.Execution.OrderState

open Core.Exceptions Models

/-- OrderStateMachine.TRANSITIONS -/
def transitions : ExecutionOrderStatus → List ExecutionOrderStatus
  | .pending => [.submitting]
  | .submitting => [.opened, .partiallyFilled, .filled, .rejected, .failed]
  | .opened => [.partiallyFilled, .filled, .cancelling, .cancelled]
  | .partiallyFilled => [.partiallyFilled, .filled, .cancelling, .cancelled]
  | .cancelling => [.cancelled, .filled, .partiallyFilled]
  | .failed => [.submitting]
  | .filled => []
  | .cancelled => []
  | .rejected => []

def invalidTransition (current target : ExecutionOrderStatus) : Exn :=
  .invalidStateTransition s!"Cannot transition order from {current.value} to {target.value}" current.value target.value

def validateTransition (current target : ExecutionOrderStatus) : Except Exn Unit :=
  if target ∈ transitions current then .ok () else .error (invalidTransition current target)

def isTerminal (status : ExecutionOrderStatus) : Bool := status ∈ [.filled, .cancelled, .rejected]

theorem validateTransition_ok {current target : ExecutionOrderStatus} {a : Unit}
    (h : validateTransition current target = .ok a) : target ∈ transitions current := by
  unfold validateTransition at h
  split at h
  next hmem => exact hmem
  next => cases h

theorem transitions_terminal {status : ExecutionOrderStatus} (h : isTerminal status) :
    transitions status = [] := by
  cases status <;> first | rfl | cases h

end Utos.Execution.OrderState

namespace Utos.Execution.Tracker

open Core Core.DomainTypes Models OrderState

abbrev Key := Option UUID × OrderId

/-- One assignment to the status of a tracked order. -/
structure StatusWrite where
  ref : Nat
  old : ExecutionOrderStatus
  new : ExecutionOrderStatus
  deriving DecidableEq, Repr

def unused : TrackedOrder :=
  { requestId := 0
    exchangeAccountId := none
    result := { orderId := none, exchangeOrderId := "", symbol := "", side := "", orderType := "", quantity := 0
                price := none, filledQuantity := 0, averageFillPrice := none, status := "" }
    status := .pending }

/-- The dicts of OrderTracker hold references: an operation under way shares
the TrackedOrder it works on with the tracker. The objects are numbered in the
order of their creation; writes lists every assignment to a status, the newest
first, and is read by no operation. -/
structure OrderTracker where
  objects : Nat → TrackedOrder := fun _ => unused
  size : Nat := 0
  orders : Dict Key Nat := ∅
  requestIndex : Dict UUID Key := ∅
  writes : List StatusWrite := []

namespace OrderTracker

variable (t : OrderTracker)

/-- The reference to the new TrackedOrder is the size before the call. -/
def track (requestId : UUID) (exchangeAccountId : Option UUID) (result : OrderResult)
    (status : ExecutionOrderStatus) : OrderTracker :=
  let key := (exchangeAccountId, result.orderId)
  { t with
    objects := Function.update t.objects t.size
      { requestId := requestId, exchangeAccountId := exchangeAccountId, result := result, status := status }
    size := t.size + 1
    orders := t.orders.set key t.size
    requestIndex := t.requestIndex.set requestId key }

def getByRequestId (requestId : UUID) : Option Nat := (t.requestIndex.get requestId).bind t.orders.get

def get (exchangeAccountId : Option UUID) (orderId : OrderId) : Option Nat :=
  t.orders.get (exchangeAccountId, orderId)

def reKey (exchangeAccountId : Option UUID) (oldOrderId newOrderId : OrderId) : OrderTracker :=
  match t.orders.get (exchangeAccountId, oldOrderId) with
  | none => t
  | some ref =>
      { t with
        orders := (t.orders.pop (exchangeAccountId, oldOrderId)).set (exchangeAccountId, newOrderId) ref
        requestIndex := t.requestIndex.set (t.objects ref).requestId (exchangeAccountId, newOrderId) }

def assign (ref : Nat) (f : TrackedOrder → TrackedOrder) : OrderTracker :=
  { t with objects := Function.update t.objects ref (f (t.objects ref)) }

/-- tracked.status = status -/
def setStatus (ref : Nat) (status : ExecutionOrderStatus) : OrderTracker :=
  { t.assign ref (fun o => { o with status := status }) with
    writes := { ref := ref, old := (t.objects ref).status, new := status } :: t.writes }

def setResult (ref : Nat) (result : OrderResult) : OrderTracker :=
  t.assign ref (fun o => { o with result := result })

def update (exchangeAccountId : Option UUID) (orderId : OrderId) (result : OrderResult)
    (status : Option ExecutionOrderStatus := none) (incrementRetry : Bool := false) : OrderTracker :=
  match t.get exchangeAccountId orderId with
  | none => t
  | some ref =>
      let t := t.setResult ref result
      let t := match status with
        | none => t
        | some status => t.setStatus ref status
      if incrementRetry then t.assign ref (fun o => { o with retryCount := o.retryCount + 1 }) else t

def listActive (exchangeAccountId : Option UUID := none) : List Nat :=
  t.orders.entries.filterMap (fun e =>
    if (t.objects e.2).isActive ∧ (exchangeAccountId = none ∨ e.1.1 = exchangeAccountId) then some e.2 else none)

end OrderTracker

/-- OrderTracker.map_exchange_status -/
def mapExchangeStatus (status : String) : ExecutionOrderStatus :=
  match lower status with
  | "pending" => .pending
  | "open" => .opened
  | "partially_filled" => .partiallyFilled
  | "filled" => .filled
  | "cancelled" => .cancelled
  | "rejected" => .rejected
  | "expired" => .cancelled
  | _ => .opened

namespace OrderTracker

variable {t : OrderTracker}

@[simp] theorem setStatus_orders (ref : Nat) (status : ExecutionOrderStatus) :
    (t.setStatus ref status).orders = t.orders := rfl

@[simp] theorem setStatus_requestIndex (ref : Nat) (status : ExecutionOrderStatus) :
    (t.setStatus ref status).requestIndex = t.requestIndex := rfl

@[simp] theorem setStatus_size (ref : Nat) (status : ExecutionOrderStatus) :
    (t.setStatus ref status).size = t.size := rfl

theorem setStatus_objects (ref r : Nat) (status : ExecutionOrderStatus) :
    (t.setStatus ref status).objects r =
      if r = ref then { t.objects r with status := status } else t.objects r := by
  by_cases h : r = ref
  · subst h
    simp [setStatus, assign]
  · simp [setStatus, assign, h]

theorem setResult_objects (ref r : Nat) (result : OrderResult) :
    (t.setResult ref result).objects r =
      if r = ref then { t.objects r with result := result } else t.objects r := by
  by_cases h : r = ref
  · subst h
    simp [setResult, assign]
  · simp [setResult, assign, h]

@[simp] theorem reKey_objects (acct : Option UUID) (old new : OrderId) : (t.reKey acct old new).objects = t.objects := by
  unfold reKey
  split <;> rfl

@[simp] theorem reKey_size (acct : Option UUID) (old new : OrderId) : (t.reKey acct old new).size = t.size := by
  unfold reKey
  split <;> rfl

@[simp] theorem reKey_writes (acct : Option UUID) (old new : OrderId) : (t.reKey acct old new).writes = t.writes := by
  unfold reKey
  split <;> rfl

theorem update_of_get {acct : Option UUID} {orderId : OrderId} {ref : Nat} (h : t.get acct orderId = some ref)
    (result : OrderResult) (status : ExecutionOrderStatus) :
    t.update acct orderId result (some status) = (t.setResult ref result).setStatus ref status := by
  rw [update, h]
  rfl

theorem update_of_none {acct : Option UUID} {orderId : OrderId} (h : t.get acct orderId = none)
    (result : OrderResult) (status : ExecutionOrderStatus) : t.update acct orderId result (some status) = t := by
  rw [update, h]

theorem update_cases (acct : Option UUID) (orderId : OrderId) (result : OrderResult)
    (status : ExecutionOrderStatus) :
    t.update acct orderId result (some status) = t ∨ ∃ ref, t.get acct orderId = some ref ∧
      t.update acct orderId result (some status) = (t.setResult ref result).setStatus ref status := by
  cases h : t.get acct orderId with
  | none => exact .inl (update_of_none h _ _)
  | some ref => exact .inr ⟨ref, rfl, update_of_get h _ _⟩

end OrderTracker

end Utos.Execution.Tracker
