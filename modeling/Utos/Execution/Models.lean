import Utos.Core.DomainTypes

namespace Utos.Execution.Models

open Core.DomainTypes

inductive ExecutionOrderStatus
  | pending
  | submitting
  | opened
  | partiallyFilled
  | filled
  | cancelling
  | cancelled
  | rejected
  | failed
  deriving DecidableEq, Repr

def ExecutionOrderStatus.value : ExecutionOrderStatus → String
  | pending => "pending"
  | submitting => "submitting"
  | opened => "open"
  | partiallyFilled => "partially_filled"
  | filled => "filled"
  | cancelling => "cancelling"
  | cancelled => "cancelled"
  | rejected => "rejected"
  | failed => "failed"

structure OrderRequest where
  requestId : UUID
  exchangeAccountId : Option UUID
  symbol : String
  side : OrderSide
  orderType : Core.DomainTypes.OrderType
  quantity : ℚ
  price : Option ℚ := none
  stopPrice : Option ℚ := none
  clientOrderId : Option String := none
  deriving DecidableEq, Repr

structure TrackedOrder where
  requestId : UUID
  exchangeAccountId : Option UUID
  result : OrderResult
  status : ExecutionOrderStatus
  retryCount : Nat := 0
  deriving DecidableEq, Repr

def TrackedOrder.isActive (t : TrackedOrder) : Bool :=
  t.status ∈ [.pending, .submitting, .opened, .partiallyFilled, .cancelling]

end Utos.Execution.Models
