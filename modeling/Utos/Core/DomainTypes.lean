import Mathlib.Data.Rat.Defs

namespace Utos.Core.DomainTypes

abbrev UUID := Nat

/-- Order ids are strings chosen by the exchange. None is a value too: an
adapter that is passed client_order_id=None can hand it back as the id. -/
abbrev OrderId := Option String

/-- bool(order_id): neither None nor the empty string. -/
def truthy : OrderId → Bool
  | some i => i ≠ ""
  | none => false

@[simp] theorem truthy_none : truthy none = false := rfl

def str : OrderId → String
  | some i => i
  | none => "None"

/-- str.lower() and str.upper() on ASCII letters. -/
def lower (s : String) : String := String.ofList (s.toList.map Char.toLower)

def upper (s : String) : String := String.ofList (s.toList.map Char.toUpper)

inductive OrderSide
  | buy
  | sell
  deriving DecidableEq, Repr

def OrderSide.value : OrderSide → String
  | buy => "buy"
  | sell => "sell"

inductive OrderType
  | limit
  | market
  | stopLimit
  deriving DecidableEq, Repr

def OrderType.value : OrderType → String
  | limit => "limit"
  | market => "market"
  | stopLimit => "stop_limit"

inductive OrderStatus
  | pending
  | opened
  | partiallyFilled
  | filled
  | cancelled
  | rejected
  | expired
  deriving DecidableEq, Repr

def OrderStatus.value : OrderStatus → String
  | pending => "pending"
  | opened => "open"
  | partiallyFilled => "partially_filled"
  | filled => "filled"
  | cancelled => "cancelled"
  | rejected => "rejected"
  | expired => "expired"

inductive GridLevelStatus
  | waiting
  | opened
  | filled
  | cancelled
  | tpHit
  deriving DecidableEq, Repr

def GridLevelStatus.value : GridLevelStatus → String
  | waiting => "waiting"
  | opened => "open"
  | filled => "filled"
  | cancelled => "cancelled"
  | tpHit => "tp_hit"

/-- OrderResult without its two timestamps, which no decision reads. -/
structure OrderResult where
  orderId : OrderId
  exchangeOrderId : String
  symbol : String
  side : String
  orderType : String
  quantity : ℚ
  price : Option ℚ
  filledQuantity : ℚ
  averageFillPrice : Option ℚ
  status : String
  errorMessage : Option String := none
  deriving DecidableEq, Repr

structure GridLevel where
  level : Nat
  buyPrice : ℚ
  sellPrice : ℚ
  quantity : ℚ
  buyOrderId : OrderId := none
  sellOrderId : OrderId := none
  status : GridLevelStatus := .waiting
  deriving DecidableEq, Repr

/-- The constants of GridStatus. -/
inductive GridStatus
  | idle
  | initialized
  | active
  | paused
  | completed
  | error
  deriving DecidableEq, Repr

def GridStatus.value : GridStatus → String
  | idle => "idle"
  | initialized => "initialized"
  | active => "active"
  | paused => "paused"
  | completed => "completed"
  | error => "error"

structure GridState where
  instanceId : String
  status : GridStatus
  upperPrice : ℚ
  lowerPrice : ℚ
  gridCount : Nat
  gridSpacing : ℚ
  investmentPerGrid : ℚ
  levels : List GridLevel := []
  totalCycles : Nat := 0
  totalProfit : ℚ := 0
  exchangeAccountId : Option UUID := none
  symbol : String := ""
  currentPrice : Option ℚ := none
  deriving DecidableEq, Repr

end Utos.Core.DomainTypes
