import Mathlib.Algebra.BigOperators.Group.List.Basic
import Utos.Recovery.Portfolio

namespace Utos.Risk.Manager

open Core Recovery.Portfolio

/-- RiskLimits of a user. -/
structure RiskLimits where
  maxExposurePerSymbol : ℚ := 100000
  maxExposurePerExchange : ℚ := 500000
  maxOpenPositions : Nat := 20
  maxPositionSize : ℚ := 50000
  maxCapitalPerInstance : ℚ := 100000
  deriving DecidableEq, Repr

structure RiskCheckResult where
  allowed : Bool
  reason : Option String
  currentExposure : ℚ
  maxExposure : ℚ
  deriving DecidableEq, Repr

structure Metrics where
  ordersChecked : Nat := 0
  ordersAllowed : Nat := 0
  ordersDenied : Nat := 0
  deriving DecidableEq, Repr

structure RiskManager where
  portfolio : PortfolioManager := {}
  limits : Dict String RiskLimits := ∅
  prices : Dict String ℚ := ∅
  instanceCapital : Dict String ℚ := ∅
  metrics : Dict String Metrics := ∅

/-- The arguments of check_order_risk. -/
structure Order where
  instanceId : String
  accountId : String
  exchange : String
  symbol : String
  side : String
  quantity : ℚ
  price : ℚ
  userId : String := "default"
  deriving DecidableEq, Repr

def notional (prices : Dict String ℚ) (pos : Position) : ℚ := (prices.get pos.symbol).getD pos.entryPrice * pos.quantity

/-- get_exposure_by_exchange, _account and _symbol: the open positions are summed up by one of their fields. -/
def exposureBy (field : Position → String) (positions : List Position) (prices : Dict String ℚ) : Dict String ℚ :=
  positions.foldl (fun result pos =>
    if pos.closed then result
    else result.set (field pos) ((result.get (field pos)).getD 0 + notional prices pos)) ∅

def getExposureByExchange : List Position → Dict String ℚ → Dict String ℚ := exposureBy Position.exchange

def getExposureByAccount : List Position → Dict String ℚ → Dict String ℚ := exposureBy Position.accountId

def getExposureBySymbol : List Position → Dict String ℚ → Dict String ℚ := exposureBy Position.symbol

def getOpenPositionCount (m : PortfolioManager) : Nat := m.positions.entries.length

def getPosition (m : PortfolioManager) (i : String) : Option Position := m.positions.get i

def getRiskParameters (s : RiskManager) (userId : String) : RiskLimits := (s.limits.get userId).getD {}

def Order.notional (order : Order) : ℚ := order.quantity * order.price

def denied (reason : String) (currentExposure maxExposure : ℚ) : RiskCheckResult :=
  { allowed := false, reason := some reason, currentExposure, maxExposure }

/-- {**self._prices, symbol: price} -/
def currentPrices (s : RiskManager) (order : Order) : Dict String ℚ := s.prices.set order.symbol order.price

def newSymbolExposure (s : RiskManager) (order : Order) : ℚ :=
  ((getExposureBySymbol s.portfolio.getPositions (currentPrices s order)).get order.symbol).getD 0 + order.notional

def newExchangeExposure (s : RiskManager) (order : Order) : ℚ :=
  ((getExposureByExchange s.portfolio.getPositions (currentPrices s order)).get order.exchange).getD 0 + order.notional

/-- The five rules of check_order_risk. -/
def ruling (s : RiskManager) (order : Order) : RiskCheckResult :=
  let limits := getRiskParameters s order.userId
  let instanceCapital := (s.instanceCapital.get order.instanceId).getD 0
  if limits.maxPositionSize < order.notional then
    denied s!"Order notional {order.notional} exceeds max_position_size {limits.maxPositionSize}"
      order.notional limits.maxPositionSize
  else if 0 < instanceCapital ∧ limits.maxCapitalPerInstance < instanceCapital then
    denied
      s!"Instance capital {instanceCapital} exceeds max_capital_per_instance {limits.maxCapitalPerInstance}"
      instanceCapital limits.maxCapitalPerInstance
  else if limits.maxExposurePerSymbol < newSymbolExposure s order then
    denied
      s!"Symbol {order.symbol} exposure {newSymbolExposure s order} exceeds max_exposure_per_symbol {limits.maxExposurePerSymbol}"
      (newSymbolExposure s order) limits.maxExposurePerSymbol
  else if limits.maxExposurePerExchange < newExchangeExposure s order then
    denied
      s!"Exchange {order.exchange} exposure {newExchangeExposure s order} exceeds max_exposure_per_exchange {limits.maxExposurePerExchange}"
      (newExchangeExposure s order) limits.maxExposurePerExchange
  else if getPosition s.portfolio order.instanceId = none ∧
      limits.maxOpenPositions ≤ getOpenPositionCount s.portfolio then
    denied
      s!"Open positions {getOpenPositionCount s.portfolio} exceeds max_open_positions {limits.maxOpenPositions}"
      (getOpenPositionCount s.portfolio) limits.maxOpenPositions
  else
    { allowed := true, reason := none, currentExposure := newSymbolExposure s order
      maxExposure := limits.maxExposurePerSymbol }

def Metrics.checked (metrics : Metrics) (result : RiskCheckResult) : Metrics :=
  { ordersChecked := metrics.ordersChecked + 1
    ordersAllowed := if result.allowed then metrics.ordersAllowed + 1 else metrics.ordersAllowed
    ordersDenied := if result.allowed then metrics.ordersDenied else metrics.ordersDenied + 1 }

def checkOrderRisk (s : RiskManager) (order : Order) : RiskCheckResult × RiskManager :=
  let result := ruling s order
  (result, { s with
    metrics := s.metrics.set order.userId (((s.metrics.get order.userId).getD {}).checked result) })

/-- The open positions with a value in a field, summed up. -/
def total (field : Position → String) (k : String) (prices : Dict String ℚ) (positions : List Position) : ℚ :=
  ((positions.filter (fun pos => !pos.closed && field pos = k)).map (notional prices)).sum

variable {field : Position → String} {k : String} {prices : Dict String ℚ}

theorem total_cons (pos : Position) (positions : List Position) : total field k prices (pos :: positions) =
    (if pos.closed = false ∧ field pos = k then notional prices pos else 0) + total field k prices positions := by
  rw [total, List.filter_cons]
  by_cases h : pos.closed = false ∧ field pos = k
  · rw [if_pos h, if_pos (by simpa using h), List.map_cons, List.sum_cons, total]
  · rw [if_neg h, if_neg (by simpa using h), zero_add, total]

theorem total_append (positions others : List Position) : total field k prices (positions ++ others) =
    total field k prices positions + total field k prices others := by
  rw [total, List.filter_append, List.map_append, List.sum_append, total, total]

theorem total_perm {positions others : List Position} (h : positions.Perm others) :
    total field k prices positions = total field k prices others :=
  ((h.filter _).map _).sum_eq

theorem exposureBy_get (field : Position → String) (k : String) (positions : List Position) (prices : Dict String ℚ) :
    ((exposureBy field positions prices).get k).getD 0 = total field k prices positions := by
  have hfold : ∀ (positions : List Position) (result : Dict String ℚ), ((positions.foldl (fun result pos =>
      if pos.closed then result
      else result.set (field pos) ((result.get (field pos)).getD 0 + notional prices pos)) result).get k).getD 0 =
        (result.get k).getD 0 + total field k prices positions := by
    intro positions
    induction positions with
    | nil => exact fun _ => (add_zero _).symm
    | cons pos positions ih =>
        intro result
        rw [List.foldl_cons, ih, total_cons, ← add_assoc]
        congr 1
        cases hclosed : pos.closed with
        | true => simp
        | false =>
            by_cases hk : field pos = k
            · subst hk
              simp
            · simp [Dict.get_set, hk, Ne.symm hk]
  rw [exposureBy, hfold, Dict.get_empty, Option.getD_none, zero_add]

end Utos.Risk.Manager
