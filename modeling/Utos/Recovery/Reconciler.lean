import Utos.Core.DomainTypes
import Utos.Recovery.Portfolio

namespace Utos.Recovery.Reconciler

open Core Core.DomainTypes Core.Exceptions Portfolio

/-- ReconciliationResult; the component is a field of the source. -/
structure ReconciliationResult where
  component : String
  action : String
  count : Nat
  details : List String := []
  deriving DecidableEq, Repr

/-- Neither filled nor cancelled. -/
def isLive (order : OrderResult) : Bool := order.status ∉ [OrderStatus.filled.value, OrderStatus.cancelled.value]

/-- The level is in status OPEN, and one of its order ids is unknown to the exchange. -/
def isMissing (liveOrderIds : List String) (level : GridLevel) : Bool :=
  let unknown (orderId : OrderId) : Bool := truthy orderId && str orderId ∉ liveOrderIds
  level.status = .opened && (unknown level.buyOrderId || unknown level.sellOrderId)

def findMissingOrders (gridState : GridState) (liveOrders : List OrderResult) : List GridLevel :=
  gridState.levels.filter (isMissing ((liveOrders.filter isLive).map OrderResult.exchangeOrderId))

def localOrderIds (gridState : GridState) : List String :=
  gridState.levels.flatMap (fun level => ([level.buyOrderId, level.sellOrderId].filter truthy).map str)

def findOrphanOrders (gridState : GridState) (liveOrders : List OrderResult) : List OrderResult :=
  liveOrders.filter (fun order => isLive order && order.exchangeOrderId ∉ localOrderIds gridState)

/-- What the order of a level, found under its id among the orders of the exchange, makes of the level. -/
def reconcileBuy (liveOrderMap : String → Option OrderResult) (level : GridLevel) : GridLevel × List String :=
  match if truthy level.buyOrderId then liveOrderMap (str level.buyOrderId) else none with
  | none => (level, [])
  | some order =>
      if order.status = OrderStatus.filled.value then
        if level.status ≠ .filled then
          ({ level with status := .filled }, [s!"Level {level.level} buy order filled on exchange"])
        else (level, [])
      else if order.status = OrderStatus.cancelled.value ∧ level.status = .opened then
        ({ level with status := .waiting, buyOrderId := none },
          [s!"Level {level.level} buy order cancelled on exchange"])
      else (level, [])

def reconcileSell (liveOrderMap : String → Option OrderResult) (level : GridLevel) : GridLevel × List String :=
  match if truthy level.sellOrderId then liveOrderMap (str level.sellOrderId) else none with
  | none => (level, [])
  | some order =>
      if order.status = OrderStatus.filled.value then
        if level.status ≠ .tpHit then
          ({ level with status := .tpHit }, [s!"Level {level.level} sell order filled on exchange"])
        else (level, [])
      else if order.status = OrderStatus.cancelled.value ∧ level.status = .opened then
        ({ level with sellOrderId := none }, [s!"Level {level.level} sell order cancelled on exchange"])
      else (level, [])

def reconcileLevel (liveOrderMap : String → Option OrderResult) (level : GridLevel) : GridLevel × List String :=
  let bought := reconcileBuy liveOrderMap level
  let sold := reconcileSell liveOrderMap bought.1
  (sold.1, bought.2 ++ sold.2)

/-- The dict of the orders by their exchange ids; a later order overwrites an earlier one. -/
def liveOrderMap (liveOrders : List OrderResult) (orderId : String) : Option OrderResult :=
  liveOrders.reverse.find? (fun order => order.exchangeOrderId = orderId)

def reconcileGrid (gridState : GridState) (liveOrders : List OrderResult) : ReconciliationResult × GridState :=
  let levels := gridState.levels.map (reconcileLevel (liveOrderMap liveOrders))
  let reconciled := { gridState with levels := levels.map Prod.fst }
  let updates := levels.flatMap Prod.snd
  let missing := findMissingOrders reconciled liveOrders
  let orphans := findOrphanOrders reconciled liveOrders
  ({ component := "grid"
     action := if updates = [] then "skipped" else "restored"
     count := updates.length + missing.length + orphans.length
     details := updates ++
       missing.map (fun level => s!"Level {level.level} has missing order (needs re-placement)") ++
       orphans.map (fun order => s!"Orphan order {order.exchangeOrderId} found on exchange (manual review)") },
    reconciled)

/-- PositionEntry; the unrealized profit and the leverage are not read. -/
structure PositionEntry where
  symbol : String
  side : String
  quantity : ℚ
  entryPrice : ℚ
  deriving DecidableEq, Repr

/-- The portfolio during a reconciliation, with what has been done to it. -/
structure Progress where
  portfolio : PortfolioManager
  count : Nat := 0
  details : List String := []

def addMissing (instanceId : String) (localSymbols : List String) (progress : Progress) (ep : PositionEntry) :
    Progress :=
  if ep.symbol ∈ localSymbols then progress
  else match progress.portfolio.registerPosition
      { instanceId := s!"{instanceId}-reconciled-{ep.symbol}", accountId := s!"reconciled-{instanceId}"
        exchange := "reconciled", symbol := ep.symbol, side := ep.side, entryPrice := ep.entryPrice
        quantity := ep.quantity } with
    | .ok (_, portfolio) =>
        { portfolio := portfolio, count := progress.count + 1
          details := progress.details ++ [s!"Added missing position {ep.symbol} ({ep.side}, qty={ep.quantity})"] }
    | .error exc => { progress with
        details := progress.details ++ [s!"Failed to add position {ep.symbol}: {exc.message}"] }

def closeStale (exchangeSymbols : List String) (progress : Progress) (position : Position) : Progress :=
  if position.closed ∨ position.symbol ∈ exchangeSymbols then progress
  else match progress.portfolio.closePosition position.instanceId with
    | .ok (_, portfolio) =>
        { portfolio := portfolio, count := progress.count + 1
          details := progress.details ++ [s!"Closed stale position {position.symbol} (not on exchange)"] }
    | .error exc => { progress with
        details := progress.details ++ [s!"Failed to close position {position.symbol}: {exc.message}"] }

def reconcilePortfolio (portfolio : PortfolioManager) (instanceId : String) (localPositions : List Position)
    (exchangePositions : List PositionEntry) : ReconciliationResult × PortfolioManager :=
  let localSymbols := (localPositions.filter (fun p => !p.closed)).map Position.symbol
  let added := exchangePositions.foldl (addMissing instanceId localSymbols) { portfolio := portfolio }
  let ended := localPositions.foldl (closeStale (exchangePositions.map PositionEntry.symbol)) added
  ({ component := "portfolio", action := if ended.count = 0 then "skipped" else "restored", count := ended.count
     details := ended.details }, ended.portfolio)

end Utos.Recovery.Reconciler
