import Utos.Grid.CircuitBreaker
import Utos.Grid.Planner
import Utos.Grid.Calculator
import Utos.ProfitLock.Engine

namespace Utos.Grid.Engine

open Coroutine Core.DomainTypes Core.Exceptions Execution.Models Execution.Service State CircuitBreaker
open Planner Calculator

structure LevelKey where
  instanceId : String
  level : Nat
  deriving DecidableEq, Repr

/-- The key under which the profit lock of a level is stored. The level number
stands last and has digits only, so the text determines both components. -/
instance : ToString LevelKey := ⟨fun k => s!"{k.instanceId}:level:{k.level}"⟩

/-- For whom an order is placed. -/
inductive Owner
  | level (key : LevelKey)
  | lock (key : LevelKey)
  deriving DecidableEq, Repr

def Owner.key : Owner → LevelKey
  | level key | lock key => key

structure TrailingConfig where
  triggerPercentage : ℚ
  trailPercentage : ℚ
  maxProfitPercentage : ℚ := 0
  deriving DecidableEq, Repr

abbrev Locks := ProfitLock.State.Store LevelKey

/-- The state of a GridEngine and of the ProfitLockEngine it was given, if any. -/
structure GridEngine where
  grids : State.Store := fun _ => none
  trailingConfig : String → Option TrailingConfig := fun _ => none
  taConfigs : String → Option (List TAConfig) := fun _ => none
  taCandles : String → Option (List CandleData) := fun _ => none
  breakers : String → Option CircuitBreakerState := fun _ => none
  taCandles15m : String → Option (List CandleData) := fun _ => none
  hasProfitLock : Bool := true
  locks : Locks := fun _ => none

def locksLens : Program.Lens GridEngine Locks where
  view s := s.locks
  set s locks := { s with locks := locks }
  view_set _ _ := rfl
  set_view _ := rfl
  set_set _ _ _ := rfl

@[simp] theorem locksLens_view (s : GridEngine) : locksLens.view s = s.locks := rfl

@[simp] theorem locksLens_set (s : GridEngine) (locks : Locks) :
    locksLens.set s locks = { s with locks := locks } := rfl

abbrev Op (α : Type) := Client GridEngine Owner α

/-- An operation of the profit lock engine. -/
def onLocks {α : Type} (p : ProfitLock.Engine.Lock LevelKey Owner α) : Op α := .zoom locksLens p

def modifyGrids (f : State.Store → State.Store) : Op Unit :=
  .modify (fun s => { s with grids := f s.grids })

def attemptGrids (f : State.Store → Except Exn (Unit × State.Store)) : Op Unit :=
  .attempt (fun s => do
    let (a, grids) ← f s.grids
    return (a, { s with grids := grids }))

def gridNotFound (instanceId : String) : Exn := .gridError s!"Grid not found for instance {instanceId}"

def levelNotFound (instanceId : String) (level : Nat) : Exn :=
  .gridError s!"Grid level {level} not found for instance {instanceId}"

def configureTrailingProfit (instanceId : String) (config : TrailingConfig) : Op Unit :=
  .modify (fun s => { s with trailingConfig := Function.update s.trailingConfig instanceId (some config) })

def configureTa (instanceId : String) (configs : List TAConfig) : Op Unit :=
  .modify (fun s => { s with
    taConfigs := Function.update s.taConfigs instanceId (if configs = [] then none else some configs) })

def updateTaCandles (instanceId : String) (candles : List CandleData) : Op Unit :=
  .modify (fun s => { s with taCandles := Function.update s.taCandles instanceId (some candles) })

def updateTaCandles15m (instanceId : String) (candles : List CandleData) : Op Unit :=
  .modify (fun s => { s with taCandles15m := Function.update s.taCandles15m instanceId (some candles) })

structure BreakerArgs where
  criticalThreshold : ℚ
  minContinuationRate : ℚ := 4 / 5
  resumeMode : BreakerResumeMode := .taConfirm
  recoveryPct : Option ℚ := none
  widenMultiplier : Option ℚ := none
  dayOpenPrice : Option ℚ := none
  ta15mConfigs : List TAConfig := []

def BreakerArgs.breaker (instanceId : String) (args : BreakerArgs) : CircuitBreakerState :=
  CircuitBreakerState.postInit
    { instanceId := instanceId
      criticalThreshold := args.criticalThreshold
      minContinuationRate := args.minContinuationRate
      resumeMode := args.resumeMode
      recoveryPct := args.recoveryPct.getD defaultRecoveryPct
      widenMultiplier := args.widenMultiplier.getD defaultWidenMultiplier
      dayOpenPrice := args.dayOpenPrice
      ta15mConfigs := args.ta15mConfigs }

def configureCircuitBreaker (instanceId : String) (args : BreakerArgs) : Op Unit :=
  .modify (fun s => { s with
    breakers := Function.update s.breakers instanceId (some (args.breaker instanceId)) })

/-- Assign to attributes of the breaker object of an instance. -/
def assignBreaker (instanceId : String) (f : CircuitBreakerState → CircuitBreakerState) : Op Unit :=
  .modify (fun s => { s with
    breakers := Function.update s.breakers instanceId ((s.breakers instanceId).map f) })

structure InitArgs where
  exchangeAccountId : Option UUID
  symbol : String
  upperPrice : ℚ
  lowerPrice : ℚ
  gridCount : Nat
  investmentPerGrid : ℚ
  averagingSteps : AveragingSteps := ⟨[], List.nodup_nil⟩

/-- The GridState that initialize_grid stores. -/
def initialState (instanceId : String) (args : InitArgs) : Except Exn GridState :=
  if args.averagingSteps.steps = [] then do
    let levels ← calculateLevels args.upperPrice args.lowerPrice args.gridCount args.investmentPerGrid
    return { instanceId := instanceId, status := .idle, upperPrice := args.upperPrice
             lowerPrice := args.lowerPrice, gridCount := args.gridCount
             gridSpacing := calculateSpacing args.upperPrice args.lowerPrice args.gridCount
             investmentPerGrid := args.investmentPerGrid, levels := levels
             exchangeAccountId := args.exchangeAccountId, symbol := args.symbol }
  else do
    let levels ← calculateLevelsWithAveraging args.upperPrice args.investmentPerGrid args.averagingSteps
    return { instanceId := instanceId, status := .idle, upperPrice := args.upperPrice
             lowerPrice := (levels.getLast?.map GridLevel.buyPrice).getD args.lowerPrice
             gridCount := levels.length, gridSpacing := 0
             investmentPerGrid := args.investmentPerGrid, levels := levels
             exchangeAccountId := args.exchangeAccountId, symbol := args.symbol }

def initializeGrid (instanceId : String) (args : InitArgs) : Op Unit := do
  let state ← .lift (initialState instanceId args)
  modifyGrids (fun grids => grids.put instanceId state)
  attemptGrids (fun grids => grids.transitionGrid instanceId .initialized)

/-- The request both _place_order and the force operations build. -/
def limitOrder (state : GridState) (side : OrderSide) (quantity : ℚ) (price : Option ℚ) (requestId : UUID) :
    OrderRequest :=
  { requestId := requestId
    exchangeAccountId := state.exchangeAccountId
    symbol := state.symbol
    side := side
    orderType := .limit
    quantity := quantity
    price := price }

def setOrderId (side : OrderSide) (orderId : OrderId) (lv : GridLevel) : GridLevel :=
  match side with
  | .buy => { lv with buyOrderId := orderId }
  | .sell => { lv with sellOrderId := orderId }

/-- GridEngine._place_order -/
def placeGridOrder (instanceId : String) (action : GridAction) : Op OrderId := do
  match (← .read).grids instanceId with
  | none => throw (gridNotFound instanceId)
  | some state =>
      let result ← placeOrder (.level ⟨instanceId, action.level⟩)
        (limitOrder state action.side action.quantity (some action.price))
      attemptGrids (fun grids =>
        grids.updateLevel instanceId action.level (setOrderId action.side result.orderId))
      attemptGrids (fun grids => grids.transitionLevel instanceId action.level .opened)
      return result.orderId

/-- GridEngine._cancel_order -/
def cancelGridOrder (instanceId : String) (action : GridAction) : Op Unit := do
  match (← .read).grids instanceId, action.orderId with
  | none, _ => throw (gridNotFound instanceId)
  | some _, none => pure ()
  | some state, some orderId =>
      let _ ← cancelOrder state.exchangeAccountId (some orderId)
      attemptGrids (fun grids => grids.updateLevel instanceId action.level (setOrderId action.side none))
      attemptGrids (fun grids => grids.transitionLevel instanceId action.level .cancelled)

def placeAll (instanceId : String) (actions : List GridAction) : Op Unit :=
  .forEach actions (fun action => do let _ ← placeGridOrder instanceId action)

def cancelAll (instanceId : String) (actions : List GridAction) : Op Unit :=
  .forEach actions (cancelGridOrder instanceId)

def setCurrentPrice (instanceId : String) (currentPrice : ℚ) : Op Unit :=
  modifyGrids (fun grids => grids.assignGrid instanceId (fun g => { g with currentPrice := some currentPrice }))

def activateGrid (instanceId : String) (currentPrice : ℚ) : Op Bool := do
  match (← .read).grids instanceId with
  | none => throw (gridNotFound instanceId)
  | some state =>
      attemptGrids (fun grids => grids.transitionGrid instanceId .active)
      setCurrentPrice instanceId currentPrice
      placeAll instanceId (planInitial state.levels currentPrice)
      return true

def pauseGrid (instanceId : String) : Op Bool := do
  match (← .read).grids instanceId with
  | none => throw (gridNotFound instanceId)
  | some state =>
      cancelAll instanceId (planCancelAll state.levels)
      attemptGrids (fun grids => grids.transitionGrid instanceId .paused)
      return true

def resumeGrid (instanceId : String) (currentPrice : ℚ) : Op Bool := do
  match (← .read).grids instanceId with
  | none => throw (gridNotFound instanceId)
  | some state =>
      attemptGrids (fun grids => grids.transitionGrid instanceId .active)
      setCurrentPrice instanceId currentPrice
      placeAll instanceId (plan state.levels currentPrice false 1)
      return true

def closeAllGridOrders (instanceId : String) : Op Bool := do
  let s ← .read
  cancelAll instanceId (planCancelAll (s.grids.listLevels instanceId))
  return true

/-- One pass of the loop of _cancel_all_pending_buys. The loop holds the level
objects, so it sees the attributes they have when their turn comes. -/
def cancelPendingBuy (instanceId : String) (exchangeAccountId : Option UUID) (level : Nat) : Op Unit := do
  match (← .read).grids.getLevel instanceId level with
  | none => pure ()
  | some lv =>
      if lv.status = .waiting ∧ truthy lv.buyOrderId then
        -- a failed cancel is logged, nothing more
        tryCatch
          (do let _ ← cancelOrder exchangeAccountId lv.buyOrderId
              modifyGrids (fun grids => grids.assignLevel instanceId level (setOrderId .buy none)))
          (fun _ => pure ())

def cancelAllPendingBuys (instanceId : String) : Op Unit := do
  match (← .read).grids instanceId with
  | none => pure ()
  | some state =>
      .forEach (state.levels.map GridLevel.level) (cancelPendingBuy instanceId state.exchangeAccountId)

/-- The breaker block at the head of on_price_update; true when it has just triggered. -/
def checkBreaker (today : Date) (instanceId : String) (price : ℚ) : Op Bool := do
  match (← .read).breakers instanceId with
  | none => return false
  | some breaker =>
      if (breaker.checkNewDay today price).shouldTrigger price then
        assignBreaker instanceId (fun b => (b.checkNewDay today price).trigger price)
        cancelAllPendingBuys instanceId
        return true
      else
        assignBreaker instanceId (fun b => b.checkNewDay today price)
        return false

/-- The arguments on_price_update passes to the planner. -/
def breakerContext : Option CircuitBreakerState → Bool × ℚ
  | none => (false, 1)
  | some b => (b.triggered, if b.triggered ∧ b.resumeMode = .widenStep then b.widenMultiplier else 1)

/-- Whether the 15m reversal gate passes; without candles it does not. -/
def reversalConfirmed (evaluate : Evaluate) (b : CircuitBreakerState) (candles : Option (List CandleData))
    (price : ℚ) : Bool :=
  b.ta15mConfigs ≠ [] && (candles.getD []) ≠ [] && evaluate b.ta15mConfigs (candles.getD []) price

/-- The gate while the breaker is triggered: whether buys may be placed, and the
breaker afterwards. -/
def breakerGate (evaluate : Evaluate) (candles : Option (List CandleData)) (price : ℚ)
    (b : CircuitBreakerState) : Bool × CircuitBreakerState :=
  let b := b.updateBottom price
  match b.resumeMode with
  | .widenStep => (true, if reversalConfirmed evaluate b candles price then b.reset else b)
  | .trailingBuy => if b.shouldResumeTrailing price then (true, b.reset) else (false, b)
  | .taConfirm => if reversalConfirmed evaluate b candles price then (true, b.reset) else (false, b)

/-- The gate while no breaker is triggered. -/
def taGate (evaluate : Evaluate) (configs : Option (List TAConfig)) (candles : Option (List CandleData))
    (price : ℚ) : Bool :=
  if configs.getD [] ≠ [] ∧ candles.getD [] ≠ [] then evaluate (configs.getD []) (candles.getD []) price
  else true

/-- The gate of on_price_update, with its effect on the breaker. -/
def passGate (evaluate : Evaluate) (instanceId : String) (price : ℚ) : Op Bool := do
  let s ← .read
  match s.breakers instanceId with
  | none => return taGate evaluate (s.taConfigs instanceId) (s.taCandles instanceId) price
  | some b =>
      if b.triggered then
        let gate := breakerGate evaluate (s.taCandles15m instanceId) price b
        assignBreaker instanceId (fun _ => gate.2)
        return gate.1
      else return taGate evaluate (s.taConfigs instanceId) (s.taCandles instanceId) price

def executePlan (instanceId : String) (buysAllowed : Bool) (actions : List GridAction) : Op Unit :=
  .forEach actions (fun action =>
    match action.action with
    | .cancel => cancelGridOrder instanceId action
    | .placeBuy =>
        if buysAllowed then do let _ ← placeGridOrder instanceId action
        else pure ()
    | .placeSell => do let _ ← placeGridOrder instanceId action)

/-- One pass of the loop that forwards a price to the profit lock engine. -/
def forwardToLock (instanceId : String) (price : ℚ) (level : Nat) : Op Unit := do
  match (← .read).grids.getLevel instanceId level with
  | none => pure ()
  | some lv =>
      if lv.status = .filled then
        tryCatch (onLocks (ProfitLock.Engine.onPriceUpdate .lock ⟨instanceId, level⟩ price)) (fun _ => pure ())

def forwardToLocks (instanceId : String) (price : ℚ) : Op Unit := do
  let s ← .read
  if s.hasProfitLock ∧ (s.trailingConfig instanceId).isSome then
    .forEach ((s.grids.listLevels instanceId).map GridLevel.level) (forwardToLock instanceId price)

def onPriceUpdate (evaluate : Evaluate) (today : Date) (instanceId : String) (price : ℚ) : Op Unit := do
  match (← .read).grids instanceId with
  | none => pure ()
  | some state =>
      if state.status ≠ .active then pure ()
      else
        setCurrentPrice instanceId price
        let breakerJustTriggered ← checkBreaker today instanceId price
        let s ← .read
        let context := breakerContext (s.breakers instanceId)
        let actions := plan (s.grids.listLevels instanceId) price context.1 context.2
        let taGatePassed ← passGate evaluate instanceId price
        executePlan instanceId (!breakerJustTriggered && taGatePassed) actions
        forwardToLocks instanceId price

/-- The arguments on_buy_filled passes to ProfitLockEngine.enable. -/
def lockArgs (state : GridState) (trailing : TrailingConfig) (fillPrice quantity : ℚ) :
    ProfitLock.Engine.EnableArgs :=
  { exchangeAccountId := state.exchangeAccountId
    symbol := state.symbol
    entryPrice := fillPrice
    quantity := quantity
    side := "long"
    triggerPercentage := trailing.triggerPercentage
    trailPercentage := trailing.trailPercentage
    maxProfitPercentage := trailing.maxProfitPercentage }

def onBuyFilled (instanceId : String) (gridLevel : Nat) (fillPrice quantity : ℚ) : Op Unit := do
  match (← .read).grids.getLevel instanceId gridLevel with
  | none => throw (levelNotFound instanceId gridLevel)
  | some lv =>
      attemptGrids (fun grids => grids.transitionLevel instanceId gridLevel .filled)
      modifyGrids (fun grids => grids.assignLevel instanceId gridLevel (setOrderId .buy none))
      let s ← .read
      match s.grids instanceId, s.trailingConfig instanceId with
      | none, _ => pure ()
      | some state, none =>
          if state.status = .active then
            let _ ← placeGridOrder instanceId (placeSellOf lv)
      | some state, some trailing =>
          if s.hasProfitLock then
            tryCatch
              (do let _ ← onLocks
                    (ProfitLock.Engine.enable ⟨instanceId, gridLevel⟩ (lockArgs state trailing fillPrice quantity)))
              (fun _ => pure ())

/-- The end of on_sell_filled: the cycle is counted, and in an active grid the
level waits again. -/
def completeCycle (instanceId : String) (gridLevel : Nat) (profit : ℚ) : Op Unit := do
  modifyGrids (fun grids => grids.assignGrid instanceId (fun g => { g with
    totalCycles := g.totalCycles + 1
    totalProfit := g.totalProfit + profit }))
  match (← .read).grids instanceId with
  | none => pure ()
  | some state =>
      if state.status = .active then
        attemptGrids (fun grids => grids.transitionLevel instanceId gridLevel .waiting)

def onSellFilled (instanceId : String) (gridLevel : Nat) (fillPrice quantity : ℚ) : Op Unit := do
  match (← .read).grids.getLevel instanceId gridLevel with
  | none => throw (levelNotFound instanceId gridLevel)
  | some lv =>
      attemptGrids (fun grids => grids.transitionLevel instanceId gridLevel .tpHit)
      modifyGrids (fun grids => grids.assignLevel instanceId gridLevel (setOrderId .sell none))
      if (← .read).hasProfitLock then
        -- get_state is a coroutine function: called without await it hands back the
        -- coroutine, whose attribute enabled does not exist
        tryCatch (throw (.other "AttributeError" "'coroutine' object has no attribute 'enabled'"))
          (fun _ => pure ())
      completeCycle instanceId gridLevel ((fillPrice - lv.buyPrice) * quantity)

/-- The search of force_buy for the next waiting level below the current price. -/
def nextWaiting (currentPrice : Option ℚ) : List GridLevel → Except Exn (Option GridLevel)
  | [] => .ok none
  | lv :: rest =>
      if lv.status = .waiting then
        match currentPrice with
        | none => .error (.other "TypeError" "'<' not supported between Decimal and NoneType")
        | some current => if lv.buyPrice < current then .ok (some lv) else nextWaiting currentPrice rest
      else nextWaiting currentPrice rest

def priceText : Option ℚ → String
  | none => "None"
  | some p => s!"{p}"

/-- The level force_buy works on. -/
def forceBuyTarget (state : GridState) : Option Nat → Except Exn GridLevel
  | some level => match findLevel level state.levels with
      | none => .error (levelNotFound state.instanceId level)
      | some lv =>
          if lv.status = .filled then
            .error (.gridError s!"Level {level} already has a filled position — cannot force buy again")
          else .ok lv
  | none => do
      match ← nextWaiting state.currentPrice state.levels with
      | none => .error (.gridError
          s!"No waiting level below current price {priceText state.currentPrice} to force buy")
      | some lv => return lv

/-- The dict force_buy returns, without its fixed texts. -/
structure ForceBuyReport where
  orderId : OrderId
  level : Nat
  price : ℚ
  quantity : ℚ
  deriving DecidableEq, Repr

/-- The cancel of an order that a new one replaces; its failure is only logged. -/
def cancelReplaced (exchangeAccountId : Option UUID) (orderId : OrderId) : Op Unit :=
  if orderId ≠ none then
    tryCatch (do let _ ← cancelOrder exchangeAccountId orderId) (fun _ => pure ())
  else pure ()

def forceBuy (instanceId : String) (level : Option Nat) (price quantity : Option ℚ) : Op ForceBuyReport := do
  match (← .read).grids instanceId with
  | none => throw (gridNotFound instanceId)
  | some state =>
      if state.status ≠ .active then
        throw (.gridError s!"Grid must be ACTIVE to force buy, current status: {state.status.value}")
      else
        let lv ← .lift (forceBuyTarget state level)
        let buyPrice := price.getD lv.buyPrice
        let buyQty := quantity.getD lv.quantity
        cancelReplaced state.exchangeAccountId lv.buyOrderId
        let result ← placeOrder (.level ⟨instanceId, lv.level⟩) (limitOrder state .buy buyQty (some buyPrice))
        attemptGrids (fun grids => grids.updateLevel instanceId lv.level (setOrderId .buy result.orderId))
        attemptGrids (fun grids => grids.transitionLevel instanceId lv.level .opened)
        return { orderId := result.orderId, level := lv.level, price := buyPrice, quantity := buyQty }

/-- The levels force_sell works on. -/
def forceSellTargets (state : GridState) : Option Nat → Except Exn (List GridLevel)
  | some level => match findLevel level state.levels with
      | none => .error (levelNotFound state.instanceId level)
      | some lv =>
          if lv.status ≠ .filled then
            .error (.gridError (s!"Level {level} is not FILLED (status: {lv.status.value}) — " ++
              "cannot force sell a position that doesn't exist (spot market)"))
          else .ok [lv]
  | none =>
      let filled := state.levels.filter (fun lv => lv.status = .filled)
      if filled = [] then
        .error (.gridError
          "No filled positions to sell — force sell only works on existing holdings (spot market)")
      else .ok filled

/-- The dict force_sell returns, without its fixed texts. -/
structure ForceSellReport where
  orderIds : List OrderId := []
  levelsSold : List Nat := []
  price : Option ℚ
  totalQuantity : ℚ := 0
  totalValue : ℚ := 0
  deriving DecidableEq, Repr

/-- Can't sell more than we hold. -/
def forceSellQuantity (quantity : Option ℚ) (lv : GridLevel) : ℚ :=
  if lv.quantity < quantity.getD lv.quantity then lv.quantity else quantity.getD lv.quantity

/-- One pass of the loop of force_sell. -/
def forceSellLevel (instanceId : String) (state : GridState) (sellPrice quantity : Option ℚ) (level : Nat)
    (report : ForceSellReport) : Op ForceSellReport := do
  match (← .read).grids.getLevel instanceId level with
  | none => throw (levelNotFound instanceId level)
  | some lv =>
      let sellQty := forceSellQuantity quantity lv
      cancelReplaced state.exchangeAccountId lv.sellOrderId
      let result ← placeOrder (.level ⟨instanceId, level⟩) (limitOrder state .sell sellQty sellPrice)
      match sellPrice with
      | none => throw (.other "TypeError" "unsupported operand type(s) for *: Decimal and NoneType")
      | some p =>
          attemptGrids (fun grids => grids.updateLevel instanceId level (setOrderId .sell result.orderId))
          return { report with orderIds := report.orderIds ++ [result.orderId]
                               totalQuantity := report.totalQuantity + sellQty
                               totalValue := report.totalValue + sellQty * p }

def forceSellLevels (instanceId : String) (state : GridState) (sellPrice quantity : Option ℚ) :
    List Nat → ForceSellReport → Op ForceSellReport
  | [], report => pure report
  | level :: rest, report => do
      let report ← forceSellLevel instanceId state sellPrice quantity level report
      forceSellLevels instanceId state sellPrice quantity rest report

def forceSell (instanceId : String) (level : Option Nat) (price quantity : Option ℚ) : Op ForceSellReport := do
  match (← .read).grids instanceId with
  | none => throw (gridNotFound instanceId)
  | some state =>
      if state.status ≠ .active then
        throw (.gridError s!"Grid must be ACTIVE to force sell, current status: {state.status.value}")
      else
        let sellPrice := price.or state.currentPrice
        let targets ← .lift (forceSellTargets state level)
        let levels := targets.map GridLevel.level
        forceSellLevels instanceId state sellPrice quantity levels { levelsSold := levels, price := sellPrice }

end Utos.Grid.Engine
