import Utos.Coroutine.Trace
import Utos.Grid.Engine
import Utos.Execution.Exchange

namespace Utos.Grid.Trading

open Coroutine Core.DomainTypes Core.Exceptions Execution.Service Execution.Exchange CircuitBreaker Engine

/-- The operations of a ProfitLockEngine that its own callers use; a lock is
enabled by the grid engine only. -/
inductive LockCall
  | disable (key : LevelKey)
  | onPriceUpdate (key : LevelKey) (currentPrice : ℚ)
  | onPositionUpdate (key : LevelKey) (entryPrice quantity : ℚ)
  | onOrderFilled (key : LevelKey) (orderId : OrderId)
  | onOrderCancelled (key : LevelKey) (orderId : OrderId)
  | executeLock (key : LevelKey) (lockPrice : ℚ)

inductive Call
  | configureTrailingProfit (instanceId : String) (config : TrailingConfig)
  | configureTa (instanceId : String) (configs : List TAConfig)
  | updateTaCandles (instanceId : String) (candles : List CandleData)
  | configureCircuitBreaker (instanceId : String) (args : BreakerArgs)
  | updateTaCandles15m (instanceId : String) (candles : List CandleData)
  | initializeGrid (instanceId : String) (args : InitArgs)
  | activateGrid (instanceId : String) (currentPrice : ℚ)
  | pauseGrid (instanceId : String)
  | resumeGrid (instanceId : String) (currentPrice : ℚ)
  | closeAllGridOrders (instanceId : String)
  | onPriceUpdate (today : Date) (instanceId : String) (price : ℚ)
  | onBuyFilled (instanceId : String) (gridLevel : Nat) (fillPrice quantity : ℚ)
  | onSellFilled (instanceId : String) (gridLevel : Nat) (fillPrice quantity : ℚ)
  | forceBuy (instanceId : String) (level : Option Nat) (price quantity : Option ℚ)
  | forceSell (instanceId : String) (level : Option Nat) (price quantity : Option ℚ)
  | lock (call : LockCall)

/-- Run for the effect. -/
def void {α : Type} (p : Op α) : Op Unit := .bind p (fun _ => .ret ())

def performLock : LockCall → Op Unit
  | .disable key => void (onLocks (ProfitLock.Engine.disable key))
  | .onPriceUpdate key currentPrice => onLocks (ProfitLock.Engine.onPriceUpdate .lock key currentPrice)
  | .onPositionUpdate key entryPrice quantity =>
      onLocks (ProfitLock.Engine.onPositionUpdate key entryPrice quantity)
  | .onOrderFilled key orderId => onLocks (ProfitLock.Engine.onOrderFilled key orderId)
  | .onOrderCancelled key orderId => onLocks (ProfitLock.Engine.onOrderCancelled key orderId)
  | .executeLock key lockPrice => void (onLocks (ProfitLock.Engine.executeLock .lock key lockPrice))

variable (evaluate : Evaluate)

def perform : Call → Op Unit
  | .configureTrailingProfit i config => configureTrailingProfit i config
  | .configureTa i configs => configureTa i configs
  | .updateTaCandles i candles => updateTaCandles i candles
  | .configureCircuitBreaker i args => configureCircuitBreaker i args
  | .updateTaCandles15m i candles => updateTaCandles15m i candles
  | .initializeGrid i args => initializeGrid i args
  | .activateGrid i currentPrice => void (activateGrid i currentPrice)
  | .pauseGrid i => void (pauseGrid i)
  | .resumeGrid i currentPrice => void (resumeGrid i currentPrice)
  | .closeAllGridOrders i => void (closeAllGridOrders i)
  | .onPriceUpdate today i price => onPriceUpdate evaluate today i price
  | .onBuyFilled i gridLevel fillPrice quantity => onBuyFilled i gridLevel fillPrice quantity
  | .onSellFilled i gridLevel fillPrice quantity => onSellFilled i gridLevel fillPrice quantity
  | .forceBuy i level price quantity => void (forceBuy i level price quantity)
  | .forceSell i level price quantity => void (forceSell i level price quantity)
  | .lock call => performLock call

/-- The engines and what stands behind ExecutionEngine. -/
structure Floor where
  engine : GridEngine
  desk : Desk Owner

/-- One call runs to its end, or the exchange fills an order meanwhile. -/
inductive Event
  | call (call : Call) (oracle : Oracle)
  | fill (ref : Nat) (quantity : ℚ)

namespace Floor

def runCall (s : Floor) (call : Call) (oracle : Oracle) : Except Exn Unit × Floor :=
  let r := Program.run handler (perform evaluate call) s.engine ⟨s.desk, oracle⟩
  (r.1, ⟨r.2.1, r.2.2.desk⟩)

def step (s : Floor) : Event → Floor
  | .call call oracle => (s.runCall evaluate call oracle).2
  | .fill ref quantity => { s with desk := s.desk.fill ref quantity }

def runEvents (s : Floor) (events : List Event) : Floor := events.foldl (step evaluate) s

def start (hasProfitLock : Bool) : Floor := ⟨{ hasProfitLock := hasProfitLock }, {}⟩

def Reachable (s : Floor) : Prop := ∃ hasProfitLock events, runEvents evaluate (start hasProfitLock) events = s

variable {evaluate}

theorem reachable_induction {I : Floor → Prop} (hstart : ∀ b, I (start b))
    (hstep : ∀ s e, I s → I (s.step evaluate e)) {s : Floor} (h : Reachable evaluate s) : I s := by
  obtain ⟨b, events, rfl⟩ := h
  exact foldl_keeps hstep events (hstart b)

end Floor

/-- An exchange that accepts the order under the given id. -/
def accepted (id : String) : PlaceFate where
  orders := [true]
  registered := some (some id)
  answer := .ok { orderId := some id, exchangeOrderId := id, symbol := "BTCUSDT", side := "", orderType := "limit"
                  quantity := 1, price := none, filledQuantity := 0, averageFillPrice := none, status := "open" }

def cancelSucceeds : CancelFate where
  effect := .cancelled
  answer := .ok { orderId := none, exchangeOrderId := "", symbol := "BTCUSDT", side := "", orderType := "limit"
                  quantity := 1, price := none, filledQuantity := 0, averageFillPrice := none
                  status := "cancelled" }

/-- An exchange that does all it is asked for and hands out distinct ids. -/
def willing : Oracle where
  place request := accepted (String.ofList (List.replicate (request.requestId + 1) 'i'))
  cancel _ := cancelSucceeds

/-- A grid of two levels, at 100 and 110, selling at 120. -/
def twoLevels : InitArgs :=
  { exchangeAccountId := some 1, symbol := "BTCUSDT", upperPrice := 120, lowerPrice := 100, gridCount := 2
    investmentPerGrid := 220 }

/-- The grid of two levels once it is active, with both buys at the exchange. -/
def tradingGrid : GridState :=
  { instanceId := "grid", status := .active, upperPrice := 120, lowerPrice := 100, gridCount := 2
    gridSpacing := 10, investmentPerGrid := 220
    levels := [{ level := 0, buyPrice := 100, sellPrice := 120, quantity := 11 / 5, buyOrderId := some "i"
                 status := .opened },
               { level := 1, buyPrice := 110, sellPrice := 120, quantity := 2, buyOrderId := some "ii"
                 status := .opened }]
    exchangeAccountId := some 1, symbol := "BTCUSDT", currentPrice := some 115 }

def activated : List Event :=
  [.call (.initializeGrid "grid" twoLevels) willing, .call (.activateGrid "grid" 115) willing]

example : ((Floor.start true).runEvents (fun _ _ _ => true) activated).engine.grids "grid" = some tradingGrid := by
  decide +kernel

end Utos.Grid.Trading
