import Mathlib.Data.List.Perm.Basic
import Mathlib.Data.Rat.Defs
import Utos.Core.Dict
import Utos.Core.Exceptions
import Utos.Coroutine.Trace

namespace Utos.Recovery.Connection

open Core Core.Exceptions Coroutine

structure QueuedOrder where
  instanceId : String
  accountId : String
  exchange : String
  symbol : String
  side : String
  quantity : ℚ
  price : ℚ
  deriving DecidableEq, Repr

/-- The counters of _metrics that orders and reconnects change. -/
structure Metrics where
  exchangeReconnects : Nat := 0
  ordersQueued : Nat := 0
  ordersReplayed : Nat := 0
  ordersReplayedFailed : Nat := 0
  deriving DecidableEq, Repr

structure ConnectionRecovery where
  exchangeConnected : Dict String Bool := ∅
  subscribedSymbols : Dict String (List String) := ∅
  orderQueue : List QueuedOrder := []
  reconnectAttempts : Dict String Nat := ∅
  metrics : Metrics := {}

def ConnectionRecovery.isExchangeConnected (s : ConnectionRecovery) (exchange : String) : Bool :=
  (s.exchangeConnected.get exchange).getD true

/-- One call of place_order_fn: whether the exchange of the order was then marked
connected, and whether the call returned. -/
structure Sending where
  order : QueuedOrder
  connected : Bool
  placed : Bool
  deriving DecidableEq, Repr

/-- A recovery with the orders that were queued and sent so far. -/
structure Session where
  recovery : ConnectionRecovery := {}
  queued : List QueuedOrder := []
  sendings : List Sending := []

/-- The functions given to the constructor, each of which may be missing and may
raise. What place_order_fn does may depend on all that was sent before. What
resync_prices_fn returns or raises is not looked at. -/
structure Functions (R : Type) where
  resubscribeFn : Option (String → List String → Except Exn Bool) := none
  placeOrderFn : Option (List Sending → QueuedOrder → Except Exn R) := none

variable {R : Type} (fns : Functions R)

def registerSubscriptions (accountId : String) (symbols : List String) (s : ConnectionRecovery) : ConnectionRecovery :=
  { s with subscribedSymbols := s.subscribedSymbols.set accountId symbols }

def onExchangeDisconnect (exchange : String) (s : ConnectionRecovery) : ConnectionRecovery :=
  { s with exchangeConnected := s.exchangeConnected.set exchange false
           reconnectAttempts := s.reconnectAttempts.set exchange 0 }

def resubscribeAll (accountId : String) (symbols : List String) (s : ConnectionRecovery) : Bool × ConnectionRecovery :=
  match fns.resubscribeFn with
  | some resubscribe => match resubscribe accountId symbols with
    | .ok ok => (ok, s)
    | .error _ => (false, s)
  | none => (true, { s with subscribedSymbols := s.subscribedSymbols.set accountId symbols })

def queueOrder (order : QueuedOrder) (s : Session) : Session :=
  { s with
    recovery := { s.recovery with
      orderQueue := s.recovery.orderQueue ++ [order]
      metrics := { s.recovery.metrics with ordersQueued := s.recovery.metrics.ordersQueued + 1 } }
    queued := s.queued ++ [order] }

def Session.sent (s : Session) (order : QueuedOrder) (placed : Bool) : Session :=
  { s with sendings := s.sendings ++ [⟨order, s.recovery.isExchangeConnected order.exchange, placed⟩] }

def Session.count (s : Session) (f : Metrics → Metrics) : Session :=
  { s with recovery := { s.recovery with metrics := f s.recovery.metrics } }

/-- One order of the loop of replay_queued_orders, with its result. -/
def replayOrder (order : QueuedOrder) (s : Session) : Option R × Session :=
  match fns.placeOrderFn with
  | none => (none, s)
  | some place => match place s.sendings order with
    | .ok result => (some result,
        (s.sent order true).count (fun m => { m with ordersReplayed := m.ordersReplayed + 1 }))
    | .error _ => (none,
        (s.sent order false).count (fun m => { m with ordersReplayedFailed := m.ordersReplayedFailed + 1 }))

def replayAll : List QueuedOrder → Session → List R × Session
  | [], s => ([], s)
  | order :: rest, s =>
      let (result, s) := replayOrder fns order s
      let (results, s) := replayAll rest s
      (result.toList ++ results, s)

/-- _order_queue.clear() -/
def Session.cleared (s : Session) : Session := { s with recovery := { s.recovery with orderQueue := [] } }

def replayQueuedOrders (s : Session) : List R × Session :=
  if s.recovery.orderQueue.isEmpty then ([], s) else replayAll fns s.recovery.orderQueue s.cleared

/-- The part of on_exchange_reconnect before the replay. -/
def reconnected (exchange accountId : String) (s : ConnectionRecovery) : ConnectionRecovery :=
  let s := { s with
    metrics := { s.metrics with exchangeReconnects := s.metrics.exchangeReconnects + 1 }
    exchangeConnected := s.exchangeConnected.set exchange true
    reconnectAttempts := s.reconnectAttempts.set exchange 0 }
  let symbols := (s.subscribedSymbols.get accountId).getD []
  if symbols.isEmpty then s else (resubscribeAll fns accountId symbols s).2

def onExchangeReconnect (exchange accountId : String) (s : Session) : Bool × Session :=
  (true, (replayQueuedOrders fns { s with recovery := reconnected fns exchange accountId s.recovery }).2)

inductive Call
  | registerSubscriptions (accountId : String) (symbols : List String)
  | queueOrder (order : QueuedOrder)
  | onExchangeDisconnect (exchange accountId : String)
  | onExchangeReconnect (exchange accountId : String)
  | replayQueuedOrders

def step (s : Session) : Call → Session
  | .registerSubscriptions accountId symbols => { s with recovery := registerSubscriptions accountId symbols s.recovery }
  | .queueOrder order => queueOrder order s
  | .onExchangeDisconnect exchange _ => { s with recovery := onExchangeDisconnect exchange s.recovery }
  | .onExchangeReconnect exchange accountId => (onExchangeReconnect fns exchange accountId s).2
  | .replayQueuedOrders => (replayQueuedOrders fns s).2

def run (calls : List Call) : Session := calls.foldl (step fns) {}

end Utos.Recovery.Connection
