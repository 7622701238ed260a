import Utos.Execution.Executor
import Utos.Execution.Tracker
import Utos.Execution.Validator

namespace Utos.Execution.Engine

open Coroutine Core Core.DomainTypes Core.Exceptions Models OrderState Validator Tracker Executor

/-- ExecutionEngine. The last two fields are read by no operation: the requests
for which execute was started, and the placements that have returned, the
newest first. -/
structure ExecutionEngine where
  executor : OrderExecutor := {}
  adapters : Dict UUID Adapter := ∅
  tracker : OrderTracker := {}
  executions : List UUID := []
  returned : List (OrderRequest × OrderResult) := []

abbrev Op (α : Type) := Dispatch ExecutionEngine α

def onTracker (f : OrderTracker → OrderTracker) : Op Unit := .modify (fun s => { s with tracker := f s.tracker })

def registerAdapter (exchangeAccountId : UUID) (adapter : Adapter) : Op Unit :=
  .modify (fun s => { s with adapters := s.adapters.set exchangeAccountId adapter })

def unregisterAdapter (exchangeAccountId : UUID) : Op Unit :=
  .modify (fun s => { s with adapters := s.adapters.pop exchangeAccountId })

def adapterFor (s : ExecutionEngine) (exchangeAccountId : Option UUID) : Except Exn Adapter :=
  match exchangeAccountId.bind s.adapters.get with
  | some adapter => .ok adapter
  | none =>
      let account := (exchangeAccountId.map toString).getD "None"
      .error (executionError ⟨"unknown"⟩ s!"No adapter registered for account {account}")

/-- ExecutionEngine._get_adapter -/
def getAdapter (exchangeAccountId : Option UUID) : Op Adapter := do
  let s ← .read
  .lift (adapterFor s exchangeAccountId)

/-- ExecutionEngine._transition -/
def transition (ref : Nat) (target : ExecutionOrderStatus) : Op Unit :=
  .attempt (fun s => do
    validateTransition (s.tracker.objects ref).status target
    return ((), { s with tracker := s.tracker.setStatus ref target }))

/-- The placeholder of _create_pending. -/
def pendingResult (request : OrderRequest) (orderId : OrderId) : OrderResult :=
  { orderId := orderId
    exchangeOrderId := ""
    symbol := upper request.symbol
    side := request.side.value
    orderType := request.orderType.value
    quantity := request.quantity
    price := request.price
    filledQuantity := 0
    averageFillPrice := none
    status := OrderStatus.pending.value }

/-- ExecutionEngine._result_from_error -/
def resultFromError (request : OrderRequest) (result : OrderResult) (exc : Exn) : OrderResult :=
  { orderId := result.orderId
    exchangeOrderId := result.exchangeOrderId
    symbol := upper request.symbol
    side := request.side.value
    orderType := request.orderType.value
    quantity := request.quantity
    price := request.price
    filledQuantity := result.filledQuantity
    averageFillPrice := result.averageFillPrice
    status := OrderStatus.rejected.value
    errorMessage := some exc.message }

/-- OrderResult of a cancelled order. -/
def cancelledResult (result : OrderResult) : OrderResult :=
  { result with status := OrderStatus.cancelled.value, errorMessage := none }

section

-- what _local_order_id makes of the uuid4 that is drawn for the nth tracked order
variable (localOrderId : Nat → String)

/-- ExecutionEngine._create_pending -/
def createPending (request : OrderRequest) : Op Nat := do
  let s ← .read
  let result := pendingResult request (some (localOrderId s.tracker.size))
  onTracker (fun t => t.track request.requestId request.exchangeAccountId result .pending)
  return s.tracker.size

/-- The end of the try block of place_order, from the answer of the exchange on. -/
def settle (request : OrderRequest) (ref : Nat) (result : OrderResult) : Op OrderResult := do
  let s ← .read
  let oldOrderId := (s.tracker.objects ref).result.orderId
  let status := mapExchangeStatus result.status
  onTracker (fun t =>
    if result.orderId ≠ oldOrderId then t.reKey request.exchangeAccountId oldOrderId result.orderId else t)
  transition ref status
  onTracker (fun t => t.update request.exchangeAccountId result.orderId result (some status))
  return result

def submit (request : OrderRequest) (adapter : Adapter) (ref : Nat) : Op OrderResult := do
  transition ref .submitting
  .modify (fun s => { s with executions := request.requestId :: s.executions })
  let s ← .read
  let result ← s.executor.execute request adapter ref
  settle request ref result

/-- The except block of place_order. -/
def fail (request : OrderRequest) (ref : Nat) (exc : Exn) : Op OrderResult := do
  transition ref .failed
  let s ← .read
  let result := (s.tracker.objects ref).result
  onTracker (fun t => t.update request.exchangeAccountId result.orderId (resultFromError request result exc)
    (some .failed))
  throw exc

def placeOrder (request : OrderRequest) : Op OrderResult := do
  let s ← .read
  match s.tracker.getByRequestId request.requestId with
  | some cached => return (s.tracker.objects cached).result
  | none =>
      let adapter ← getAdapter request.exchangeAccountId
      .lift (validate request)
      let ref ← createPending localOrderId request
      tryCatch (submit request adapter ref) (fail request ref)

end

/-- Take over what the exchange reports of an order. -/
def adopt (exchangeAccountId : Option UUID) (orderId : OrderId) (ref : Nat) (result : OrderResult) :
    Op OrderResult := do
  let status := mapExchangeStatus result.status
  transition ref status
  onTracker (fun t => t.update exchangeAccountId orderId result (some status))
  return result

/-- The steps that sync_order and the except block of cancel_order share. -/
def refresh (exchangeAccountId : Option UUID) (orderId : OrderId) (ref : Nat) (adapter : Adapter) :
    Op OrderResult := do
  let s ← .read
  let tracked := s.tracker.objects ref
  let result ← getOrder tracked.result.symbol tracked.result.exchangeOrderId adapter ref
  adopt exchangeAccountId orderId ref result

/-- The try block of cancel_order. -/
def tryCancel (exchangeAccountId : Option UUID) (orderId : OrderId) (ref : Nat) (adapter : Adapter) :
    Op OrderResult := do
  let s ← .read
  let tracked := s.tracker.objects ref
  let _ ← cancel tracked.result.symbol tracked.result.exchangeOrderId adapter
  transition ref .cancelled
  let s ← .read
  let result := cancelledResult (s.tracker.objects ref).result
  onTracker (fun t => t.update exchangeAccountId orderId result (some .cancelled))
  return result

def cancelOrder (exchangeAccountId : Option UUID) (orderId : OrderId) : Op OrderResult := do
  let s ← .read
  match s.tracker.get exchangeAccountId orderId with
  | none => throw (.orderNotFound (str orderId))
  | some ref =>
      if isTerminal (s.tracker.objects ref).status then return (s.tracker.objects ref).result
      else do
        let adapter ← getAdapter exchangeAccountId
        transition ref .cancelling
        tryCatch (tryCancel exchangeAccountId orderId ref adapter) (fun exc =>
          if exc.isOrderExecutionError ∨ exc.isOrderAlreadyFilled then
            refresh exchangeAccountId orderId ref adapter
          else throw exc)

def syncOrder (exchangeAccountId : Option UUID) (orderId : OrderId) : Op OrderResult := do
  let s ← .read
  match s.tracker.get exchangeAccountId orderId with
  | none => throw (.orderNotFound (str orderId))
  | some ref => do
      let adapter ← getAdapter exchangeAccountId
      refresh exchangeAccountId orderId ref adapter

/-- True if the exchange took the cancel; some orders fill before it. -/
def cancelOpen (result : OrderResult) (adapter : Adapter) : Op Bool :=
  tryCatch
    (do let _ ← cancel result.symbol result.exchangeOrderId adapter
        return true)
    (fun exc => if exc.isOrderExecutionError then return false else throw exc)

def markCancelled (exchangeAccountId : Option UUID) (orderId : OrderId) : Op Unit := do
  let s ← .read
  match s.tracker.get exchangeAccountId orderId with
  | none => return ()
  | some ref => transition ref .cancelled

/-- The loop of cancel_all_orders. -/
def cancelEach (exchangeAccountId : Option UUID) (adapter : Adapter) :
    List OrderResult → Op (List OrderResult)
  | [] => return []
  | result :: rest => do
      let cancelled ← cancelOpen result adapter
      if cancelled then do
        markCancelled exchangeAccountId result.orderId
        let results ← cancelEach exchangeAccountId adapter rest
        return result :: results
      else cancelEach exchangeAccountId adapter rest

def cancelAllOrders (exchangeAccountId : Option UUID) (symbol : Option String) : Op (List OrderResult) := do
  let adapter ← getAdapter exchangeAccountId
  let openResults ← getOpenOrders symbol adapter
  cancelEach exchangeAccountId adapter openResults

def listActiveOrders (s : ExecutionEngine) (exchangeAccountId : Option UUID := none) : List OrderResult :=
  (s.tracker.listActive exchangeAccountId).map (fun ref => (s.tracker.objects ref).result)

/-- The operations of the engine that change something. -/
inductive Call
  | registerAdapter (exchangeAccountId : UUID) (adapter : Adapter)
  | unregisterAdapter (exchangeAccountId : UUID)
  | placeOrder (request : OrderRequest)
  | cancelOrder (exchangeAccountId : Option UUID) (orderId : OrderId)
  | cancelAllOrders (exchangeAccountId : Option UUID) (symbol : Option String)
  | syncOrder (exchangeAccountId : Option UUID) (orderId : OrderId)

def perform (localOrderId : Nat → String) : Call → Op Unit
  | .registerAdapter acct adapter => registerAdapter acct adapter
  | .unregisterAdapter acct => unregisterAdapter acct
  | .placeOrder request => do
      let result ← placeOrder localOrderId request
      .modify (fun s => { s with returned := (request, result) :: s.returned })
  | .cancelOrder acct orderId => do let _ ← cancelOrder acct orderId
  | .cancelAllOrders acct symbol => do let _ ← cancelAllOrders acct symbol
  | .syncOrder acct orderId => do let _ ← syncOrder acct orderId

/-- An account with an adapter, and nothing tracked. -/
def oneAccount : ExecutionEngine := { adapters := Dict.empty.set 1 ⟨"bybit"⟩ }

def localId (n : Nat) : String := String.ofList ("local_".toList ++ List.replicate n '0')

def limitBuy (requestId : UUID) : OrderRequest :=
  { requestId := requestId, exchangeAccountId := some 1, symbol := "BTCUSDT", side := .buy, orderType := .limit
    quantity := 1, price := some 100 }

def report (orderId exchangeOrderId status : String) : OrderResult :=
  { orderId := some orderId, exchangeOrderId := exchangeOrderId, symbol := "BTCUSDT", side := "buy"
    orderType := "limit", quantity := 1, price := some 100, filledQuantity := 0, averageFillPrice := none
    status := status }

/-- An exchange that takes every order, answers every cancel alike and always reports the same. -/
def reporting (result : OrderResult) (q : AdapterReq) (cancelled : Except Exn Bool := .ok true) : AdapterAns q :=
  match q with
  | .placeOrder .. => .ok result
  | .cancelOrder .. => cancelled
  | .getOrder .. => .ok result
  | .getOpenOrders .. => .ok []
  | .sleep _ => ()

def reportingHandler (result : OrderResult) : Handler Unit AdapterReq AdapterAns := fun w q => (reporting result q, w)

end Utos.Execution.Engine
