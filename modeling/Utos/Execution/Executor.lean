import Mathlib.Algebra.Order.Field.Rat
import Utos.Coroutine.Run
import Utos.Core.Exceptions
import Utos.Execution.Models

namespace Utos.Execution.Executor

open Coroutine Core.DomainTypes Core.Exceptions Models

/-- What the execution engine reads of an adapter. -/
structure Adapter where
  exchangeName : String
  deriving DecidableEq, Repr

/-- The arguments of adapter.place_order. -/
structure PlaceArgs where
  symbol : String
  side : String
  orderType : String
  quantity : ℚ
  price : Option ℚ
  stopPrice : Option ℚ
  clientOrderId : Option String
  deriving DecidableEq, Repr

/-- What is awaited: the methods of an adapter, and asyncio.sleep. The tracked
order that a request is about is not part of it and is seen by no adapter. -/
inductive AdapterReq
  | placeOrder (adapter : Adapter) (ref : Nat) (args : PlaceArgs)
  | cancelOrder (adapter : Adapter) (symbol orderId : String)
  | getOrder (adapter : Adapter) (ref : Nat) (symbol orderId : String)
  | getOpenOrders (adapter : Adapter) (symbol : Option String)
  | sleep (delay : ℚ)

abbrev AdapterAns : AdapterReq → Type
  | .placeOrder .. => Except Exn OrderResult
  | .cancelOrder .. => Except Exn Bool
  | .getOrder .. => Except Exn OrderResult
  | .getOpenOrders .. => Except Exn (List OrderResult)
  | .sleep _ => Unit

abbrev Dispatch (S α : Type) := Program S AdapterReq AdapterAns Exn α

structure OrderExecutor where
  maxRetries : Nat := 3
  baseDelay : ℚ := 1
  maxDelay : ℚ := 30
  backoffMultiplier : ℚ := 2

def executionError (adapter : Adapter) (message : String) (errorCode : Option String := none) : Exn :=
  .exchange .orderExecutionError message adapter.exchangeName errorCode

def OrderExecutor.exhausted (x : OrderExecutor) (adapter : Adapter) (lastError : Option Exn) : Exn :=
  let last := (lastError.map Exn.message).getD "None"
  executionError adapter s!"Order execution failed after {x.maxRetries} attempts: {last}"

variable {S : Type}

/-- The loop of execute; the number counts the attempts that are left. -/
def OrderExecutor.attempts (x : OrderExecutor) (adapter : Adapter) (ref : Nat) (args : PlaceArgs) :
    Nat → ℚ → Option Exn → Dispatch S OrderResult
  | 0, _, lastError => .raise (x.exhausted adapter lastError)
  | n + 1, delay, _ => .call (.placeOrder adapter ref args) (fun answer => match answer with
      | .ok result => .ret result
      | .error exc =>
          if exc.isTransient then
            if n = 0 then .raise (x.exhausted adapter (some exc))
            else .call (.sleep delay)
              (fun _ => x.attempts adapter ref args n (min (delay * x.backoffMultiplier) x.maxDelay) (some exc))
          else if exc.isExchangeError ∨ exc.isInsufficientBalance then
            .raise (executionError adapter s!"Order execution failed: {exc.message}" exc.errorCode)
          else .raise exc)

def placeArgs (request : OrderRequest) : PlaceArgs :=
  { symbol := upper request.symbol
    side := request.side.value
    orderType := request.orderType.value
    quantity := request.quantity
    price := request.price
    stopPrice := request.stopPrice
    clientOrderId := request.clientOrderId }

def OrderExecutor.execute (x : OrderExecutor) (request : OrderRequest) (adapter : Adapter) (ref : Nat) :
    Dispatch S OrderResult :=
  x.attempts adapter ref (placeArgs request) x.maxRetries x.baseDelay none

/-- except ExchangeError as exc: raise OrderExecutionError(...) from exc -/
def asExecutionError (adapter : Adapter) (what : String) (exc : Exn) : Exn :=
  if exc.isExchangeError then executionError adapter s!"{what} failed: {exc.message}" exc.errorCode else exc

def cancel (symbol orderId : String) (adapter : Adapter) : Dispatch S Bool :=
  .await (.cancelOrder adapter (upper symbol) orderId) (Except.mapError (asExecutionError adapter "Cancel order"))

def getOrder (symbol orderId : String) (adapter : Adapter) (ref : Nat) : Dispatch S OrderResult :=
  .await (.getOrder adapter ref (upper symbol) orderId) (Except.mapError (asExecutionError adapter "Get order"))

def getOpenOrders (symbol : Option String) (adapter : Adapter) : Dispatch S (List OrderResult) :=
  let symbol := symbol.bind (fun s => if s = "" then none else some (upper s))
  .await (.getOpenOrders adapter symbol) (Except.mapError (asExecutionError adapter "Get open orders"))

end Utos.Execution.Executor
