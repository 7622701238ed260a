import Utos.Exchanges.Errors
import Utos.Execution.Executor

namespace Utos.Exchanges.Hyperliquid

open Core.DomainTypes Core.Exceptions Core Http Errors
open Execution.Executor (PlaceArgs)

variable (x : Named)

/-- HyperliquidAdapter._raise_for_status -/
def raiseForStatus (response : JsonResponse) : Except Exn Unit :=
  if response.statusCode < 400 then .ok ()
  else do
    let body := response.body.getD (.object [])
    let msg ← body.get "msg" (.text "")
    let msg ← body.get "error" msg
    let msg ← body.get "response" msg
    let status := response.statusCode
    let message := msg.str x.display
    if status = 429 then .error (rateLimitError x s!"Hyperliquid rate limit: {message}")
    else if status = 401 ∨ status = 403 then .error (authenticationError s!"Hyperliquid auth error: {message}")
    else if 500 ≤ status then .error (connectionError x s!"Hyperliquid server error {status}: {message}")
    else .error (exchangeError x s!"Hyperliquid HTTP {status}: {message}")

/-- HyperliquidAdapter._post_action from the response on. -/
def postAction (response : JsonResponse) : Except Exn Json := do
  raiseForStatus x response
  match response.body with
  | some data => .ok data
  | none => .error (exchangeError x "Invalid JSON from Hyperliquid")

/-- The status and the order id that place_order reads. -/
def readAnswer (response : Json) : Except Exn (Json × Json) :=
  if response.truthy then do
    let statusVal ← response.get "status" (.text "err")
    let resting ← response.get "resting" (.object [])
    let oid ← resting.get "oid" (.text "")
    return (statusVal, oid)
  else return (.text "err", .text "")

/-- HyperliquidAdapter.place_order from the response on. -/
def placeOrder (args : PlaceArgs) (response : JsonResponse) : Except Exn OrderResult := do
  let data ← postAction x response
  let (statusVal, restingOid) ← readAnswer data
  let ok := statusVal.isText "ok"
  let statusText := statusVal.str x.display
  return { orderId := args.clientOrderId, exchangeOrderId := restingOid.str x.display, symbol := upper args.symbol
           side := lower args.side, orderType := lower args.orderType, quantity := args.quantity, price := args.price
           filledQuantity := 0, averageFillPrice := none, status := if ok then "open" else "rejected"
           errorMessage := if ok then none else some s!"Hyperliquid order error: {statusText}" }

/-- HyperliquidAdapter.cancel_order from the response on. -/
def cancelOrder (symbol orderId : String) (response : JsonResponse) : Except Exn OrderResult := do
  let _ ← postAction x response
  return { orderId := some "", exchangeOrderId := orderId, symbol := upper symbol, side := "", orderType := ""
           quantity := 0, price := none, filledQuantity := 0, averageFillPrice := none, status := "cancelled" }

theorem postAction_of_lt {response : JsonResponse} (h : response.statusCode < 400) :
    postAction x response = match response.body with
      | some data => .ok data
      | none => .error (exchangeError x "Invalid JSON from Hyperliquid") := by
  rw [postAction, raiseForStatus, if_pos h]
  rfl

end Utos.Exchanges.Hyperliquid
