import Utos.Exchanges.Errors
import Utos.Execution.Executor

namespace Utos.Exchanges.Bybit

open Core.DomainTypes Core.Exceptions Core Http Errors
open Execution.Executor (PlaceArgs)

def codes : Codes where
  label := "Bybit"
  codeField := "retCode"
  defaultCode := .int 0
  messageField := "retMsg"
  rateLimit := Json.isInt 10001
  authentication code := code.isInt 10003 || code.isInt 10004
  symbol := Json.isInt 110001
  balance := Json.isInt 110017
  orderNotFound := Json.isInt 20001

variable (x : Named)

/-- BybitAdapter._order_result_from_response -/
def orderResultFromResponse (data : Json) (symbol side orderType : String) (quantity : ℚ) (price : Option ℚ) :
    Except Exn OrderResult := do
  let result ← data.get "result" (.object [])
  let orderLinkId ← result.get "orderLinkId" (.text "")
  let orderId ← result.get "orderId" (.text "")
  return { orderId := some (orderLinkId.str x.display), exchangeOrderId := orderId.str x.display, symbol := symbol
           side := lower side, orderType := lower orderType, quantity := quantity, price := price
           filledQuantity := 0, averageFillPrice := none, status := "open", errorMessage := none }

/-- BybitAdapter.place_order from the response on. -/
def placeOrder (args : PlaceArgs) (response : JsonResponse) : Except Exn OrderResult := do
  raiseForStatus codes x response
  let data ← parseJson codes x response
  orderResultFromResponse x data (upper args.symbol) args.side args.orderType args.quantity args.price

/-- BybitAdapter.cancel_order from the response on. -/
def cancelOrder (symbol : String) (response : JsonResponse) : Except Exn OrderResult := do
  raiseForStatus codes x response
  let data ← parseJson codes x response
  orderResultFromResponse x data (upper symbol) "" "" 0 none

end Utos.Exchanges.Bybit
