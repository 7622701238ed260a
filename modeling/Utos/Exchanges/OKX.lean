import Utos.Exchanges.Errors
import Utos.Execution.Executor

namespace Utos.Exchanges.OKX

open Core.DomainTypes Core.Exceptions Core Http Errors
open Execution.Executor (PlaceArgs)

def codes : Codes where
  label := "OKX"
  codeField := "code"
  defaultCode := .text "0"
  messageField := "msg"
  rateLimit := Json.isText "50011"
  authentication code := code.isText "50102" || code.isText "50103" || code.isText "50104"
  symbol := Json.isText "51001"
  balance := Json.isText "51020"
  orderNotFound := Json.isText "51401"

variable (x : Named)

/-- data.get("data", [{}])[0] if data.get("data") else {} -/
def firstItem (data : Json) : Except Exn Json := do
  let items ← data.get "data" .null
  if items.truthy then items.first else return .object []

/-- The text of a message that may be missing; messages are strings. -/
def messageOf (x : Named) : Json → Option String
  | .null => none
  | j => some (j.str x.display)

/-- OKXAdapter._order_result_from_response -/
def orderResultFromResponse (data : Json) (symbol side orderType : String) (quantity : ℚ) (price : Option ℚ) :
    Except Exn OrderResult := do
  let result ← firstItem data
  let clOrdId ← result.get "clOrdId" (.text "")
  let ordId ← result.get "ordId" (.text "")
  let sMsg ← result.get "sMsg" .null
  return { orderId := some (clOrdId.str x.display), exchangeOrderId := ordId.str x.display, symbol := symbol
           side := lower side, orderType := lower orderType, quantity := quantity, price := price
           filledQuantity := 0, averageFillPrice := none, status := "open", errorMessage := messageOf x sMsg }

/-- OKXAdapter.place_order from the response on. -/
def placeOrder (args : PlaceArgs) (response : JsonResponse) : Except Exn OrderResult := do
  raiseForStatus codes x response
  let data ← parseJson codes x response
  orderResultFromResponse x data (upper args.symbol) args.side args.orderType args.quantity args.price

/-- OKXAdapter.cancel_order from the response on; the body is not read. -/
def cancelOrder (symbol orderId : String) (response : JsonResponse) : Except Exn OrderResult := do
  raiseForStatus codes x response
  return { orderId := some "", exchangeOrderId := orderId, symbol := upper symbol, side := "", orderType := ""
           quantity := 0, price := none, filledQuantity := 0, averageFillPrice := none, status := "cancelled" }

end Utos.Exchanges.OKX
