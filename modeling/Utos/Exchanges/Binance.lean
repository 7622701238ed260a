import Utos.Exchanges.Errors

namespace Utos.Exchanges.Binance

open Core.DomainTypes Core.Exceptions Core Http Errors

variable (x : Named)

/-- word in text -/
def isIn (word text : String) : Bool := text.toList.tails.any (fun rest => word.toList.isPrefixOf rest)

/-- msg.lower() -/
def lowered : Json → Except Exn String
  | .text s => .ok (lower s)
  | j => .error (.other "AttributeError" s!"'{j.typeName}' object has no attribute 'lower'")

/-- BinanceAdapter._raise_for_status -/
def raiseForStatus (response : JsonResponse) : Except Exn Unit :=
  if response.statusCode < 400 then .ok ()
  else do
    let body := response.body.getD (.object [])
    let code ← body.get "code" .null
    let msg ← body.get "msg" (.text "")
    let status := response.statusCode
    let message := msg.str x.display
    if status = 429 ∨ code.isInt (-1003) ∨ code.isInt (-1015) then
      .error (rateLimitError x "Binance rate limit exceeded")
    else if status = 418 then .error (rateLimitError x "Binance IP banned")
    else if code.isInt (-1021) then
      .error (.exchange .exchangeError "Binance timestamp drift detected" x.name (some "TIMESTAMP_DRIFT"))
    else if code.isInt (-1022) ∨ code.isInt (-2014) ∨ code.isInt (-2015) then
      .error (authenticationError s!"Binance invalid API key or signature: {message}")
    else if code.isInt (-2013) then do
      let orderId ← body.get "orderId" (.text "")
      .error (.orderNotFound (orderId.str x.display))
    else do
      let outOfBalance ← if code.isInt (-2010) then (lowered msg).map (isIn "balance") else .ok false
      if outOfBalance then .error (.insufficientBalanceError s!"Binance insufficient balance: {message}")
      else if code.isInt (-1120) ∨ code.isInt (-1121) then do
        let symbol ← body.get "symbol" (.text "")
        .error (symbolNotSupported x (symbol.str x.display))
      else if 500 ≤ status then .error (connectionError x s!"Binance server error {status}: {message}")
      else .error (exchangeError x s!"Binance HTTP {status}: {message}")

/-- BinanceAdapter._parse_json -/
def parseJson (response : JsonResponse) : Except Exn Json := do
  raiseForStatus x response
  parsed "Binance" x response

end Utos.Exchanges.Binance
