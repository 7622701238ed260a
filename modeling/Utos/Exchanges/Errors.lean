import Utos.Core.Json
import Utos.Exchanges.Http

namespace Utos.Exchanges.Errors

open Core.DomainTypes Core.Exceptions Core Http

/-- The body of a response is missing where it is not JSON. -/
abbrev JsonResponse := Response (Option Json)

/-- An adapter as far as its errors show it, and what Python prints for a list or an object. -/
structure Named where
  name : String
  display : Json → String

def rateLimitError (x : Named) (message : String) : Exn :=
  .exchange .exchangeRateLimitError message x.name none

def authenticationError (message : String) : Exn := .other "AuthenticationError" message

def symbolNotSupported (x : Named) (symbol : String) : Exn :=
  .other "SymbolNotSupported" s!"Symbol {symbol} not supported by exchange {x.name}"

def connectionError (x : Named) (message : String) : Exn :=
  .exchange .exchangeConnectionError message x.name none

def exchangeError (x : Named) (message : String) : Exn := .exchange .exchangeError message x.name none

/-- Where an exchange reports its errors, and what its codes mean. -/
structure Codes where
  label : String
  codeField : String
  defaultCode : Json
  messageField : String
  rateLimit : Json → Bool
  authentication : Json → Bool
  symbol : Json → Bool
  balance : Json → Bool
  orderNotFound : Json → Bool

/-- _raise_for_status of Bybit and OKX. -/
def raiseForStatus (codes : Codes) (x : Named) (response : JsonResponse) : Except Exn Unit :=
  if response.statusCode < 400 then .ok ()
  else do
    let body := response.body.getD (.object [])
    let code ← body.get codes.codeField codes.defaultCode
    let msg ← body.get codes.messageField (.text "")
    let status := response.statusCode
    let message := msg.str x.display
    let codeText := code.str x.display
    if status = 429 ∨ codes.rateLimit code then .error (rateLimitError x s!"{codes.label} rate limit: {message}")
    else if codes.authentication code then .error (authenticationError s!"{codes.label} auth error: {message}")
    else if codes.symbol code then .error (symbolNotSupported x "")
    else if codes.balance code then
      .error (.insufficientBalanceError s!"{codes.label} insufficient balance: {message}")
    else if codes.orderNotFound code then .error (.orderNotFound message)
    else if 500 ≤ status then .error (connectionError x s!"{codes.label} server error {status}: {message}")
    else .error (exchangeError x s!"{codes.label} error {codeText}: {message}")

/-- The end of _parse_json. -/
def parsed (label : String) (x : Named) (response : JsonResponse) : Except Exn Json :=
  match response.body with
  | some data => .ok data
  | none => .error (exchangeError x s!"Invalid JSON response from {label}")

/-- _parse_json of Bybit and OKX. -/
def parseJson (codes : Codes) (x : Named) (response : JsonResponse) : Except Exn Json := do
  raiseForStatus codes x response
  parsed codes.label x response

variable {codes : Codes} {x : Named} {response : JsonResponse}

theorem raiseForStatus_of_lt (h : response.statusCode < 400) : raiseForStatus codes x response = .ok () := by
  rw [raiseForStatus, if_pos h]

theorem parseJson_of_lt (h : response.statusCode < 400) :
    parseJson codes x response = parsed codes.label x response := by
  rw [parseJson, raiseForStatus_of_lt h]
  rfl

end Utos.Exchanges.Errors
