import Utos.Core.Dict
import Utos.Core.Join
import Utos.Core.JsonText
import Utos.Core.Quote
import Utos.Exchanges.Errors
import Utos.Exchanges.OrderParams
import Mathlib.Data.List.Sort
import Mathlib.Data.String.Basic

namespace Utos.Exchanges.Signing

open Core Core.Exceptions Quote
open JsonText (jsonString)
open OrderParams (Venue)

/-- What a params dict holds: the calls put texts and integers into it. -/
inductive Value
  | text (s : String)
  | int (n : Int)
  | bool (b : Bool)
  | none
  deriving DecidableEq, Repr

abbrev Params := Dict String Value

abbrev Items := List (String × Value)

namespace Value

/-- str(value) -/
def str : Value → String
  | text s => s
  | int n => toString n
  | bool b => if b then "True" else "False"
  | none => "None"

/-- The text of a value in a query of httpx. -/
def queryText : Value → String
  | text s => s
  | int n => toString n
  | bool b => if b then "true" else "false"
  | none => ""

/-- json.dumps(value) -/
def json : Value → List Char
  | text s => jsonString s
  | int n => (toString n).toList
  | bool b => if b then "true".toList else "false".toList
  | none => "null".toList

end Value

/-- sorted(items): the keys are distinct, and decide. -/
def sortedItems (items : Items) : Items := items.insertionSort (fun a b => a.1 ≤ b.1)

/-- k=v&k=v, with the given texts. -/
def joinPairs (key : String → List Char) (value : Value → List Char) (items : Items) : List Char :=
  ['&'].intercalate (items.map (fun e => key e.1 ++ '=' :: value e.2))

/-- urllib.parse.urlencode(items, doseq=True) -/
def urlencode : Items → List Char := joinPairs quotePlus (fun v => quotePlus v.str)

/-- json.dumps of the dict with the items, with the separators between items and within one. -/
def dumps (itemSeparator keySeparator : String) (items : Items) : List Char :=
  '\x7b' :: itemSeparator.toList.intercalate
    (items.map (fun e => jsonString e.1 ++ keySeparator.toList ++ e.2.json)) ++ ['\x7d']

/-- The part of httpx that writes a request: a query, and a json= body. -/
structure Httpx where
  quote : String → List Char
  query : Params → List Char
  json : Params → List Char

/-- A query is percent-encoded item by item, in insertion order, and a json= body is json.dumps(params). -/
structure Httpx.Documented (x : Httpx) : Prop where
  quoting : Quoting x.quote
  query : ∀ params, x.query params = joinPairs x.quote (fun v => x.quote v.queryText) params.entries
  json : ∀ params, x.json params = dumps ", " ": " params.entries

inductive Method
  | get
  | post
  | delete
  | other (name : String)
  deriving DecidableEq, Repr

def Method.name : Method → String
  | get => "GET"
  | post => "POST"
  | delete => "DELETE"
  | other name => name

/-- What an adapter knows when it signs. The signature of the authenticator is any function of the text. -/
structure Account where
  apiKey : String
  recvWindow : Int
  timestamp : Int
  sign : List Char → String

/-- The text that was signed, and the query or the body of the request. -/
structure Sent where
  signed : List Char
  wire : List Char
  deriving DecidableEq

def unsupported (method : Method) : Exn := .other "ValueError" s!"Unsupported signed method: {method.name}"

def ensureAuthenticated (a : Account) (label : String) : Except Exn Unit :=
  if a.apiKey = "" then .error (Errors.authenticationError s!"{label} adapter is not authenticated") else .ok ()

def setRecvWindow (a : Account) (params : Params) : Params :=
  params.set "recvWindow" ((params.get "recvWindow").getD (.int a.recvWindow))

def setTimestamp (a : Account) (params : Params) : Params := params.set "timestamp" (.int a.timestamp)

/-- to_sign, and the params with the signature. -/
def signParams (a : Account) (params : Params) : List Char × Params :=
  let toSign := urlencode (sortedItems params.entries)
  (toSign, params.set "signature" (.text (a.sign toSign)))

/-- The dispatch that BinanceAdapter and MEXCAdapter share. -/
def sendSigned (x : Httpx) (method : Method) (signed : List Char × Params) : Except Exn Sent :=
  match method with
  | .get | .delete => .ok ⟨signed.1, x.query signed.2⟩
  | .post => .ok ⟨signed.1, urlencode (sortedItems signed.2.entries)⟩
  | .other _ => .error (unsupported method)

namespace Binance

def signedParams (a : Account) (params : Params) : List Char × Params :=
  signParams a (setTimestamp a (setRecvWindow a params))

/-- One attempt of BinanceAdapter._signed_request: a second one after a resync
signs anew, with its own timestamp. -/
def signedRequest (x : Httpx) (a : Account) (method : Method) (params : Params) : Except Exn Sent := do
  ensureAuthenticated a "Binance"
  sendSigned x method (signedParams a params)

end Binance

namespace MEXC

def signedParams (a : Account) (params : Params) : List Char × Params :=
  signParams a (setRecvWindow a (setTimestamp a params))

/-- MEXCAdapter._signed_request -/
def signedRequest (x : Httpx) (a : Account) (method : Method) (params : Params) : Except Exn Sent := do
  ensureAuthenticated a "MEXC"
  sendSigned x method (signedParams a params)

end MEXC

/-- "&".join(f"{k}={v}" for k, v in sorted(params.items())) -/
def plainQuery (params : Params) : List Char :=
  joinPairs String.toList (fun v => v.str.toList) (sortedItems params.entries)

namespace Bybit

/-- BybitAdapter._signed_request -/
def signedRequest (x : Httpx) (a : Account) (method : Method) (params : Params) : Except Exn Sent := do
  ensureAuthenticated a "Bybit"
  match method with
  | .get => .ok ⟨plainQuery params, x.query params⟩
  | .post => .ok ⟨dumps "," ":" (sortedItems params.entries), x.json params⟩
  | _ => .error (unsupported method)

end Bybit

namespace OKX

/-- OKXAdapter._signed_request. Of the text that is signed, the query or the body. -/
def signedRequest (x : Httpx) (a : Account) (method : Method) (params : Params) : Except Exn Sent := do
  ensureAuthenticated a "OKX"
  match method with
  | .get => .ok ⟨plainQuery params, x.query params⟩
  | .post =>
      let body := dumps "," ":" params.entries
      .ok ⟨body, body⟩
  | _ => .error (unsupported method)

end OKX

def signedRequest : Venue → Httpx → Account → Method → Params → Except Exn Sent
  | .binance => Binance.signedRequest
  | .bybit => Bybit.signedRequest
  | .okx => OKX.signedRequest
  | .mexc => MEXC.signedRequest

def isSignature (piece : List Char) : Bool := "signature=".toList.isPrefixOf piece

/-- The query or the body without the parameter signature, byte for byte. -/
def removeSignature (wire : List Char) : List Char :=
  ['&'].intercalate ((wire.splitOn '&').filter (fun piece => !isSignature piece))

/-- What the adapter adds to the params for the signature is taken out again. The
signature of Bybit and OKX is in the headers. -/
def unsigned : Venue → List Char → List Char
  | .binance | .mexc => removeSignature
  | .bybit | .okx => id

/-- What is sent is what was signed. -/
def Covered (venue : Venue) (x : Httpx) (a : Account) (method : Method) (params : Params) : Prop :=
  ∀ sent, signedRequest venue x a method params = .ok sent → unsigned venue sent.wire = sent.signed

def addKey (key : String) (keys : List String) : List String := if key ∈ keys then keys else keys ++ [key]

/-- The keys in the order in which they are sent, the signature apart. -/
def sentKeys (venue : Venue) (params : Params) : List String :=
  let keys := params.entries.map Prod.fst
  match venue with
  | .binance => addKey "timestamp" (addKey "recvWindow" keys)
  | .mexc => addKey "recvWindow" (addKey "timestamp" keys)
  | .bybit | .okx => keys

def InOrder (venue : Venue) (params : Params) : Prop := (sentKeys venue params).Pairwise (· ≤ ·)

/-- The params are in the order of the signature, and httpx writes their texts like urlencode. -/
structure QueryMatches (x : Httpx) (venue : Venue) (params : Params) : Prop where
  unsigned : params.get "signature" = none
  inOrder : InOrder venue params
  keys : ∀ e ∈ params.entries, x.quote e.1 = quotePlus e.1
  values : ∀ e ∈ params.entries, e.1 ≠ "timestamp" → x.quote e.2.queryText = quotePlus e.2.str

/-- The params are in the order of the signature, and need no quoting. -/
structure PlainQueryMatches (x : Httpx) (venue : Venue) (params : Params) : Prop where
  inOrder : InOrder venue params
  keys : ∀ e ∈ params.entries, x.quote e.1 = e.1.toList
  values : ∀ e ∈ params.entries, x.quote e.2.queryText = e.2.str.toList

/-- The condition on the params under which a request sends what it signs. -/
def Condition (x : Httpx) (params : Params) : Venue → Method → Prop
  | .binance, .post | .mexc, .post => params.get "signature" = none
  | .binance, .get | .binance, .delete => QueryMatches x .binance params
  | .mexc, .get | .mexc, .delete => QueryMatches x .mexc params
  | .bybit, .get => PlainQueryMatches x .bybit params
  | .okx, .get => PlainQueryMatches x .okx params
  | .bybit, .post => params.entries = []
  | _, _ => True

end Utos.Exchanges.Signing
