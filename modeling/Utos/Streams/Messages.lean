import Utos.Core.DomainTypes
import Mathlib.Data.List.Sort
import Mathlib.Data.String.Basic

namespace Utos.Streams.Messages

open Core.DomainTypes

/-- A stream as the exchange names it. -/
inductive Stream
  | name (name : String)
  | subscription (type : String) (coin : Option String)
  deriving DecidableEq, Repr

/-- The messages the adapters hand to json.dumps: with "params" (Binance, MEXC),
with "args" (Bybit, OKX), with "subscription" (Hyperliquid). -/
inductive Message
  | params (method : String) (names : List String) (id : Nat)
  | args (op : String) (names : List String)
  | subscription (method : String) (type : String) (coin : Option String)
  deriving DecidableEq, Repr

def Message.streams : Message → List Stream
  | .params _ names _ => names.map .name
  | .args _ names => names.map .name
  | .subscription _ type coin => [.subscription type coin]

inductive Key
  | params (names : List String)
  | message (m : Message)
  deriving DecidableEq, Repr

def sorted (names : List String) : List String := names.insertionSort (· ≤ ·)

/-- WebSocketManager._subscription_key -/
def subscriptionKey : Message → Key
  | .params _ names _ => .params (sorted names)
  | m => .message m

theorem streams_of_key {m m' : Message} (h : subscriptionKey m = subscriptionKey m') (s : Stream) :
    s ∈ m.streams ↔ s ∈ m'.streams := by
  have hraw : ∀ {m m' : Message}, Key.message m = .message m' → (s ∈ m.streams ↔ s ∈ m'.streams) := by
    intro m m' hm
    cases hm
    rfl
  cases m with
  | params method ps id =>
      cases m' with
      | params method' ps' id' =>
          simp only [subscriptionKey, Key.params.injEq] at h
          have hperm : ps.Perm ps' := by
            have hps := List.perm_insertionSort (· ≤ ·) ps
            have hps' := List.perm_insertionSort (· ≤ ·) ps'
            exact hps.symm.trans ((List.Perm.of_eq h).trans hps')
          exact (hperm.map Stream.name).mem_iff
      | args _ _ | subscription _ _ _ => cases h
  | args _ _ | subscription _ _ _ =>
      cases m' with
      | params _ _ _ => cases h
      | args _ _ | subscription _ _ _ => exact hraw h

inductive Exchange
  | binance
  | bybit
  | okx
  | mexc
  | hyperliquid
  deriving DecidableEq, Repr

def binanceStream (upper channel : String) : String :=
  if channel = "ticker" then lower upper ++ "@ticker"
  else if channel = "orderbook" then lower upper ++ "@depth"
  else lower upper ++ "@" ++ channel

def bybitArg (upper channel : String) : String :=
  if channel = "ticker" then "tickers." ++ upper
  else if channel = "orderbook" then "orderbook.50." ++ upper
  else channel ++ "." ++ upper

def okxArg (upper channel : String) : String :=
  if channel = "ticker" then "tickers/" ++ upper
  else if channel = "orderbook" then "books5/" ++ upper
  else channel ++ "/" ++ upper

def mexcParam (upper channel : String) : String :=
  if channel = "ticker" then "spot@ticker@" ++ upper
  else if channel = "orderbook" then "spot@depth@" ++ upper
  else "spot@" ++ channel ++ "@" ++ upper

def hyperliquidMessage (method upper channel : String) : Message :=
  if channel = "ticker" then .subscription method "allMids" none
  else if channel = "orderbook" then .subscription method "l2Book" (some upper)
  else .subscription method channel (some upper)

/-- The stream that an adapter has for a symbol and a channel. -/
def stream (exchange : Exchange) (symbol channel : String) : Stream :=
  match exchange with
  | .binance => .name (binanceStream (upper symbol) channel)
  | .bybit => .name (bybitArg (upper symbol) channel)
  | .okx => .name (okxArg (upper symbol) channel)
  | .mexc => .name (mexcParam (upper symbol) channel)
  | .hyperliquid =>
      if channel = "ticker" then .subscription "allMids" none
      else if channel = "orderbook" then .subscription "l2Book" (some (upper symbol))
      else .subscription channel (some (upper symbol))

inductive Verb
  | subscribe
  | unsubscribe
  deriving DecidableEq, Repr

def Verb.method (verb : Verb) (exchange : Exchange) : String :=
  match exchange, verb with
  | .binance, .subscribe => "SUBSCRIBE"
  | .binance, .unsubscribe => "UNSUBSCRIBE"
  | .mexc, .subscribe => "SUBSCRIPTION"
  | .mexc, .unsubscribe => "UNSUBSCRIPTION"
  | _, .subscribe => "subscribe"
  | _, .unsubscribe => "unsubscribe"

/-- The messages of one subscribe_market or unsubscribe_market call. MEXC
numbers a message by hash(upper), which differs between processes. -/
def messages (hash : String → Nat) (exchange : Exchange) (verb : Verb) (nextId : Nat) (symbols : List String)
    (channel : String) : List Message :=
  match exchange with
  | .binance => [.params (verb.method exchange) (symbols.map (fun s => binanceStream (upper s) channel)) nextId]
  | .bybit => [.args (verb.method exchange) (symbols.map (fun s => bybitArg (upper s) channel))]
  | .okx => [.args (verb.method exchange) (symbols.map (fun s => okxArg (upper s) channel))]
  | .mexc => symbols.map (fun s =>
      .params (verb.method exchange) [mexcParam (upper s) channel] (hash (upper s) % 100000))
  | .hyperliquid => symbols.map (fun s => hyperliquidMessage (verb.method exchange) (upper s) channel)

theorem streams_hyperliquidMessage (method symbol channel : String) :
    (hyperliquidMessage method (upper symbol) channel).streams = [stream .hyperliquid symbol channel] := by
  unfold hyperliquidMessage stream
  split
  · rfl
  split <;> rfl

theorem mem_streams_messages (hash : String → Nat) (exchange : Exchange) (verb : Verb) (nextId : Nat)
    (symbols : List String) (channel : String) (s : Stream) :
    (∃ m ∈ messages hash exchange verb nextId symbols channel, s ∈ m.streams) ↔
      ∃ symbol ∈ symbols, s = stream exchange symbol channel := by
  cases exchange with
  | binance | bybit | okx | mexc => simp [messages, Message.streams, stream, eq_comm]
  | hyperliquid => simp [messages, streams_hyperliquidMessage]

end Utos.Streams.Messages
