import Utos.Coroutine.Interference
import Utos.Streams.SubscriptionManager
import Mathlib.Algebra.Order.Field.Rat

namespace Utos.MarketData.Hub

open Coroutine Core.DomainTypes Core.Exceptions Streams
open Streams.SubscriptionManager (Entry LogicalKey Manager logicalKey)

/-- TickerData; timestamps are not modelled. -/
structure TickerData where
  symbol : String
  bid : ℚ
  ask : ℚ
  last : ℚ
  volume : ℚ
  deriving DecidableEq, Repr

/-- The Decimal in an attribute of a TickerData. -/
def TickerData.attribute (t : TickerData) : String → Except Exn ℚ
  | "bid" => .ok t.bid
  | "ask" => .ok t.ask
  | "last" => .ok t.last
  | "volume" => .ok t.volume
  | name => .error (.other "AttributeError" s!"'TickerData' object has no attribute '{name}'")

structure OrderBook where
  symbol : String
  bids : List (ℚ × ℚ)
  asks : List (ℚ × ℚ)
  deriving DecidableEq, Repr

/-- Candle; its field open is called opened here. -/
structure Candle where
  symbol : String
  interval : String
  opened : ℚ
  high : ℚ
  low : ℚ
  close : ℚ
  volume : ℚ
  deriving DecidableEq, Repr

/-- What a stream delivers. -/
inductive Data
  | ticker (ticker : TickerData)
  | orderbook (orderbook : OrderBook)
  | candles (candles : List Candle)
  | candle (candle : Candle)
  deriving DecidableEq, Repr

/-- A positional argument of a callback. -/
inductive Arg
  | text (s : String)
  | data (data : Data)
  deriving DecidableEq, Repr

/-- What is subscribed: the closure that _wire_grid_and_market makes for an
instance, or a function of any other consumer, known by a name. -/
inductive Callback
  | priceCallback (instanceId : String)
  | consumer (name : String)
  deriving DecidableEq, Repr

structure CacheEntry where
  ticker : Option TickerData := none
  orderbook : Option OrderBook := none
  candles : String → Option (List Candle) := fun _ => none
  price : Option ℚ := none

/-- MarketCache, by the lower-case exchange and the upper-case symbol. -/
abbrev MarketCache := String × String → Option CacheEntry

def MarketCache.assign (cache : MarketCache) (exchange symbol : String) (f : CacheEntry → CacheEntry) : MarketCache :=
  Function.update cache (lower exchange, upper symbol) (some (f ((cache (lower exchange, upper symbol)).getD {})))

def updateTicker (cache : MarketCache) (exchange symbol : String) (ticker : TickerData) : MarketCache :=
  cache.assign exchange symbol (fun entry => { entry with ticker := some ticker, price := some ticker.last })

def updateOrderbook (cache : MarketCache) (exchange symbol : String) (orderbook : OrderBook) : MarketCache :=
  cache.assign exchange symbol (fun entry => { entry with orderbook := some orderbook })

def updateCandles (cache : MarketCache) (exchange symbol interval : String) (candles : List Candle) : MarketCache :=
  cache.assign exchange symbol (fun entry =>
    { entry with candles := Function.update entry.candles interval (some candles) })

/-- A hub without its connectors; the manager is missing until it is started. -/
structure MarketHub where
  cache : MarketCache := fun _ => none
  subscriptionManager : Option (Manager Callback) := none

/-- GridEngine.on_price_update, and the functions of the other consumers. -/
inductive FeedReq
  | onPriceUpdate (instanceId : String) (price : ℚ)
  | deliver (name : String) (args : List Arg)
  deriving DecidableEq, Repr

abbrev FeedAns : FeedReq → Type := fun _ => Except Exn Unit

abbrev Op (α : Type) := Program MarketHub FeedReq FeedAns Exn α

def quotedList : List String → String
  | [] => ""
  | [name] => s!"'{name}'"
  | [name, last] => s!"'{name}' and '{last}'"
  | names =>
      let last := names.getLast?.getD ""
      ", ".intercalate (names.dropLast.map (fun name => s!"'{name}'")) ++ s!", and '{last}'"

def priceCallbackName : String := "TradingProcessManager._wire_grid_and_market.<locals>._price_callback"

def priceCallbackParameters : List String := ["exchange", "symbol", "channel", "data"]

/-- The TypeError of a call with too few or too many arguments. -/
def argumentError (args : List Arg) : Exn :=
  let missing := priceCallbackParameters.drop args.length
  if missing = [] then
    .other "TypeError" s!"{priceCallbackName}() takes 4 positional arguments but {args.length} were given"
  else
    let arguments := if missing.length = 1 then "argument" else "arguments"
    .other "TypeError"
      s!"{priceCallbackName}() missing {missing.length} required positional {arguments}: {quotedList missing}"

/-- The closure _price_callback of an instance. -/
def priceCallback (instanceId : String) : List Arg → Op Unit
  | [_, _, _, .data (.ticker ticker)] => do
      let price ← .lift (ticker.attribute "last_price")
      .await (.onPriceUpdate instanceId price) id
  | [_, _, _, _] => .ret ()
  | args => .raise (argumentError args)

def Callback.call : Callback → List Arg → Op Unit
  | .priceCallback instanceId, args => Hub.priceCallback instanceId args
  | .consumer name, args => .await (.deliver name args) id

/-- SubscriptionManager.fan_out; the callbacks are those of the moment of the call. -/
def fanOut (manager : Manager Callback) (exchange symbol channel : String) (data : Data) : Op Unit :=
  match manager.logical (logicalKey exchange symbol channel) with
  | none => .ret ()
  | some entry => .forEach entry.callbacks (fun callback =>
      -- every exception of a callback is swallowed
      .tryCatch (callback.2.call [.data data]) (fun _ => .ret ()))

/-- The part of _on_market_data that updates the cache. -/
def cached (cache : MarketCache) (exchange symbol channel : String) : Data → MarketCache
  | .ticker ticker => if channel = "ticker" then updateTicker cache exchange symbol ticker else cache
  | .orderbook orderbook => if channel = "orderbook" then updateOrderbook cache exchange symbol orderbook else cache
  | .candles candles => if channel = "candle" then updateCandles cache exchange symbol "1m" candles else cache
  | .candle candle => if channel = "candle" then updateCandles cache exchange symbol candle.interval [candle] else cache

/-- MarketHub._on_market_data -/
def onMarketData (exchange symbol channel : String) (data : Data) : Op Unit := do
  .modify (fun hub => { hub with cache := cached hub.cache exchange symbol channel data })
  match (← .read).subscriptionManager with
  | none => .ret ()
  | some manager => fanOut manager exchange symbol channel data

/-- The callback that a connector of the exchange gives its adapter for a symbol and a channel. -/
def connectorCallback (exchange symbol channel : String) (data : Data) : Op Unit :=
  onMarketData (lower exchange) (upper symbol) (lower channel) data

end Utos.MarketData.Hub
