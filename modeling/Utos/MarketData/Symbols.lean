import Utos.Execution.Validator
import Utos.MarketData.PriceFeed
import Utos.Process.Manager
import Mathlib

namespace Utos.MarketData.Symbols

open Coroutine Program Core.DomainTypes Core.Exceptions Hub PriceFeed
open Execution.Validator (isSpace)
open Process.Manager (symbolNotSupported)
open Streams.SubscriptionManager (Answer LogicalKey Manager Operation Request logicalKey)

/-- str.strip() -/
def strip (s : String) : String := String.ofList ((s.toList.dropWhile isSpace).rdropWhile isSpace)

/-- The sets of _symbols, as lists. -/
structure SymbolRegistry where
  symbols : String → Option (List String) := fun _ => none

def normalize (symbol : String) : String := upper (strip symbol)

def normalizeExchange (exchange : String) : String := lower (strip exchange)

namespace SymbolRegistry

def register (r : SymbolRegistry) (exchange : String) (symbols : List String) : SymbolRegistry :=
  let key := normalizeExchange exchange
  { symbols := Function.update r.symbols key
      (some (symbols.foldl (fun known symbol => known.insert (normalize symbol)) ((r.symbols key).getD []))) }

def isSupported (r : SymbolRegistry) (exchange symbol : String) : Bool :=
  match r.symbols (normalizeExchange exchange) with
  | none => false
  | some symbols => symbols.contains (normalize symbol)

def validate (r : SymbolRegistry) (exchange symbol : String) : Except Exn String :=
  if r.isSupported exchange symbol then .ok (normalize symbol)
  else .error (symbolNotSupported (normalize symbol) (normalizeExchange exchange))

end SymbolRegistry

/-- MarketHub.subscribe, of a hub that has been started. -/
def subscribe (registry : SymbolRegistry) (exchange symbol channel : String) (callback : Callback) : Operation Callback :=
  .bind (.lift (registry.validate exchange symbol)) (fun _ =>
    Streams.SubscriptionManager.subscribe exchange symbol channel callback)

/-- MarketCache.get_price -/
def getPrice (cache : MarketCache) (exchange symbol : String) : Option ℚ :=
  (cache (lower exchange, upper symbol)).bind CacheEntry.price

/-- The key that the data of a connector's stream is handed on under. -/
def reportedKey (exchange symbol channel : String) : LogicalKey :=
  logicalKey (lower exchange) (upper symbol) (lower channel)

/-- The hub after the data of a connector's stream has been handed on. -/
def fed (answers : Answers) (hub : MarketHub) (exchange symbol channel : String) (data : Data) : MarketHub :=
  (run (recorder answers) (connectorCallback exchange symbol channel data) hub []).2.1

/-- What is subscribed to under a spelling of the names is what arrives under the canonical one. -/
structure Receives (registry : SymbolRegistry) (exchange symbol : String) : Prop where
  key : ∀ channel,
    logicalKey exchange symbol channel = reportedKey (normalizeExchange exchange) (normalize symbol) channel
  delivered : ∀ {W : Type} (h : Handler W (Request Callback) (Answer Callback)) (m : Manager Callback) (w : W)
    (channel name : String) (c : Nat),
    (run h (subscribe registry exchange symbol channel (.consumer name)) m w).1 = .ok (some c) →
    ∀ (answers : Answers) (cache : MarketCache) (data : Data), .deliver name [.data data] ∈ calls answers
      ⟨cache, some (run h (subscribe registry exchange symbol channel (.consumer name)) m w).2.1⟩
      (normalizeExchange exchange) (normalize symbol) channel data
  priced : ∀ (answers : Answers) (hub : MarketHub) (ticker : TickerData),
    getPrice (fed answers hub (normalizeExchange exchange) (normalize symbol) "ticker" (.ticker ticker)).cache
      exchange symbol = some ticker.last

@[simp] theorem lower_lower (s : String) : lower (lower s) = lower s := by
  simp [lower, Function.comp_def]

@[simp] theorem upper_upper (s : String) : upper (upper s) = upper s := by
  simp [upper, Function.comp_def]

theorem strip_sublist (s : String) : (strip s).toList.Sublist s.toList := by
  rw [strip, String.toList_ofList]
  exact (List.rdropWhile_prefix isSpace _).sublist.trans (List.dropWhile_sublist _)

theorem strip_eq_self {s : String} (h : (strip s).toList.length = s.toList.length) : strip s = s :=
  String.toList_inj.mp ((strip_sublist s).eq_of_length h)

theorem length_lower (s : String) : (lower s).toList.length = s.toList.length := by simp [lower]

theorem length_upper (s : String) : (upper s).toList.length = s.toList.length := by simp [upper]

theorem lower_normalizeExchange_iff (exchange : String) :
    lower exchange = lower (normalizeExchange exchange) ↔ strip exchange = exchange := by
  rw [normalizeExchange, lower_lower]
  refine ⟨fun h => strip_eq_self ?_, fun h => by rw [h]⟩
  rw [← length_lower, ← h, length_lower]

theorem upper_normalize_iff (symbol : String) : upper symbol = upper (normalize symbol) ↔ strip symbol = symbol := by
  rw [normalize, upper_upper]
  refine ⟨fun h => strip_eq_self ?_, fun h => by rw [h]⟩
  rw [← length_upper, ← h, length_upper]

variable {answers : Answers} {hub : MarketHub} {registry : SymbolRegistry} {exchange symbol channel : String}

theorem run_fanOut (manager : Manager Callback) (data : Data) (hub : MarketHub) (made : List FeedReq) :
    (run (recorder answers) (fanOut manager exchange symbol channel data) hub made).2.1 = hub := by
  rw [fanOut]
  cases manager.logical (logicalKey exchange symbol channel) with
  | none => rfl
  | some entry =>
      dsimp only
      rw [run_callbacks]

theorem fed_eq (hub : MarketHub) (exchange symbol channel : String) (data : Data) :
    fed answers hub exchange symbol channel data =
      { hub with cache := cached hub.cache (lower exchange) (upper symbol) (lower channel) data } := by
  simp only [fed, connectorCallback, onMarketData, bind_eq, run_bind, Program.modify, Program.read, run]
  cases hub.subscriptionManager with
  | none => rfl
  | some manager => exact run_fanOut ..

theorem getPrice_fed (ticker : TickerData) :
    getPrice (fed answers hub exchange symbol "ticker" (.ticker ticker)).cache exchange symbol = some ticker.last := by
  have hchannel : lower "ticker" = "ticker" := by decide
  rw [fed_eq, hchannel]
  simp [getPrice, cached, updateTicker, MarketCache.assign]

/-- A price arrives where the names that are asked for have the keys of the names that are fed. -/
theorem getPrice_fed_of_eq {exchange' symbol' : String} (hexchange : lower exchange = lower exchange')
    (hsymbol : upper symbol = upper symbol') (ticker : TickerData) :
    getPrice (fed answers hub exchange' symbol' "ticker" (.ticker ticker)).cache exchange symbol = some ticker.last := by
  rw [getPrice, hexchange, hsymbol]
  exact getPrice_fed ticker

/-- A consumer whose subscription has returned is in the entry of its key. -/
theorem registered {W : Type} {h : Handler W (Request Callback) (Answer Callback)} {m : Manager Callback} {w : W}
    {callback : Callback} {c : Nat}
    (hok : (run h (subscribe registry exchange symbol channel callback) m w).1 = .ok (some c)) :
    ∃ entry, (run h (subscribe registry exchange symbol channel callback) m w).2.1.logical
      (logicalKey exchange symbol channel) = some entry ∧ (c, callback) ∈ entry.callbacks := by
  rw [subscribe] at hok ⊢
  cases hvalid : registry.validate exchange symbol with
  | error e =>
      rw [hvalid] at hok
      cases hok
  | ok name =>
      rw [hvalid] at hok
      exact registered_of_subscribe hok

theorem reportedKey_lower (exchange symbol channel : String) :
    logicalKey (lower exchange) (upper symbol) (lower channel) = logicalKey exchange symbol channel := by
  simp [logicalKey]

theorem delivered_of_key {exchange' symbol' name : String} {cache : MarketCache} {manager : Manager Callback} {c : Nat}
    {data : Data} {entry : Streams.SubscriptionManager.Entry Callback}
    (hentry : manager.logical (logicalKey exchange symbol channel) = some entry)
    (hc : (c, .consumer name) ∈ entry.callbacks)
    (hkey : logicalKey exchange symbol channel = reportedKey exchange' symbol' channel) :
    .deliver name [.data data] ∈ calls answers ⟨cache, some manager⟩ exchange' symbol' channel data := by
  rw [calls_eq, List.mem_filterMap]
  rw [hkey, reportedKey] at hentry
  refine ⟨(c, .consumer name), ?_, rfl⟩
  rw [callbacksOf, Option.bind_some, hentry]
  exact hc

/-- A spelling receives the data exactly when nothing surrounds the names. -/
theorem receives_iff (registry : SymbolRegistry) (exchange symbol : String) :
    Receives registry exchange symbol ↔ strip exchange = exchange ∧ strip symbol = symbol := by
  constructor
  · intro h
    have hkey := h.key "ticker"
    simp only [logicalKey, reportedKey, lower_lower, upper_upper, LogicalKey.mk.injEq, and_true] at hkey
    exact ⟨(lower_normalizeExchange_iff exchange).mp hkey.1, (upper_normalize_iff symbol).mp hkey.2⟩
  · rintro ⟨hexchange, hsymbol⟩
    have hexchange' := (lower_normalizeExchange_iff exchange).mpr hexchange
    have hsymbol' := (upper_normalize_iff symbol).mpr hsymbol
    have hkey : ∀ channel, logicalKey exchange symbol channel =
        reportedKey (normalizeExchange exchange) (normalize symbol) channel := by
      intro channel
      rw [reportedKey, reportedKey_lower, logicalKey, logicalKey, hexchange', hsymbol']
    refine ⟨hkey, fun h m w channel name c hok answers cache data => ?_, fun answers hub ticker => ?_⟩
    · obtain ⟨entry, hentry, hc⟩ := registered hok
      exact delivered_of_key hentry hc (hkey channel)
    · exact getPrice_fed_of_eq hexchange' hsymbol' ticker

/-- A registry that knows one symbol of one exchange. -/
def oneSymbol : SymbolRegistry := SymbolRegistry.register {} "binance" ["BTCUSDT"]

/-- A symbol with a blank before it is accepted, and its data does not reach it. -/
theorem accepted_unreceived : ¬ ∀ (registry : SymbolRegistry) (exchange symbol name : String),
    registry.validate exchange symbol = .ok name → Receives registry exchange symbol := by
  intro h
  have haccepted : oneSymbol.validate "binance" " BTCUSDT" = .ok "BTCUSDT" := by decide
  have hkey := (h oneSymbol "binance" " BTCUSDT" "BTCUSDT" haccepted).key "ticker"
  exact absurd hkey (by decide)

end Utos.MarketData.Symbols
