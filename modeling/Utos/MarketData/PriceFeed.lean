import Utos.MarketData.Hub

namespace Utos.MarketData.PriceFeed

open Coroutine Program Core.DomainTypes Core.Exceptions Hub
open Streams.SubscriptionManager (ConsumerId Entry Manager Request Answer logicalKey)

/-- Whoever is called may return or raise, whatever has been called before. -/
abbrev Answers := List FeedReq → (q : FeedReq) → FeedAns q

def recorder (answers : Answers) : Handler (List FeedReq) FeedReq FeedAns := fun made q => (answers made q, made ++ [q])

/-- What is called while the data of a stream is handed on, in this order. -/
def calls (answers : Answers) (hub : MarketHub) (exchange symbol channel : String) (data : Data) : List FeedReq :=
  (run (recorder answers) (connectorCallback exchange symbol channel data) hub []).2.2

def priceUpdate (i : String) : FeedReq → Option ℚ
  | .onPriceUpdate j price => if j = i then some price else none
  | .deliver .. => none

/-- The ticker leads to one price update of the instance, with its last price. -/
def Reaches (answers : Answers) (hub : MarketHub) (i exchange symbol : String) (t : TickerData) : Prop :=
  (calls answers hub exchange symbol "ticker" (.ticker t)).filterMap (priceUpdate i) = [t.last]

/-- The callback of the instance is subscribed, as it is once the wiring has completed. -/
def Wired (hub : MarketHub) (i exchange symbol : String) : Prop :=
  ∃ manager entry c, hub.subscriptionManager = some manager ∧
    manager.logical (logicalKey exchange symbol "ticker") = some entry ∧ (c, .priceCallback i) ∈ entry.callbacks

variable {answers : Answers} {hub : MarketHub} {i exchange symbol channel : String} {data : Data}

theorem registered_of_subscribe {γ W : Type} {h : Handler W (Request γ) (Answer γ)} {m : Manager γ} {w : W}
    {callback : γ} {c : ConsumerId}
    (hok : (run h (Streams.SubscriptionManager.subscribe exchange symbol channel callback) m w).1 = .ok (some c)) :
    ∃ entry, (run h (Streams.SubscriptionManager.subscribe exchange symbol channel callback) m w).2.1.logical
      (logicalKey exchange symbol channel) = some entry ∧ (c, callback) ∈ entry.callbacks := by
  cases hlogical : m.logical (logicalKey exchange symbol channel) with
  | some entry =>
      simp only [Streams.SubscriptionManager.subscribe, run, hlogical, Except.ok.injEq, Option.some.injEq] at hok ⊢
      subst hok
      exact ⟨entry.join m.issued callback, by simp [Manager.put], by simp [Entry.join]⟩
  | none =>
      simp only [Streams.SubscriptionManager.subscribe, run, hlogical, run_bind, Program.await] at hok ⊢
      generalize h w (.subscribeFn exchange symbol channel callback) = answer at hok ⊢
      obtain ⟨e | wsSubId, w'⟩ := answer
      · cases hok
      · simp only [id_eq, lift, run, Streams.SubscriptionManager.install, Except.ok.injEq, Option.some.injEq] at hok ⊢
        subst hok
        exact ⟨_, by simp only [Manager.put, Function.update_self]; rfl, List.mem_singleton.mpr rfl⟩

/-- What one callback is made to call: a consumer gets the data, the closure of an instance a TypeError. -/
def delivery (data : Data) : Callback → Option FeedReq
  | .priceCallback _ => none
  | .consumer name => some (.deliver name [.data data])

theorem run_callback (callback : Callback) (made : List FeedReq) :
    run (recorder answers) (.tryCatch (callback.call [.data data]) (fun _ => .ret ())) hub made =
      (.ok (), hub, made ++ (delivery data callback).toList) := by
  cases callback with
  | priceCallback j => simp [Callback.call, Hub.priceCallback, delivery, run_tryCatch, run]
  | consumer name =>
      simp only [Callback.call, Program.await, run_tryCatch, run, recorder, id_eq, delivery, Option.toList_some]
      cases answers made (.deliver name [.data data]) <;> rfl

theorem run_callbacks (callbacks : List (ConsumerId × Callback)) (made : List FeedReq) :
    run (recorder answers) (.forEach callbacks (fun callback =>
        .tryCatch (callback.2.call [.data data]) (fun _ => .ret ()))) hub made =
      (.ok (), hub, made ++ callbacks.filterMap (fun callback => delivery data callback.2)) := by
  induction callbacks generalizing made with
  | nil => simp [Program.forEach, run]
  | cons callback callbacks ih =>
      rw [Program.forEach, run_bind, run_callback]
      simp only [ih, List.append_assoc]
      cases hd : delivery data callback.2 <;> simp [hd]

/-- The callbacks of a stream. -/
def callbacksOf (hub : MarketHub) (exchange symbol channel : String) : List (ConsumerId × Callback) :=
  ((hub.subscriptionManager.bind (fun manager => manager.logical (logicalKey exchange symbol channel))).map
    Entry.callbacks).getD []

/-- Every other consumer of the stream gets the data once, in the order of the subscriptions; nothing else happens. -/
theorem calls_eq : calls answers hub exchange symbol channel data =
    (callbacksOf hub (lower exchange) (upper symbol) (lower channel)).filterMap (fun c => delivery data c.2) := by
  simp only [calls, connectorCallback, onMarketData, bind_eq, run_bind, Program.modify, Program.read, run, callbacksOf]
  cases hub.subscriptionManager with
  | none => rfl
  | some manager =>
      simp only [Option.bind_some, fanOut]
      cases manager.logical (logicalKey (lower exchange) (upper symbol) (lower channel)) with
      | none => rfl
      | some entry => simp only [run_callbacks, List.nil_append, Option.map_some, Option.getD_some]

theorem no_priceUpdate (answers : Answers) (hub : MarketHub) (i exchange symbol channel : String) (data : Data) :
    (calls answers hub exchange symbol channel data).filterMap (priceUpdate i) = [] := by
  rw [calls_eq, List.filterMap_filterMap]
  refine List.filterMap_eq_nil_iff.mpr (fun c _ => ?_)
  cases c.2 <;> rfl

/-- No ticker ever reaches the grid of an instance. -/
theorem never_reaches (answers : Answers) (hub : MarketHub) (i exchange symbol : String) (t : TickerData) :
    ¬ Reaches answers hub i exchange symbol t := by
  rw [Reaches, no_priceUpdate]
  exact List.cons_ne_nil _ _ ∘ Eq.symm

/-- A hub to which the callback of one instance has been subscribed. -/
def oneInstance : MarketHub :=
  { subscriptionManager := some (run Streams.SubscriptionManager.upstream
      (Streams.SubscriptionManager.subscribe "binance" "BTCUSDT" "ticker" (.priceCallback "a")) {} {}).2.1 }

theorem wired_oneInstance : Wired oneInstance "a" "binance" "BTCUSDT" := by
  have hok : (run Streams.SubscriptionManager.upstream (Streams.SubscriptionManager.subscribe "binance" "BTCUSDT"
      "ticker" (Callback.priceCallback "a")) {} {}).1 = .ok (some 0) := rfl
  obtain ⟨entry, hentry, hc⟩ := registered_of_subscribe hok
  exact ⟨_, entry, 0, rfl, hentry, hc⟩

def quote : TickerData := { symbol := "BTCUSDT", bid := 99, ask := 101, last := 100, volume := 1 }

theorem wired_price_lost : ¬ ∀ (answers : Answers) (hub : MarketHub) (i exchange symbol : String) (t : TickerData),
    Wired hub i exchange symbol → Reaches answers hub i exchange symbol t := by
  intro h
  have hreaches := h (fun _ _ => .ok ()) oneInstance "a" "binance" "BTCUSDT" quote wired_oneInstance
  rw [Reaches, no_priceUpdate] at hreaches
  cases hreaches

end Utos.MarketData.PriceFeed
