import Utos.Coroutine.Trace
import Utos.Streams.WebSocket

namespace Utos.Streams.Connector

open Coroutine Core.DomainTypes Messages WebSocket

/-- A subscription id: a string, or the True that the adapters return. -/
inductive SubscriptionId
  | text (id : String)
  | true
  deriving DecidableEq, Repr

/-- What iterating over a str yields. -/
def characters (s : String) : List String := s.toList.map (fun c => String.ofList [c])

/-- ExchangeConnector over an adapter whose calls succeed. -/
structure ExchangeConnector where
  adapter : Adapter := {}
  subMap : List (SubscriptionId × String × String) := []

inductive Event
  | subscribe (symbol channel : String)
  | unsubscribe (subscriptionId : SubscriptionId)

variable (hash : String → Nat) (exchange : Exchange)

/-- The adapter takes the symbol for a list of symbols. -/
def subscribe (x : ExchangeConnector) (symbol channel : String) : SubscriptionId × ExchangeConnector :=
  let id := SubscriptionId.true
  (id, { adapter := x.adapter.subscribeMarket hash exchange (characters (upper symbol)) (lower channel)
         subMap := x.subMap.filter (fun entry => entry.1 ≠ id) ++ [(id, upper symbol, lower channel)] })

/-- unsubscribe_market(subscription_id) lacks an argument; the TypeError is logged and the entry removed. -/
def unsubscribe (x : ExchangeConnector) (id : SubscriptionId) : ExchangeConnector :=
  { x with subMap := x.subMap.filter (fun entry => entry.1 ≠ id) }

def step (x : ExchangeConnector) : Event → ExchangeConnector
  | .subscribe symbol channel => (subscribe hash exchange x symbol channel).2
  | .unsubscribe id => unsubscribe x id

/-- Whether the exchange reads a message as a subscription. -/
def subscribes : Message → Bool
  | .params method _ _ => method = "SUBSCRIBE" ∨ method = "SUBSCRIPTION"
  | .args op _ => op = "subscribe"
  | .subscription method _ _ => method = "subscribe"

/-- The streams that are open at the exchange after the messages sent to it. -/
def openAfter (sent : List Message) : List Stream :=
  sent.foldl (fun streams m =>
    if subscribes m then streams ++ m.streams else streams.filter (· ∉ m.streams)) []

def ExchangeConnector.opened (x : ExchangeConnector) : List Stream := openAfter x.adapter.socket.sent

/-- The open streams are those of the subscription map. -/
def Agree (x : ExchangeConnector) : Prop :=
  ∀ s, s ∈ x.opened ↔ ∃ id symbol channel, (id, symbol, channel) ∈ x.subMap ∧ s = stream exchange symbol channel

def Live (x : ExchangeConnector) (id : SubscriptionId) : Prop := ∃ entry ∈ x.subMap, entry.1 = id

/-- The contract of one call. -/
def Holds (x : ExchangeConnector) : Event → Prop
  | .subscribe symbol channel =>
      (∀ s, s ∈ (subscribe hash exchange x symbol channel).2.opened ↔
        s ∈ x.opened ∨ s = stream exchange (upper symbol) (lower channel)) ∧
      ¬ Live x (subscribe hash exchange x symbol channel).1 ∧
      Agree exchange (subscribe hash exchange x symbol channel).2
  | .unsubscribe id =>
      (∀ s, s ∈ (unsubscribe x id).opened ↔
        s ∈ x.opened ∧ ∀ symbol channel, (id, symbol, channel) ∈ x.subMap → s ≠ stream exchange symbol channel) ∧
      Agree exchange (unsubscribe x id)

/-- A subscription to a symbol of one character, with none live; or an unsubscription without effect. -/
def Meets (x : ExchangeConnector) : Event → Prop
  | .subscribe symbol _ => symbol.toList.length = 1 ∧ x.subMap = []
  | .unsubscribe id => ¬ Live x id

variable {hash exchange} {x : ExchangeConnector} {e : Event} {symbol channel : String}

theorem length_upper (s : String) : (upper s).toList.length = s.toList.length := by simp [upper]

theorem length_lower (s : String) : (lower s).toList.length = s.toList.length := by simp [lower]

theorem length_of_stream (hex : exchange ≠ .hyperliquid) {s t : String}
    (h : stream exchange s channel = stream exchange t channel) : s.toList.length = t.toList.length := by
  have hlength : ∀ {a b : String}, Stream.name a = Stream.name b → a.toList.length = b.toList.length := by
    intro a b hab
    cases hab
    rfl
  cases exchange with
  | hyperliquid => exact absurd rfl hex
  | binance | bybit | okx | mexc =>
      have hnames := hlength h
      simp only [binanceStream, bybitArg, okxArg, mexcParam] at hnames
      split at hnames
      · simp only [String.toList_append, List.length_append, length_upper, length_lower] at hnames
        omega
      split at hnames
      · simp only [String.toList_append, List.length_append, length_upper, length_lower] at hnames
        omega
      · simp only [String.toList_append, List.length_append, length_upper, length_lower] at hnames
        omega

theorem subscribes_messages {nextId : Nat} {symbols : List String} {m : Message}
    (hm : m ∈ messages hash exchange .subscribe nextId symbols channel) : subscribes m = true := by
  cases exchange with
  | binance | bybit | okx =>
      cases List.mem_singleton.mp hm
      simp [subscribes, Verb.method]
  | mexc =>
      obtain ⟨s, -, rfl⟩ := List.mem_map.mp hm
      simp [subscribes, Verb.method]
  | hyperliquid =>
      obtain ⟨s, -, rfl⟩ := List.mem_map.mp hm
      unfold hyperliquidMessage
      split
      · simp [subscribes, Verb.method]
      split <;> simp [subscribes, Verb.method]

theorem openAfter_append_subscribe (sent : List Message) {m : Message} (hm : subscribes m = true) :
    openAfter (sent ++ [m]) = openAfter sent ++ m.streams := by
  simp [openAfter, hm]

theorem opened_foldl_subscribe {socket : Socket} (hk : socket.Keyed) (hopen : ∀ s, s ∈ openAfter socket.sent ↔ socket.Replays s)
    {ms : List Message} (hms : ∀ m ∈ ms, subscribes m = true) (s : Stream) :
    s ∈ openAfter (ms.foldl Socket.subscribe socket).sent ↔ (ms.foldl Socket.subscribe socket).Replays s := by
  induction ms generalizing socket with
  | nil => exact hopen s
  | cons m ms ih =>
      refine ih (Socket.keyed_subscribe hk m) (fun s => ?_) (fun m' hm' => hms m' (by simp [hm']))
      rw [Socket.replays_subscribe hk]
      unfold Socket.subscribe
      split
      next hremembers =>
        obtain ⟨m', hmem⟩ := hremembers
        refine ⟨fun h => .inl ((hopen s).mp h), fun h => h.elim (hopen s).mpr (fun hs => (hopen s).mpr ?_)⟩
        exact (Socket.replays_iff _ _).mpr ⟨_, m', hmem, (streams_of_key (hk _ _ hmem) s).mp hs⟩
      next =>
        rw [openAfter_append_subscribe _ (hms m (by simp)), List.mem_append, hopen s]

/-- Nothing was ever subscribed to. -/
def Idle (x : ExchangeConnector) : Prop := x.subMap = [] ∧ x.adapter.socket = {}

/-- One stream is open, and the map has it. -/
def Holding (exchange : Exchange) (x : ExchangeConnector) : Prop :=
  ∃ symbol channel, x.subMap = [(.true, symbol, channel)] ∧ ∀ s, s ∈ x.opened ↔ s = stream exchange symbol channel

theorem opened_idle (hx : Idle x) : x.opened = [] := by
  rw [ExchangeConnector.opened, hx.2]
  rfl

/-- From the start a subscription opens a stream for every character. -/
theorem opened_subscribe (hx : Idle x) (s : Stream) :
    s ∈ (subscribe hash exchange x symbol channel).2.opened ↔
      ∃ c ∈ characters (upper symbol), s = stream exchange c (lower channel) := by
  have hempty : ({} : Socket).Keyed := fun _ _ h => by cases h
  have hopen : ∀ s, s ∈ openAfter ({} : Socket).sent ↔ ({} : Socket).Replays s := by
    intro s
    simp [openAfter, Socket.Replays, Socket.subscribedMessages]
  simp only [subscribe, ExchangeConnector.opened, Adapter.subscribeMarket, hx.2]
  rw [opened_foldl_subscribe hempty hopen (fun m hm => subscribes_messages hm), Socket.replays_foldl_subscribe hempty,
    ← hopen, mem_streams_messages]
  simp [openAfter]

theorem characters_of_length {s : String} (h : s.toList.length = 1) : characters s = [s] := by
  obtain ⟨c, hc⟩ := List.length_eq_one_iff.mp h
  have hs : s = String.ofList [c] := by rw [← hc, String.ofList_toList]
  rw [characters, hc, List.map_singleton, ← hs]

theorem length_of_characters {s c : String} (hc : c ∈ characters s) : c.toList.length = 1 := by
  obtain ⟨ch, -, rfl⟩ := List.mem_map.mp hc
  simp

theorem holds_subscribe_iff (hex : exchange ≠ .hyperliquid) (hx : Idle x) :
    Holds hash exchange x (.subscribe symbol channel) ↔ Meets x (.subscribe symbol channel) := by
  constructor
  · rintro ⟨hopened, -, -⟩
    refine ⟨?_, hx.1⟩
    obtain ⟨c, hc, heq⟩ := (opened_subscribe hx _).mp ((hopened _).mpr (.inr rfl))
    rw [← length_upper, length_of_stream hex heq, length_of_characters hc]
  · rintro ⟨hlength, -⟩
    have hopened : ∀ s, s ∈ (subscribe hash exchange x symbol channel).2.opened ↔
        s = stream exchange (upper symbol) (lower channel) := by
      intro s
      rw [opened_subscribe hx, characters_of_length (by rw [length_upper, hlength])]
      simp
    refine ⟨fun s => ?_, ?_, fun s => ?_⟩
    · rw [hopened, opened_idle hx]
      simp
    · rintro ⟨entry, hentry, -⟩
      rw [hx.1] at hentry
      cases hentry
    · rw [hopened]
      simp [subscribe, hx.1]

theorem holding_subscribe (hx : Idle x) (hmeets : Meets x (.subscribe symbol channel)) :
    Holding exchange (subscribe hash exchange x symbol channel).2 := by
  refine ⟨upper symbol, lower channel, by simp [subscribe, hx.1], fun s => ?_⟩
  rw [opened_subscribe hx, characters_of_length (by rw [length_upper, hmeets.1])]
  simp

theorem live_holding (hx : Holding exchange x) : Live x .true := by
  obtain ⟨symbol, channel, hmap, -⟩ := hx
  exact ⟨_, by rw [hmap]; exact List.mem_singleton_self _, rfl⟩

theorem unsubscribe_of_not_live {id : SubscriptionId} (hid : ¬ Live x id) : unsubscribe x id = x := by
  have hkeep : x.subMap.filter (fun entry => entry.1 ≠ id) = x.subMap := by
    rw [List.filter_eq_self]
    intro entry hentry
    simpa using fun heq => hid ⟨entry, hentry, heq⟩
  rw [unsubscribe, hkeep]

theorem holds_of_not_live {id : SubscriptionId} (hagree : Agree exchange x) (hid : ¬ Live x id) :
    Holds hash exchange x (.unsubscribe id) := by
  rw [Holds, unsubscribe_of_not_live hid]
  refine ⟨fun s => ⟨fun hs => ⟨hs, fun symbol channel hmem => absurd ⟨_, hmem, rfl⟩ hid⟩, And.left⟩, hagree⟩

theorem agree_idle (hx : Idle x) : Agree exchange x := by
  intro s
  rw [opened_idle hx, hx.1]
  simp

theorem agree_holding (hx : Holding exchange x) : Agree exchange x := by
  obtain ⟨symbol, channel, hmap, hopened⟩ := hx
  intro s
  rw [hopened, hmap]
  simp

/-- The one stream that is open stays open when its subscription is given up. -/
theorem not_holds_of_live {id : SubscriptionId} (hx : Holding exchange x) (hid : Live x id) :
    ¬ Holds hash exchange x (.unsubscribe id) := by
  obtain ⟨symbol, channel, hmap, hopened⟩ := hx
  obtain ⟨entry, hentry, rfl⟩ := hid
  rintro ⟨hclosed, -⟩
  rw [hmap, List.mem_singleton] at hentry
  subst hentry
  have hopen : stream exchange symbol channel ∈ x.opened := (hopened _).mpr rfl
  exact ((hclosed _).mp hopen).2 symbol channel (by rw [hmap]; exact List.mem_singleton_self _) rfl

theorem holds_iff (hex : exchange ≠ .hyperliquid) (hx : Idle x ∨ Holding exchange x) :
    Holds hash exchange x e ↔ Meets x e := by
  cases e with
  | subscribe symbol channel =>
      rcases hx with hidle | hholding
      · exact holds_subscribe_iff hex hidle
      · refine ⟨fun h => absurd (live_holding hholding) h.2.1, fun h => ?_⟩
        obtain ⟨entry, hentry, -⟩ := live_holding hholding
        rw [h.2] at hentry
        cases hentry
  | unsubscribe id =>
      have hagree : Agree exchange x := hx.elim agree_idle agree_holding
      refine ⟨fun h hid => ?_, fun h => holds_of_not_live hagree h⟩
      rcases hx with hidle | hholding
      · obtain ⟨entry, hentry, -⟩ := hid
        rw [hidle.1] at hentry
        cases hentry
      · exact not_holds_of_live hholding hid h

theorem step_meets (hx : Idle x ∨ Holding exchange x) (hmeets : Meets x e) :
    Idle (step hash exchange x e) ∨ Holding exchange (step hash exchange x e) := by
  cases e with
  | subscribe symbol channel =>
      rcases hx with hidle | hholding
      · exact .inr (holding_subscribe hidle hmeets)
      · obtain ⟨entry, hentry, -⟩ := live_holding hholding
        rw [hmeets.2] at hentry
        cases hentry
  | unsubscribe id =>
      rw [step, unsubscribe_of_not_live hmeets]
      exact hx

theorem holds_run_iff (hex : exchange ≠ .hyperliquid) (hx : Idle x ∨ Holding exchange x) (events : List Event) :
    AllMeet (step hash exchange) (Holds hash exchange) x events ↔ AllMeet (step hash exchange) Meets x events := by
  refine allMeet_congr (I := fun x => Idle x ∨ Holding exchange x) (fun x e hx he => ?_) (fun x e hx => ?_) hx
  · exact step_meets hx he
  · exact holds_iff hex hx

/-- The streaming contract holds in a run exactly if every call meets the condition. -/
theorem contract_iff (hash : String → Nat) (hex : exchange ≠ .hyperliquid) (events : List Event) :
    AllMeet (step hash exchange) (Holds hash exchange) {} events ↔ AllMeet (step hash exchange) Meets {} events :=
  holds_run_iff hex (.inl ⟨rfl, rfl⟩) events

theorem contract_iff_one_letter :
    AllMeet (step String.length .binance) (Holds String.length .binance) {} [.subscribe "B" "ticker"] ↔
      AllMeet (step String.length .binance) Meets {} [.subscribe "B" "ticker"] :=
  contract_iff String.length (by decide) _

/-- A subscription to BTC opens the streams b@ticker, t@ticker and c@ticker. -/
theorem subscribe_opens_letters :
    ¬ AllMeet (step String.length .binance) (Holds String.length .binance) {} [.subscribe "BTC" "ticker"] := by
  rintro ⟨⟨hopened, -⟩, -⟩
  have hletter : (.name "t@ticker" : Stream) ∈
      (subscribe String.length .binance {} "BTC" "ticker").2.opened := by decide +kernel
  rcases (hopened _).mp hletter with hnone | heq
  · revert hnone
    decide +kernel
  · revert heq
    decide +kernel

end Utos.Streams.Connector
