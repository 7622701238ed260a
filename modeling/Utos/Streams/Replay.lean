import Utos.Coroutine.Trace
import Utos.Streams.WebSocket

namespace Utos.Streams.Replay

open Coroutine Core.DomainTypes Messages WebSocket

/-- A call of subscribe_market or unsubscribe_market. -/
structure Call where
  verb : Verb
  symbols : List String
  channel : String

def Call.streams (exchange : Exchange) (call : Call) : List Stream :=
  call.symbols.map (fun symbol => stream exchange symbol call.channel)

/-- An adapter and the streams that were subscribed to and not since unsubscribed from. -/
structure Feed extends Adapter where
  live : List Stream := []

variable (hash : String → Nat) (exchange : Exchange)

def Feed.messages (x : Feed) (call : Call) : List Message :=
  Messages.messages hash exchange call.verb x.nextId call.symbols call.channel

def step (x : Feed) (call : Call) : Feed :=
  match call.verb with
  | .subscribe =>
      { toAdapter := x.subscribeMarket hash exchange call.symbols call.channel
        live := x.live ++ call.streams exchange }
  | .unsubscribe =>
      { toAdapter := x.unsubscribeMarket hash exchange call.symbols call.channel
        live := x.live.filter (· ∉ call.streams exchange) }

/-- A reconnect subscribes to the live streams and to no others. -/
def Exact (x : Feed) : Prop := ∀ s, x.socket.Replays s ↔ s ∈ x.live

/-- A stream that the call unsubscribes from is carried by no remembered message
but those under the keys of its own messages. -/
def Meets (x : Feed) (call : Call) : Prop :=
  call.verb = .unsubscribe → ∀ key m, (key, m) ∈ x.socket.subscriptions →
    (∀ m' ∈ x.messages hash exchange call, key ≠ subscriptionKey m') → ∀ s ∈ m.streams, s ∉ call.streams exchange

variable {hash exchange} {x : Feed} {call : Call}

theorem mem_call_streams (s : Stream) :
    (∃ m ∈ x.messages hash exchange call, s ∈ m.streams) ↔ s ∈ call.streams exchange := by
  rw [Feed.messages, mem_streams_messages, Call.streams, List.mem_map]
  simp only [eq_comm]

theorem keyed_step (hk : x.socket.Keyed) : (step hash exchange x call).socket.Keyed := by
  unfold step
  split
  · exact Socket.keyed_foldl_subscribe hk _
  · exact Socket.keyed_foldl_unsubscribe hk _

/-- A remembered message that a call removes carries streams of the call only. -/
theorem removed_streams (hk : x.socket.Keyed) {key : Key} {m m' : Message} (hmem : (key, m) ∈ x.socket.subscriptions)
    (hm' : m' ∈ x.messages hash exchange call) (hkey : key = subscriptionKey m') {s : Stream} (hs : s ∈ m.streams) :
    s ∈ call.streams exchange := by
  have hsame : subscriptionKey m = subscriptionKey m' := (hk key m hmem).symm.trans hkey
  exact (mem_call_streams s).mp ⟨m', hm', (streams_of_key hsame s).mp hs⟩

theorem exact_unsubscribe_iff (hk : x.socket.Keyed) (hx : Exact x) (hverb : call.verb = .unsubscribe) :
    Exact (step hash exchange x call) ↔ Meets hash exchange x call := by
  have hreplays : ∀ s, (step hash exchange x call).socket.Replays s ↔
      ∃ key m, ((key, m) ∈ x.socket.subscriptions ∧
        ∀ m' ∈ x.messages hash exchange call, key ≠ subscriptionKey m') ∧ s ∈ m.streams := by
    intro s
    simp only [step, hverb, Adapter.unsubscribeMarket, Socket.replays_iff, Socket.mem_foldl_unsubscribe, Feed.messages]
  have hlive : ∀ s, s ∈ (step hash exchange x call).live ↔ s ∈ x.live ∧ s ∉ call.streams exchange := by
    simp [step, hverb]
  constructor
  · intro hexact _ key m hmem hkept s hs
    exact ((hlive s).mp ((hexact s).mp ((hreplays s).mpr ⟨key, m, ⟨hmem, hkept⟩, hs⟩))).2
  · intro hmeets s
    rw [hreplays, hlive]
    constructor
    · rintro ⟨key, m, ⟨hmem, hkept⟩, hs⟩
      exact ⟨(hx s).mp ((Socket.replays_iff _ _).mpr ⟨key, m, hmem, hs⟩), hmeets hverb key m hmem hkept s hs⟩
    · rintro ⟨hs, hnot⟩
      obtain ⟨key, m, hmem, hm⟩ := (Socket.replays_iff _ _).mp ((hx s).mpr hs)
      exact ⟨key, m, ⟨hmem, fun m' hm' hkey => hnot (removed_streams hk hmem hm' hkey hm)⟩, hm⟩

theorem exact_subscribe (hk : x.socket.Keyed) (hx : Exact x) (hverb : call.verb = .subscribe) :
    Exact (step hash exchange x call) := by
  intro s
  simp only [step, hverb, Adapter.subscribeMarket, Socket.replays_foldl_subscribe hk, List.mem_append, hx s]
  rw [mem_streams_messages, Call.streams, List.mem_map]
  simp only [eq_comm]

/-- One call keeps the memory exact if and only if it meets the condition. -/
theorem exact_step_iff (hk : x.socket.Keyed) (hx : Exact x) :
    Exact (step hash exchange x call) ↔ Meets hash exchange x call := by
  cases hverb : call.verb with
  | subscribe => exact ⟨fun _ h => (by rw [hverb] at h; cases h), fun _ => exact_subscribe hk hx hverb⟩
  | unsubscribe => exact exact_unsubscribe_iff hk hx hverb

theorem exact_run_iff (hk : x.socket.Keyed) (hx : Exact x) (calls : List Call) :
    AllMeet (step hash exchange) (fun x call => Exact (step hash exchange x call)) x calls ↔
      AllMeet (step hash exchange) (Meets hash exchange) x calls := by
  refine allMeet_congr (I := fun x => x.socket.Keyed ∧ Exact x) (fun x call h hmeets => ?_) (fun x call h => ?_) ⟨hk, hx⟩
  · exact ⟨keyed_step h.1, (exact_step_iff h.1 h.2).mpr hmeets⟩
  · exact exact_step_iff h.1 h.2

theorem keyed_empty : ({} : Feed).socket.Keyed := fun _ _ h => by cases h

theorem exact_empty : Exact {} := by
  intro s
  simp [Socket.Replays, Socket.subscribedMessages]

/-- What a reconnect replays is exact after every call of a run if and only if every call meets the condition. -/
theorem replay_exact_iff (hash : String → Nat) (exchange : Exchange) (calls : List Call) :
    AllMeet (step hash exchange) (fun x call => Exact (step hash exchange x call)) {} calls ↔
      AllMeet (step hash exchange) (Meets hash exchange) {} calls :=
  exact_run_iff keyed_empty exact_empty calls

/-- Bybit's message for unsubscribing has a key of its own: the stream stays remembered. -/
theorem bybit_replays_closed_stream :
    ¬ AllMeet (step String.length .bybit) (fun x call => Exact (step String.length .bybit x call)) {}
      [⟨.subscribe, ["BTCUSDT"], "ticker"⟩, ⟨.unsubscribe, ["BTCUSDT"], "ticker"⟩] := by
  rintro ⟨-, hexact, -⟩
  have hreplayed : (.name "tickers.BTCUSDT" : Stream) ∈
      ([⟨.subscribe, ["BTCUSDT"], "ticker"⟩, ⟨.unsubscribe, ["BTCUSDT"], "ticker"⟩].foldl
        (step String.length .bybit) {}).socket.subscribedMessages.flatMap Message.streams := by decide +kernel
  obtain ⟨m, hm, hs⟩ := List.mem_flatMap.mp hreplayed
  have hlive := (hexact _).mp ⟨m, hm, hs⟩
  revert hlive
  decide +kernel

/-- A MEXC message carries one stream. -/
def OneParam (x : Feed) : Prop :=
  ∀ key m, (key, m) ∈ x.socket.subscriptions → ∃ name, key = .params [name] ∧ m.streams = [.name name]

theorem mexc_message {verb : Verb} {nextId : Nat} {symbols : List String} {channel : String} {m : Message}
    (hm : m ∈ messages hash .mexc verb nextId symbols channel) :
    ∃ symbol ∈ symbols, subscriptionKey m = .params [mexcParam (upper symbol) channel] ∧
      m.streams = [.name (mexcParam (upper symbol) channel)] := by
  obtain ⟨symbol, hsymbol, rfl⟩ := List.mem_map.mp hm
  exact ⟨symbol, hsymbol, rfl, rfl⟩

theorem oneParam_subscribe {socket : Socket} {ms : List Message}
    (hms : ∀ m ∈ ms, ∃ name, subscriptionKey m = .params [name] ∧ m.streams = [.name name])
    (hone : ∀ key m, (key, m) ∈ socket.subscriptions → ∃ name, key = .params [name] ∧ m.streams = [.name name]) :
    ∀ key m, (key, m) ∈ (ms.foldl Socket.subscribe socket).subscriptions →
      ∃ name, key = .params [name] ∧ m.streams = [.name name] := by
  induction ms generalizing socket with
  | nil => exact hone
  | cons m ms ih =>
      refine ih (fun m' hm' => hms m' (by simp [hm'])) (fun key m' hmem => ?_)
      unfold Socket.subscribe at hmem
      split at hmem
      · exact hone key m' hmem
      rcases List.mem_append.mp hmem with hold | hnew
      · exact hone key m' hold
      · cases List.mem_singleton.mp hnew
        exact hms m (by simp)

theorem oneParam_step (hone : OneParam x) : OneParam (step hash .mexc x call) := by
  intro key m hmem
  unfold step at hmem
  split at hmem
  · refine oneParam_subscribe (fun m hm => ?_) hone key m hmem
    obtain ⟨symbol, -, hkey, hstreams⟩ := mexc_message hm
    exact ⟨_, hkey, hstreams⟩
  · exact hone key m ((Socket.mem_foldl_unsubscribe _ _ _ _).mp hmem).1

theorem oneParam_meets (hone : OneParam x) : Meets hash .mexc x call := by
  intro _ key m hmem hkept s hs hcall
  obtain ⟨name, rfl, hstreams⟩ := hone key m hmem
  rw [hstreams, List.mem_singleton] at hs
  subst hs
  obtain ⟨m', hm', hs'⟩ := (mem_call_streams _).mpr hcall
  obtain ⟨symbol, -, hkey, hstreams'⟩ := mexc_message hm'
  rw [hstreams', List.mem_singleton] at hs'
  cases hs'
  exact hkept m' hm' hkey.symm

/-- On MEXC, which sends a message for every symbol, a reconnect replays the live streams in every run. -/
theorem mexc_exact (calls : List Call) :
    AllMeet (step hash .mexc) (fun x call => Exact (step hash .mexc x call)) {} calls := by
  have hrun : ∀ (calls : List Call) (x : Feed), OneParam x → AllMeet (step hash .mexc) (Meets hash .mexc) x calls := by
    intro calls
    induction calls with
    | nil => exact fun _ _ => trivial
    | cons call calls ih => exact fun x hx => ⟨oneParam_meets hx, ih _ (oneParam_step hx)⟩
  exact (exact_run_iff keyed_empty exact_empty calls).mpr (hrun calls {} (fun _ _ h => by cases h))

end Utos.Streams.Replay
