import Utos.Streams.Messages

namespace Utos.Streams.WebSocket

open Core.DomainTypes Messages

/-- The subscriptions that a WebSocketManager remembers for its URL, and what it has sent. -/
structure Socket where
  subscriptions : List (Key × Message) := []
  sent : List Message := []

namespace Socket

def remembers (socket : Socket) (key : Key) : Prop := ∃ m, (key, m) ∈ socket.subscriptions

instance (socket : Socket) (key : Key) : Decidable (socket.remembers key) :=
  decidable_of_iff (key ∈ socket.subscriptions.map Prod.fst) (by simp [remembers])

def subscribe (socket : Socket) (m : Message) : Socket :=
  if socket.remembers (subscriptionKey m) then socket
  else { subscriptions := socket.subscriptions ++ [(subscriptionKey m, m)], sent := socket.sent ++ [m] }

def unsubscribe (socket : Socket) (m : Message) : Socket :=
  { subscriptions := socket.subscriptions.filter (fun entry => entry.1 ≠ subscriptionKey m)
    sent := socket.sent ++ [m] }

/-- The messages that connect sends again. -/
def subscribedMessages (socket : Socket) : List Message := socket.subscriptions.map Prod.snd

/-- The manager remembers a message under its own key. -/
def Keyed (socket : Socket) : Prop := ∀ key m, (key, m) ∈ socket.subscriptions → key = subscriptionKey m

/-- The streams that the remembered messages subscribe to. -/
def Replays (socket : Socket) (s : Stream) : Prop := ∃ m ∈ socket.subscribedMessages, s ∈ m.streams

theorem replays_iff (socket : Socket) (s : Stream) :
    socket.Replays s ↔ ∃ key m, (key, m) ∈ socket.subscriptions ∧ s ∈ m.streams := by
  simp only [Replays, subscribedMessages, List.mem_map, Prod.exists, exists_eq_right]
  constructor
  · rintro ⟨m, ⟨key, hmem⟩, hs⟩
    exact ⟨key, m, hmem, hs⟩
  · rintro ⟨key, m, hmem, hs⟩
    exact ⟨m, ⟨key, hmem⟩, hs⟩

theorem keyed_subscribe {socket : Socket} (hk : socket.Keyed) (m : Message) : (socket.subscribe m).Keyed := by
  unfold subscribe
  split
  · exact hk
  · intro key m' hmem
    rcases List.mem_append.mp hmem with hold | hnew
    · exact hk key m' hold
    · cases List.mem_singleton.mp hnew
      rfl

theorem keyed_unsubscribe {socket : Socket} (hk : socket.Keyed) (m : Message) : (socket.unsubscribe m).Keyed :=
  fun key m' hmem => hk key m' (List.mem_of_mem_filter hmem)

theorem replays_subscribe {socket : Socket} (hk : socket.Keyed) (m : Message) (s : Stream) :
    (socket.subscribe m).Replays s ↔ socket.Replays s ∨ s ∈ m.streams := by
  unfold subscribe
  split
  next hremembers =>
    obtain ⟨m', hmem⟩ := hremembers
    refine ⟨.inl, fun h => h.elim id (fun hs => ?_)⟩
    rw [replays_iff]
    exact ⟨_, m', hmem, (streams_of_key (hk _ _ hmem) s).mp hs⟩
  next =>
    simp only [replays_iff, List.mem_append, List.mem_singleton, Prod.mk.injEq]
    constructor
    · rintro ⟨key, m', hmem | ⟨rfl, rfl⟩, hs⟩
      · exact .inl ⟨key, m', hmem, hs⟩
      · exact .inr hs
    · rintro (⟨key, m', hmem, hs⟩ | hs)
      · exact ⟨key, m', .inl hmem, hs⟩
      · exact ⟨_, m, .inr ⟨rfl, rfl⟩, hs⟩

theorem keyed_foldl_subscribe {socket : Socket} (hk : socket.Keyed) (ms : List Message) :
    (ms.foldl subscribe socket).Keyed := by
  induction ms generalizing socket with
  | nil => exact hk
  | cons m ms ih => exact ih (keyed_subscribe hk m)

theorem keyed_foldl_unsubscribe {socket : Socket} (hk : socket.Keyed) (ms : List Message) :
    (ms.foldl unsubscribe socket).Keyed := by
  induction ms generalizing socket with
  | nil => exact hk
  | cons m ms ih => exact ih (keyed_unsubscribe hk m)

theorem replays_foldl_subscribe {socket : Socket} (hk : socket.Keyed) (ms : List Message) (s : Stream) :
    (ms.foldl subscribe socket).Replays s ↔ socket.Replays s ∨ ∃ m ∈ ms, s ∈ m.streams := by
  induction ms generalizing socket with
  | nil => simp
  | cons m ms ih =>
      rw [List.foldl_cons, ih (keyed_subscribe hk m), replays_subscribe hk]
      simp only [List.mem_cons, exists_eq_or_imp, or_assoc]

theorem mem_foldl_unsubscribe (socket : Socket) (ms : List Message) (key : Key) (m : Message) :
    (key, m) ∈ (ms.foldl unsubscribe socket).subscriptions ↔
      (key, m) ∈ socket.subscriptions ∧ ∀ m' ∈ ms, key ≠ subscriptionKey m' := by
  induction ms generalizing socket with
  | nil => simp
  | cons m' ms ih =>
      rw [List.foldl_cons, ih]
      simp only [unsubscribe, List.mem_filter, decide_eq_true_eq, List.forall_mem_cons, and_assoc]

end Socket

/-- An adapter over a connected WebSocketManager. -/
structure Adapter where
  socket : Socket := {}
  nextId : Nat := 1

namespace Adapter

variable (hash : String → Nat) (exchange : Exchange) (adapter : Adapter) (symbols : List String) (channel : String)

/-- Returns True. -/
def subscribeMarket : Adapter :=
  { socket := (messages hash exchange .subscribe adapter.nextId symbols channel).foldl Socket.subscribe adapter.socket
    nextId := adapter.nextId + 1 }

def unsubscribeMarket : Adapter :=
  { socket := (messages hash exchange .unsubscribe adapter.nextId symbols channel).foldl Socket.unsubscribe adapter.socket
    nextId := adapter.nextId + 1 }

end Adapter

end Utos.Streams.WebSocket
