import Utos.Coroutine.Trace
import Utos.Events.RedisEventBus

namespace Utos.Events.Delivery

open Core Core.Exceptions Coroutine Bus

variable {T : Type} (float : String → Json) (fromisoformat : String → Except Exn T)

/-- Whether the handler has an active subscription to the channel. -/
def Subscribed (s : Session) (channel : String) (handler : Handler) : Prop :=
  ∃ sub ∈ s.active, sub.channel = channel ∧ sub.handler = handler

/-- The handlers that a message is handed to, each as often as it is. -/
def handed (s : Session) (message : Message) : List Handler :=
  ((handleMessage float fromisoformat message s.bus).map Prod.fst).toList

/-- A message is handed once to each handler subscribed to its channel, and to no other. -/
def Delivered (s : Session) : Step → Prop
  | .message message =>
      (handed float fromisoformat s message).Nodup ∧
        ∀ handler, handler ∈ handed float fromisoformat s message ↔ Subscribed s message.channel handler
  | _ => True

/-- The message is no response, and an event can be read from it. -/
def Readable (message : Message) : Prop :=
  isResponse message.channel = false ∧
    ∃ data event, eventData float message = .ok data ∧ eventOf fromisoformat data = .ok event

/-- The handler of the last call of subscribe for a channel. -/
def lastCaller (s : Session) (channel : String) : Option Handler := s.calls.lookup channel

/-- Every active subscription to the channel of a message is of the handler of the
last call of subscribe for it, and there is one if there was such a call. An
unreadable message finds no active subscription. -/
def Meets (s : Session) : Step → Prop
  | .message message =>
      (∀ sub ∈ s.active, sub.channel = message.channel →
        Readable float fromisoformat message ∧ lastCaller s message.channel = some sub.handler) ∧
      (Readable float fromisoformat message → (lastCaller s message.channel).isSome →
        ∃ sub ∈ s.active, sub.channel = message.channel)
  | _ => True

variable {float fromisoformat} {s : Session} {message : Message}

/-- unsubscribe removes nothing, as no id of a handler is a text. -/
theorem unsubscribe_eq (subscriptionId : String) (bus : RedisEventBus) : unsubscribe subscriptionId bus = bus := by
  have hnone : bus.subscriptions.entries.find? (fun e => e.2.id = .str subscriptionId) = none := by
    apply List.find?_eq_none.mpr
    intro e _
    simp [Handler.id]
  simp only [unsubscribe, hnone]

/-- The bus has the handler of the last call of subscribe for every channel. -/
def Keeps (s : Session) : Prop := ∀ channel, s.bus.subscriptions.get channel = lastCaller s channel

theorem Keeps.step (h : Keeps s) (e : Step) : Keeps (step s e) := by
  cases e with
  | subscribe sub =>
      have hkeeps : ∀ channel, ((subscribe sub.channel sub.handler s.bus).subscriptions).get channel =
          ((sub.channel, sub.handler) :: s.calls).lookup channel := by
        intro channel
        rw [Bus.subscribe, Dict.get_set, Dict.lookup_cons_eq, h channel]
        rfl
      simp only [Bus.step]
      split <;> exact hkeeps
  | redisAnswers n subscribed =>
      simp only [Bus.step]
      split
      · exact h
      · exact h
  | listenEvents => exact h
  | unsubscribe subscriptionId =>
      simp only [Bus.step, unsubscribe_eq]
      exact h
  | message message => exact h

def first : Subscription := ⟨"id-1", "events", ⟨1⟩⟩

def second : Subscription := ⟨"id-2", "events", ⟨2⟩⟩

end Utos.Events.Delivery
