import Utos.Core.Dict
import Utos.Core.Snapshot

namespace Utos.Events.Bus

open Core Core.Exceptions

/-- A handler object; two of them are the same object if their addresses agree. -/
structure Handler where
  address : Nat
  deriving DecidableEq, Repr

/-- What id(handler) is compared with: an int is equal to no str. -/
inductive Identity
  | int (n : Nat)
  | str (s : String)
  deriving DecidableEq, Repr

def Handler.id (handler : Handler) : Identity := .int handler.address

/-- The event that a handler gets; T is the type of the datetimes. -/
structure Event (T : Type) where
  eventType : Json
  eventId : Json
  timestamp : T
  data : Json
  metadata : Json

/-- A message as the listener gets it; the data is a text, as Redis is asked to decode. -/
structure Message where
  channel : String
  data : Json

structure RedisEventBus where
  subscriptions : Dict String Handler := ∅
  listenerTask : Bool := false
  pubsub : Bool := false

variable {T : Type} (float : String → Json) (fromisoformat : String → Except Exn T)

/-- channel.startswith("response:") -/
def isResponse (channel : String) : Bool := "response:".toList.isPrefixOf channel.toList

/-- json.loads(data) if isinstance(data, str) else data -/
def eventData (message : Message) : Except Exn Json :=
  match message.data with
  | .text data => Json.load float data
  | data => .ok data

def timestampOf : Json → Except Exn T
  | .text timestamp => fromisoformat timestamp
  | _ => .error (.other "TypeError" "fromisoformat: argument must be str")

def eventOf (j : Json) : Except Exn (Event T) := do
  let eventType ← j.get "event_type" .null
  let eventId ← j.get "event_id" .null
  let timestamp ← timestampOf fromisoformat (← j.get "timestamp" .null)
  let data ← j.get "data" (.object [])
  let metadata ← j.get "metadata" (.object [])
  return { eventType, eventId, timestamp, data, metadata }

/-- The handler that _handle_message runs, and on what. A response goes to whoever
waits for it and to no handler; whatever raises is logged. -/
def handleMessage (message : Message) (bus : RedisEventBus) : Option (Handler × Event T) :=
  match eventData float message with
  | .error _ => none
  | .ok data =>
      if isResponse message.channel then none
      else match bus.subscriptions.get message.channel with
        | none => none
        | some handler => match eventOf fromisoformat data with
          | .error _ => none
          | .ok event => some (handler, event)

/-- subscribe up to the point where it asks Redis. -/
def subscribe (channel : String) (handler : Handler) (bus : RedisEventBus) : RedisEventBus :=
  { bus with subscriptions := bus.subscriptions.set channel handler, listenerTask := true }

/-- The listener task gets to run. -/
def listenEvents (bus : RedisEventBus) : RedisEventBus := { bus with pubsub := bus.listenerTask || bus.pubsub }

def unsubscribe (subscriptionId : String) (bus : RedisEventBus) : RedisEventBus :=
  match bus.subscriptions.entries.find? (fun e => e.2.id = .str subscriptionId) with
  | some e => { bus with subscriptions := bus.subscriptions.pop e.1 }
  | none => bus

/-- The event as published, with the metadata or an empty dict. -/
def eventJson (eventType eventId timestamp : String) (data metadata : Json) : Json :=
  .object [("event_type", .text eventType), ("event_id", .text eventId), ("timestamp", .text timestamp),
    ("data", data), ("metadata", if metadata.truthy then metadata else .object [])]

def publishTo (channel : String) (event : Json) : Message := ⟨channel, .text (String.ofList (JsonText.dumps event))⟩

/-- What publish sends, to the general channel and to that of the event type. -/
def publish (eventType eventId timestamp : String) (data metadata : Json) : List Message :=
  ["events", s!"event:{eventType}"].map (fun channel =>
    publishTo channel (eventJson eventType eventId timestamp data metadata))

/-- A subscription: the id that subscribe draws, its channel and its handler. -/
structure Subscription where
  id : String
  channel : String
  handler : Handler
  deriving DecidableEq, Repr

/-- A bus with the calls of subscribe so far, the last one first, those that still
wait for Redis, and the subscriptions whose id was returned and not passed to unsubscribe since. -/
structure Session where
  bus : RedisEventBus := {}
  calls : List (String × Handler) := []
  waiting : List Subscription := []
  active : List Subscription := []

inductive Step
  | subscribe (subscription : Subscription)
  | redisAnswers (n : Nat) (subscribed : Bool)
  | listenEvents
  | unsubscribe (subscriptionId : String)
  | message (message : Message)

/-- The calls of subscribe wait for Redis once there is a pubsub; if Redis fails, an EventError is raised. -/
def step (s : Session) : Step → Session
  | .subscribe sub =>
      let s := { s with bus := subscribe sub.channel sub.handler s.bus, calls := (sub.channel, sub.handler) :: s.calls }
      if s.bus.pubsub then { s with waiting := s.waiting ++ [sub] } else { s with active := s.active ++ [sub] }
  | .redisAnswers n subscribed => match s.waiting[n]? with
    | none => s
    | some sub => { s with waiting := s.waiting.eraseIdx n
                           active := if subscribed then s.active ++ [sub] else s.active }
  | .listenEvents => { s with bus := listenEvents s.bus }
  | .unsubscribe subscriptionId =>
      { s with bus := unsubscribe subscriptionId s.bus, active := s.active.filter (fun sub => sub.id ≠ subscriptionId) }
  | .message _ => s

end Utos.Events.Bus
