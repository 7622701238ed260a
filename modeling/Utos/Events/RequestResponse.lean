import Utos.Coroutine.Flight
import Utos.Coroutine.Trace
import Utos.Events.RedisEventBus

namespace Utos.Events.Requests

open Core Core.Exceptions Coroutine Program
open Bus (Message isResponse eventData eventOf eventJson publishTo)

/-- What a channel is subscribed with: a function, or the coroutine function that respond defines for one. -/
inductive Callback
  | function (handler : Bus.Handler)
  | requestHandler (handler : Bus.Handler)

/-- The bus of one process. Of a response waiter it has the number of the request. -/
structure RedisEventBus where
  subscriptions : Dict String Callback := ∅
  listenerTask : Bool := false
  pubsub : Bool := false
  responseWaiters : List Nat := []

/-- The buses of all processes, the uuids drawn, the futures of the requests, and the calls of the
functions. The number of a draw stands for the uuid. -/
structure System (T : Type) where
  made : Nat := 0
  buses : Nat → RedisEventBus := fun _ => {}
  futures : Nat → Option Json := fun _ => none
  calls : List (Bus.Handler × Bus.Event T) := []

/-- What is awaited: Redis, which does as it is asked or raises an exception with a text, and a future,
for which the time may run out. -/
inductive Request
  | subscribe (process : Nat) (channel : String)
  | publish (process : Nat) (message : Message)
  | waitFor (process : Nat) (requestId : Nat)

abbrev Answer : Request → Type
  | .subscribe .. | .publish .. => Except String Unit
  | .waitFor .. => Option Json

/-- What a method of the bus returns; of ids only that there is one. -/
inductive Result
  | id
  | response (response : Json)

variable {T : Type} (float : String → Json) (fromisoformat : String → Except Exn T)

abbrev Operation (T α : Type) := Program (System T) Request Answer Exn α

namespace System

variable (s : System T)

def setBus (process : Nat) (bus : RedisEventBus) : System T := { s with buses := Function.update s.buses process bus }

def draw : System T := { s with made := s.made + 1 }

end System

def eventError (text : String) : Exn := .other "EventError" text

def redisAnswer : Except String Unit → Except Exn Unit
  | .ok () => .ok ()
  | .error text => .error (.other "RedisError" text)

/-- try: ... except Exception as e: raise EventError(text + str(e)) -/
def guarded {α : Type} (text : String) (p : Operation T α) : Operation T α :=
  Program.tryCatch p (fun e => .raise (eventError (text ++ e.message)))

def send (process : Nat) (channel : String) (event : Json) : Operation T Unit :=
  await (.publish process (publishTo channel event)) redisAnswer

/-- What the methods that publish have in common: one event, sent to one channel after the other. -/
def publishOn (process : Nat) (channels : List String) (failure eventType timestamp : String) (data metadata : Json) :
    Operation T Result :=
  guarded failure (.get (fun s =>
    let eventId := toString s.made
    .put s.draw (.bind
      (forEach channels (fun channel => send process channel (eventJson eventType eventId timestamp data metadata)))
      (fun _ => .ret .id))))

def publish (process : Nat) (eventType timestamp : String) (data metadata : Json) : Operation T Result :=
  publishOn process ["events", s!"event:{eventType}"] "Failed to publish event: " eventType timestamp data metadata

def publishToUser (process : Nat) (userId eventType timestamp : String) (data : Json) : Operation T Result :=
  publishOn process [s!"user:{userId}"] "Failed to publish to user: " eventType timestamp data
    (.object [("user_id", .text userId)])

def publishInstanceEvent (process : Nat) (instanceId eventType timestamp : String) (data : Json) : Operation T Result :=
  publishOn process [s!"instance:{instanceId}"] "Failed to publish to instance: " eventType timestamp data
    (.object [("instance_id", .text instanceId)])

def publishMarketEvent (process : Nat) (symbol exchange eventType timestamp : String) (data : Json) :
    Operation T Result :=
  publishOn process [s!"market:{exchange}:{symbol}"] "Failed to publish market event: " eventType timestamp data
    (.object [("symbol", .text symbol), ("exchange", .text exchange)])

def publishSystemEvent (process : Nat) (eventType timestamp : String) (data : Json) : Operation T Result :=
  publishOn process ["system"] "Failed to publish system event: " eventType timestamp data
    (.object [("scope", .text "system")])

/-- if self.pubsub: await self.pubsub.subscribe(channel) -/
def subscribePubsub (process : Nat) (channel : String) : Operation T Unit :=
  .get (fun s => if (s.buses process).pubsub then await (.subscribe process channel) redisAnswer else .ret ())

/-- subscribe draws the id of the subscription, and starts the listener if there is none. -/
def subscribe (process : Nat) (channel : String) (callback : Callback) : Operation T Result :=
  guarded "Failed to subscribe to channel: " (.get (fun s =>
    let bus := s.buses process
    .put (s.draw.setBus process
        { bus with subscriptions := bus.subscriptions.set channel callback, listenerTask := true })
      (.bind (subscribePubsub process channel) (fun _ => .ret .id))))

def respond (process : Nat) (channel : String) (handler : Bus.Handler) : Operation T Result :=
  guarded "Failed to set up response handler: " (.get (fun s =>
    .put s.draw (subscribe process s!"request:{channel}" (.requestHandler handler))))

/-- What request publishes. -/
def requestJson (requestId channel timestamp : String) (data : Json) : Json :=
  .object [("request_id", .text requestId), ("channel", .text channel), ("data", data), ("timestamp", .text timestamp)]

/-- asyncio.wait_for(future, timeout) -/
def waitFor (process requestId : Nat) (timeout : String) : Operation T Result :=
  .call (.waitFor process requestId) (fun
    | some response => .ret (.response response)
    | none => .get (fun s =>
        let bus := s.buses process
        .put (s.setBus process { bus with responseWaiters := bus.responseWaiters.erase requestId })
          (.raise (.timeoutError s!"Request timed out after {timeout} seconds"))))

def request (process : Nat) (channel timeout timestamp : String) (data : Json) : Operation T Result :=
  guarded "Failed to make request: " (.get (fun s =>
    let requestId := s.made
    let bus := s.buses process
    .put (s.draw.setBus process
        { bus with responseWaiters := bus.responseWaiters ++ [requestId], listenerTask := true })
      (.bind (subscribePubsub process s!"response:{requestId}") (fun _ =>
        .bind (send process s!"request:{channel}" (requestJson (toString requestId) channel timestamp data)) (fun _ =>
          waitFor process requestId timeout)))))

/-- What run_in_executor calls. A coroutine function returns a coroutine, which nobody awaits. -/
def runInExecutor (event : Bus.Event T) : Callback → List (Bus.Handler × Bus.Event T)
  | .function handler => [(handler, event)]
  | .requestHandler _ => []

/-- The response goes to the waiter of the request whose id follows the colon. -/
def respondTo (process : Nat) (responseId : List Char) (response : Json) (s : System T) : System T :=
  let bus := s.buses process
  match bus.responseWaiters.find? (fun requestId => (toString requestId).toList = responseId) with
  | none => s
  | some requestId =>
      let s := s.setBus process { bus with responseWaiters := bus.responseWaiters.erase requestId }
      { s with futures := Function.update s.futures requestId (some ((s.futures requestId).getD response)) }

def handleMessage (process : Nat) (message : Message) (s : System T) : System T :=
  match eventData float message with
  | .error _ => s
  | .ok data =>
      if isResponse message.channel then respondTo process (message.channel.toList.drop 9) data s
      else match (s.buses process).subscriptions.get message.channel with
        | none => s
        | some callback => match eventOf fromisoformat data with
          | .error _ => s
          | .ok event => { s with calls := s.calls ++ runInExecutor event callback }

/-- What Redis was sent. -/
abbrev Published := List Message

/-- Redis answers, and may have passed a message on even if it raises; or the time is up. -/
def answers (sent : Bool) (outcome : Except String Unit) : Handler Published Request Answer
  | published, .subscribe .. => (outcome, published)
  | published, .publish _ message => (outcome, if sent then published ++ [message] else published)
  | published, .waitFor .. => (none, published)

def wakes (response : Json) : Handler Published Request Answer
  | published, .subscribe .. | published, .publish .. => (.ok (), published)
  | published, .waitFor .. => (some response, published)

abbrev Network (T : Type) := Pool (System T) Published Request Answer Exn Result

/-- What happens in a network of processes: the calls of the methods, under names of their own, and
listeners that start and get messages, any of those sent so far and in any order. -/
inductive Event
  | publish (caller process : Nat) (eventType timestamp : String) (data metadata : Json)
  | publishToUser (caller process : Nat) (userId eventType timestamp : String) (data : Json)
  | publishInstanceEvent (caller process : Nat) (instanceId eventType timestamp : String) (data : Json)
  | publishMarketEvent (caller process : Nat) (symbol exchange eventType timestamp : String) (data : Json)
  | publishSystemEvent (caller process : Nat) (eventType timestamp : String) (data : Json)
  | subscribe (caller process : Nat) (channel : String) (handler : Bus.Handler)
  | respond (caller process : Nat) (channel : String) (handler : Bus.Handler)
  | request (caller process : Nat) (channel timeout timestamp : String) (data : Json)
  | listen (process : Nat)
  | message (process n : Nat)
  | answer (caller : Nat) (sent : Bool) (outcome : Except String Unit)
  | wake (caller : Nat)

def begin (N : Network T) (caller : Nat) (p : Operation T Result) : Network T :=
  if (N.tasks caller).isNone then N.start caller p else N

/-- A task whose future has a result goes on with it. -/
def wake (N : Network T) (caller : Nat) : Network T :=
  match N.tasks caller with
  | some (.asked (.waitFor _ requestId) _) => match N.store.futures requestId with
    | some response => (N.act (wakes response) caller).resume caller
    | none => N
  | _ => N

def step (N : Network T) : Event → Network T
  | .publish caller process eventType timestamp data metadata =>
      begin N caller (Requests.publish process eventType timestamp data metadata)
  | .publishToUser caller process userId eventType timestamp data =>
      begin N caller (Requests.publishToUser process userId eventType timestamp data)
  | .publishInstanceEvent caller process instanceId eventType timestamp data =>
      begin N caller (Requests.publishInstanceEvent process instanceId eventType timestamp data)
  | .publishMarketEvent caller process symbol exchange eventType timestamp data =>
      begin N caller (Requests.publishMarketEvent process symbol exchange eventType timestamp data)
  | .publishSystemEvent caller process eventType timestamp data =>
      begin N caller (Requests.publishSystemEvent process eventType timestamp data)
  | .subscribe caller process channel handler => begin N caller (Requests.subscribe process channel (.function handler))
  | .respond caller process channel handler => begin N caller (Requests.respond process channel handler)
  | .request caller process channel timeout timestamp data =>
      begin N caller (Requests.request process channel timeout timestamp data)
  | .listen process =>
      let bus := N.store.buses process
      { N with store := N.store.setBus process { bus with pubsub := bus.listenerTask || bus.pubsub } }
  | .message process n =>
      if (N.store.buses process).pubsub then match N.world[n]? with
        | some message => { N with store := handleMessage float fromisoformat process message N.store }
        | none => N
      else N
  | .answer caller sent outcome => (N.act (answers sent outcome) caller).resume caller
  | .wake caller => wake N caller

def opening : Network T := { store := {}, world := [] }

/-- Nothing was sent to a channel for responses, and no future has a result. -/
structure Silent (published : Published) (s : System T) : Prop where
  channels : ∀ message ∈ published, isResponse message.channel = false
  futures : ∀ requestId, s.futures requestId = none

def flight : Flight (System T) Published Request Answer ℕ Exn Result where
  holds _ _ := True
  inv _ := Silent
  answers h := ∃ sent outcome, h = answers sent outcome
  ends r := r = .ok .id ∨ ∃ text, r = .error (eventError text)

variable {published : Published} {s : System T} {F : ℕ} {p : Operation T Result}

/-- The first letters of a channel show that it is not for responses. -/
theorem isResponse_append {head : String} (rest : String) (hhead : "res".toList ≠ head.toList.take 3)
    (hlength : 3 ≤ head.toList.length) : isResponse (head ++ rest) = false := by
  rw [isResponse, ← Bool.not_eq_true, List.isPrefixOf_iff_prefix, String.toList_append]
  rintro ⟨tail, htail⟩
  have htake := congrArg (List.take 3) htail
  rw [List.take_append_of_le_length hlength, List.take_append_of_le_length (by decide)] at htake
  exact hhead htake

theorem isResponse_event (eventType : String) : isResponse s!"event:{eventType}" = false :=
  isResponse_append eventType (by decide) (by decide)

theorem isResponse_user (userId : String) : isResponse s!"user:{userId}" = false :=
  isResponse_append userId (by decide) (by decide)

theorem isResponse_instance (instanceId : String) : isResponse s!"instance:{instanceId}" = false :=
  isResponse_append instanceId (by decide) (by decide)

theorem isResponse_market (exchange symbol : String) : isResponse s!"market:{exchange}:{symbol}" = false := by
  change isResponse ("market:" ++ exchange ++ ":" ++ symbol) = false
  rw [String.append_assoc, String.append_assoc]
  exact isResponse_append _ (by decide) (by decide)

theorem isResponse_request (channel : String) : isResponse s!"request:{channel}" = false :=
  isResponse_append channel (by decide) (by decide)

theorem balances_send {channel : String} (process : Nat) (event : Json) (hchannel : isResponse channel = false) :
    Balances flight (send (T := T) process channel event) := by
  refine fun F published s hinv => ⟨0, trivial, hinv, ?_⟩
  rintro h ⟨sent, outcome, rfl⟩ F' published' s' hinv'
  have hsent : Silent (if sent then published' ++ [publishTo channel event] else published') s' := by
    refine ⟨fun message hmessage => ?_, hinv'.futures⟩
    cases sent with
    | false => exact hinv'.channels message hmessage
    | true =>
        rcases List.mem_append.mp hmessage with hmessage | hmessage
        · exact hinv'.channels message hmessage
        · rw [List.mem_singleton.mp hmessage]
          exact hchannel
  cases outcome <;> exact hsent

theorem balances_subscribePubsub (process : Nat) (channel : String) :
    Balances flight (subscribePubsub (T := T) process channel) := by
  intro F published s hinv
  unfold subscribePubsub
  simp only [Lands]
  split
  · refine ⟨0, trivial, hinv, ?_⟩
    rintro h ⟨sent, outcome, rfl⟩ F' published' s' hinv'
    cases outcome <;> exact hinv'
  · exact hinv

/-- The program keeps the silence, and what it returns is an id. -/
def Returns (p : Operation T Result) : Prop :=
  ∀ F published s, Silent published s →
    Lands flight p (fun r _ published s => (∀ a, r = .ok a → a = .id) ∧ Silent published s) F published s

/-- What an exception becomes, and what is returned. -/
theorem lands_guarded {text : String} (hp : Returns p) (hinv : Silent published s) :
    Lands flight (guarded text p) flight.Ended F published s := by
  refine lands_tryCatch (lands_mono (hp F published s hinv) ?_)
  rintro (e | a) F' published' s' ⟨ha, hinv'⟩
  · exact ⟨.inr ⟨_, rfl⟩, hinv'⟩
  · exact ⟨.inl (by rw [ha a rfl]), hinv'⟩

theorem returns_bind {α : Type} {q : Operation T α} {f : α → Operation T Result} (hq : Balances flight q)
    (hf : ∀ a, Returns (f a)) : Returns (.bind q f) := by
  refine fun F published s hinv => lands_bind (lands_mono (hq F published s hinv) ?_)
  rintro (e | a) F' published' s' hinv'
  · exact ⟨fun a ha => (by cases ha), hinv'⟩
  · exact hf a F' published' s' hinv'

theorem returns_id : Returns (.ret .id : Operation T Result) := fun _ _ _ hinv => ⟨fun a ha => (by cases ha; rfl), hinv⟩

/-- A change of the store that sets no future. -/
theorem returns_put {f : System T → System T} {k : System T → Operation T Result} (hf : ∀ s, (f s).futures = s.futures)
    (hk : ∀ s, Returns (k s)) : Returns (.get (fun s => .put (f s) (k s))) :=
  fun F published s hinv => hk s F published (f s) ⟨hinv.channels, fun requestId => hf s ▸ hinv.futures requestId⟩

theorem lands_publishOn {process : Nat} {channels : List String} {failure eventType timestamp : String}
    {data metadata : Json} (hchannels : ∀ channel ∈ channels, isResponse channel = false) (hinv : Silent published s) :
    Lands flight (publishOn process channels failure eventType timestamp data metadata) flight.Ended F published s := by
  refine lands_guarded (returns_put (fun _ => rfl) (fun s => returns_bind ?_ (fun _ => returns_id))) hinv
  exact balances_forEach (fun channel hchannel => balances_send process _ (hchannels channel hchannel))

theorem lands_subscribe (process : Nat) (channel : String) (callback : Callback) (hinv : Silent published s) :
    Lands flight (subscribe process channel callback) flight.Ended F published s :=
  lands_guarded (returns_put (fun _ => rfl) (fun _ =>
    returns_bind (balances_subscribePubsub process channel) (fun _ => returns_id))) hinv

theorem lands_respond (process : Nat) (channel : String) (handler : Bus.Handler) (hinv : Silent published s) :
    Lands flight (respond process channel handler) flight.Ended F published s := by
  refine lands_guarded (returns_put (fun _ => rfl) (fun s F published s' hinv => ?_)) hinv
  refine lands_mono (lands_subscribe process _ _ hinv) ?_
  rintro r F' published' s' ⟨rfl | ⟨text, rfl⟩, hinv'⟩
  · exact ⟨fun a ha => (by cases ha; rfl), hinv'⟩
  · exact ⟨fun a ha => (by cases ha), hinv'⟩

/-- As nothing sets the future, the time runs out. -/
theorem returns_waitFor (process requestId : Nat) (timeout : String) : Returns (waitFor (T := T) process requestId timeout) := by
  refine fun F published s hinv => ⟨0, trivial, hinv, ?_⟩
  rintro h ⟨sent, outcome, rfl⟩ F' published' s' hinv'
  exact ⟨fun a ha => (by cases ha), hinv'.channels, hinv'.futures⟩

theorem lands_request (process : Nat) (channel timeout timestamp : String) (data : Json) (hinv : Silent published s) :
    Lands flight (request process channel timeout timestamp data) flight.Ended F published s :=
  lands_guarded (returns_put (fun _ => rfl) (fun _ => returns_bind (balances_subscribePubsub process _) (fun _ =>
    returns_bind (balances_send process _ (isResponse_request channel)) (fun _ => returns_waitFor process _ timeout)))) hinv

/-- What a listener does with a message that is no response. -/
theorem Silent.handleMessage (hinv : Silent published s) (process : Nat) {message : Message} (hmessage : message ∈ published) :
    Silent published (handleMessage float fromisoformat process message s) := by
  unfold Requests.handleMessage
  simp only [hinv.channels message hmessage, Bool.false_eq_true, if_false]
  split
  · exact hinv
  · split
    · exact hinv
    · split
      · exact hinv
      · exact ⟨hinv.channels, hinv.futures⟩

section Step

variable {N : Network T}

theorem balanced_begin {own : Nat →₀ ℕ} {caller : Nat} (hN : Balanced flight own N)
    (hp : ∀ F, Silent N.world N.store → Lands flight p flight.Ended F N.world N.store) :
    ∃ own', Balanced flight own' (begin N caller p) := by
  simp only [begin, Option.isNone_iff_eq_none]
  split
  next hfresh => exact hN.start hfresh hp
  next => exact ⟨own, hN⟩

theorem balanced_step (h : ∃ own, Balanced flight own N) (e : Event) :
    ∃ own, Balanced flight own (step float fromisoformat N e) := by
  obtain ⟨own, hN⟩ := h
  cases e with
  | publish caller process eventType timestamp data metadata =>
      refine balanced_begin hN (fun F hinv => lands_publishOn (fun channel hchannel => ?_) hinv)
      rcases List.mem_cons.mp hchannel with rfl | hchannel
      · decide
      · rw [List.mem_singleton.mp hchannel]
        exact isResponse_event eventType
  | publishToUser caller process userId eventType timestamp data =>
      refine balanced_begin hN (fun F hinv => lands_publishOn (fun channel hchannel => ?_) hinv)
      exact List.mem_singleton.mp hchannel ▸ isResponse_user userId
  | publishInstanceEvent caller process instanceId eventType timestamp data =>
      refine balanced_begin hN (fun F hinv => lands_publishOn (fun channel hchannel => ?_) hinv)
      exact List.mem_singleton.mp hchannel ▸ isResponse_instance instanceId
  | publishMarketEvent caller process symbol exchange eventType timestamp data =>
      refine balanced_begin hN (fun F hinv => lands_publishOn (fun channel hchannel => ?_) hinv)
      exact List.mem_singleton.mp hchannel ▸ isResponse_market exchange symbol
  | publishSystemEvent caller process eventType timestamp data =>
      refine balanced_begin hN (fun F hinv => lands_publishOn (fun channel hchannel => ?_) hinv)
      rw [List.mem_singleton.mp hchannel]
      decide
  | subscribe caller process channel handler =>
      exact balanced_begin hN (fun F hinv => lands_subscribe process channel _ hinv)
  | respond caller process channel handler =>
      exact balanced_begin hN (fun F hinv => lands_respond process channel handler hinv)
  | request caller process channel timeout timestamp data =>
      exact balanced_begin hN (fun F hinv => lands_request process channel timeout timestamp data hinv)
  | listen process => exact ⟨own, hN.store (fun F hinv => ⟨hinv.channels, hinv.futures⟩)⟩
  | message process n =>
      simp only [step]
      split
      · split
        next message hmessage =>
          exact ⟨own, hN.store (fun F hinv => hinv.handleMessage float fromisoformat process (List.mem_of_getElem? hmessage))⟩
        next => exact ⟨own, hN⟩
      · exact ⟨own, hN⟩
  | answer caller sent outcome => exact hN.answer ⟨sent, outcome, rfl⟩
  | wake caller =>
      simp only [step, wake]
      split
      next process requestId k htask =>
        simp only [hN.inv.futures requestId]
        exact ⟨own, hN⟩
      next => exact ⟨own, hN⟩

end Step

/-- In no run of any processes, whatever they publish, request and set up to respond, is anything
sent to a channel for responses: a request that ends raises an EventError. -/
theorem no_response_run (es : List Event) :
    Silent (es.foldl (step float fromisoformat) opening).world (es.foldl (step float fromisoformat) opening).store ∧
      ∀ caller r, (es.foldl (step float fromisoformat) opening).tasks caller = some (.done r) →
        r = .ok .id ∨ ∃ text, r = .error (eventError text) := by
  have hopening : ∃ own, Balanced flight own (opening : Network T) :=
    ⟨0, Balanced.idle ⟨fun _ h => absurd h List.not_mem_nil, fun _ => rfl⟩⟩
  obtain ⟨own, hN⟩ := foldl_keeps (I := fun N : Network T => ∃ own, Balanced flight own N)
    (fun N e h => balanced_step float fromisoformat h e) es hopening
  exact ⟨hN.inv, fun caller r htask => hN.ended htask⟩

end Utos.Events.Requests
