import Utos.Coroutine.Pool
import Utos.Core.DomainTypes
import Utos.Core.Exceptions

namespace Utos.Streams.SubscriptionManager

open Coroutine Core.DomainTypes Core.Exceptions

structure LogicalKey where
  exchange : String
  symbol : String
  channel : String
  deriving DecidableEq, Repr

def logicalKey (exchange symbol channel : String) : LogicalKey := ⟨lower exchange, upper symbol, lower channel⟩

/-- Consumer ids are fresh uuid4 values, counted here. The ids of the underlying streams are those of subscribe_fn. -/
abbrev ConsumerId := Nat
abbrev WsSubId := Nat

/-- An entry of _logical, without the copy of its key. -/
structure Entry (γ : Type) where
  wsSubId : WsSubId
  refcount : Int
  callbacks : List (ConsumerId × γ)

structure Manager (γ : Type) where
  logical : LogicalKey → Option (Entry γ) := fun _ => none
  consumerMap : ConsumerId → Option LogicalKey := fun _ => none
  issued : Nat := 0

inductive Request (γ : Type)
  | subscribeFn (exchange symbol channel : String) (callback : γ)
  | unsubscribeFn (wsSubId : WsSubId)

abbrev Answer (γ : Type) : Request γ → Type
  | .subscribeFn .. => Except Exn WsSubId
  | .unsubscribeFn _ => Except Exn Unit

/-- The result is the consumer id that subscribe returns. -/
abbrev Operation (γ : Type) := Program (Manager γ) (Request γ) (Answer γ) Exn (Option ConsumerId)

variable {γ : Type}

/-- consumer_id = str(uuid.uuid4()); self._consumer_map[consumer_id] = logical -/
def Manager.register (m : Manager γ) (key : LogicalKey) : Manager γ :=
  { m with consumerMap := Function.update m.consumerMap m.issued (some key), issued := m.issued + 1 }

def Entry.join (entry : Entry γ) (consumerId : ConsumerId) (callback : γ) : Entry γ :=
  { entry with refcount := entry.refcount + 1, callbacks := entry.callbacks ++ [(consumerId, callback)] }

def Entry.leave (entry : Entry γ) (consumerId : ConsumerId) : Entry γ :=
  { entry with refcount := entry.refcount - 1
               callbacks := entry.callbacks.filter (fun callback => callback.1 ≠ consumerId) }

def Manager.put (m : Manager γ) (key : LogicalKey) (entry : Option (Entry γ)) : Manager γ :=
  { m with logical := Function.update m.logical key entry }

/-- The part of subscribe after the await. -/
def install (key : LogicalKey) (consumerId : ConsumerId) (callback : γ) (wsSubId : WsSubId) : Operation γ :=
  .get (fun m =>
    .put (m.put key (some { wsSubId := wsSubId, refcount := 1, callbacks := [(consumerId, callback)] }))
      (.ret (some consumerId)))

def subscribe (exchange symbol channel : String) (callback : γ) : Operation γ :=
  let key := logicalKey exchange symbol channel
  .get (fun m =>
    let consumerId := m.issued
    .put (m.register key) (
      match m.logical key with
      | some entry => .put ((m.register key).put key (some (entry.join consumerId callback))) (.ret (some consumerId))
      | none => .bind (.await (.subscribeFn exchange symbol channel callback) id) (install key consumerId callback)))

def unsubscribe (consumerId : ConsumerId) : Operation γ :=
  .get (fun m =>
    match m.consumerMap consumerId with
    | none => .ret none
    | some key =>
        let m := { m with consumerMap := Function.update m.consumerMap consumerId none }
        .put m (
          match m.logical key with
          | none => .ret none
          | some entry =>
              if (entry.leave consumerId).refcount ≤ 0 then
                .put (m.put key none) (.bind (.await (.unsubscribeFn entry.wsSubId) id) (fun _ => .ret none))
              else .put (m.put key (some (entry.leave consumerId))) (.ret none)))

/-- The streams opened and not closed again, by ws_sub_id. -/
structure Upstream where
  opened : List (WsSubId × LogicalKey) := []
  next : WsSubId := 0

/-- A subscribe_fn that opens a stream under a new id, and an unsubscribe_fn that closes the stream of the id. -/
def upstream : Handler Upstream (Request γ) (Answer γ)
  | w, .subscribeFn exchange symbol channel _ =>
      (.ok w.next, { opened := w.opened ++ [(w.next, logicalKey exchange symbol channel)], next := w.next + 1 })
  | w, .unsubscribeFn wsSubId => (.ok (), { w with opened := w.opened.filter (fun stream => stream.1 ≠ wsSubId) })

/-- Calls run as tasks of one pool, in the order they are started in. The live
consumers are those of the subscribe calls, less those that an unsubscribe call was made for. -/
structure State (γ : Type) where
  pool : Pool (Manager γ) Upstream (Request γ) (Answer γ) Exn (Option ConsumerId) := ⟨{}, {}, fun _ => none⟩
  started : Nat := 0
  live : List (ConsumerId × LogicalKey) := []

inductive Event (γ : Type)
  | subscribe (exchange symbol channel : String) (callback : γ)
  | unsubscribe (consumerId : ConsumerId)
  | act (task : Nat)
  | resume (task : Nat)

def step (x : State γ) : Event γ → State γ
  | .subscribe exchange symbol channel callback =>
      { pool := x.pool.start x.started (SubscriptionManager.subscribe exchange symbol channel callback)
        started := x.started + 1
        live := x.live ++ [(x.pool.store.issued, logicalKey exchange symbol channel)] }
  | .unsubscribe consumerId =>
      { pool := x.pool.start x.started (SubscriptionManager.unsubscribe consumerId)
        started := x.started + 1
        live := x.live.filter (fun consumer => consumer.1 ≠ consumerId) }
  | .act task => { x with pool := x.pool.act upstream task }
  | .resume task => { x with pool := x.pool.resume task }

def State.liveOf (x : State γ) (key : LogicalKey) : List ConsumerId :=
  (x.live.filter (fun consumer => consumer.2 = key)).map Prod.fst

def State.openOf (x : State γ) (key : LogicalKey) : List WsSubId :=
  (x.pool.world.opened.filter (fun stream => stream.2 = key)).map Prod.fst

def Quiescent (x : State γ) : Prop := ∀ i t, x.pool.tasks i = some t → ∃ r, t = .done r

/-- A key with consumers has one open stream and an entry that counts them and
has their callbacks; a key without has no open stream. -/
def Deduplicated (x : State γ) : Prop :=
  ∀ key, if x.liveOf key = [] then x.openOf key = [] else
    ∃ entry, x.pool.store.logical key = some entry ∧ x.openOf key = [entry.wsSubId] ∧
      entry.refcount = (x.liveOf key).length ∧ ∀ c ∈ x.liveOf key, ∃ callback, (c, callback) ∈ entry.callbacks

end Utos.Streams.SubscriptionManager
